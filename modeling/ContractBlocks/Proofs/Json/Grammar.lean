import ContractBlocks.Json.Outline
import ContractBlocks.Proofs.Decimal.Nearest
import Mathlib.Data.Nat.Digits.Defs

namespace ContractBlocks.Json

/-- The white space that may stand around the parts of a text. -/
def IsSpace (c : Char) : Prop :=
  c = ' ' ∨ c = '\n' ∨ c = '\t' ∨ c = '\r'

/-- A text starts with blanks, or with nothing, and goes on with `rest`. All relations of the grammar
    are between a text and what follows the part of it that is spelled. -/
inductive Blanks : List Char → List Char → Prop
  | nil {cs : List Char} : Blanks cs cs
  | cons {c : Char} {cs rest : List Char} (hspace : IsSpace c) (hrest : Blanks cs rest) :
    Blanks (c :: cs) rest

/-- What a letter stands for after a backslash. -/
inductive EscapeText : Char → Char → Prop
  | quote : EscapeText '\"' '\"'
  | backslash : EscapeText '\\' '\\'
  | slash : EscapeText '/' '/'
  | backspace : EscapeText 'b' (Char.ofNat 0x08)
  | formFeed : EscapeText 'f' (Char.ofNat 0x0c)
  | lineFeed : EscapeText 'n' '\n'
  | carriageReturn : EscapeText 'r' '\r'
  | tab : EscapeText 't' '\t'

/-- A hexadecimal digit of either case, with its value. -/
inductive HexText : ℕ → Char → Prop
  | digit {c : Char} (hlow : '0' ≤ c) (hhigh : c ≤ '9') : HexText (c.toNat - '0'.toNat) c
  | lower {c : Char} (hlow : 'a' ≤ c) (hhigh : c ≤ 'f') : HexText (c.toNat - 'a'.toNat + 10) c
  | upper {c : Char} (hlow : 'A' ≤ c) (hhigh : c ≤ 'F') : HexText (c.toNat - 'A'.toNat + 10) c

/-- Four hexadecimal digits, with the code unit that they spell. -/
inductive UnitText : ℕ → Char → Char → Char → Char → Prop
  | mk {a b c d : Char} {i j k l : ℕ} (ha : HexText i a) (hb : HexText j b) (hc : HexText k c)
      (hd : HexText l d) :
    UnitText (i * 16 ^ 3 + j * 16 ^ 2 + k * 16 + l) a b c d

/-- The characters of a string literal after its opening quote, up to the closing one. A code unit
    spells a character, except for those that only spell one in a pair. -/
inductive Letters : List Char → List Char → List Char → Prop
  | close {rest : List Char} : Letters [] ('\"' :: rest) rest
  | plain {c : Char} {s cs rest : List Char} (hquote : c ≠ '\"') (hbackslash : c ≠ '\\')
      (hcontrol : 0x20 ≤ c.toNat) (hrest : Letters s cs rest) :
    Letters (c :: s) (c :: cs) rest
  | escape {e c : Char} {s cs rest : List Char} (hescape : EscapeText e c) (hrest : Letters s cs rest) :
    Letters (c :: s) ('\\' :: e :: cs) rest
  | unit {a b c d : Char} {n : ℕ} {s cs rest : List Char} (hunit : UnitText n a b c d)
      (halone : n < 0xd800 ∨ 0xdfff < n) (hrest : Letters s cs rest) :
    Letters (Char.ofNat n :: s) ('\\' :: 'u' :: a :: b :: c :: d :: cs) rest
  | pair {a b c d a' b' c' d' : Char} {n m : ℕ} {s cs rest : List Char}
      (hfirst : UnitText n a b c d) (hhigh : 0xd800 ≤ n ∧ n ≤ 0xdbff)
      (hsecond : UnitText m a' b' c' d') (hlow : 0xdc00 ≤ m ∧ m ≤ 0xdfff)
      (hrest : Letters s cs rest) :
    Letters (Char.ofNat (0x10000 + 0x400 * (n - 0xd800) + (m - 0xdc00)) :: s)
      ('\\' :: 'u' :: a :: b :: c :: d :: '\\' :: 'u' :: a' :: b' :: c' :: d' :: cs) rest

/-- The number that a run of digits spells in base ten. -/
def digitsValue (ds : List Char) : ℕ :=
  Nat.ofDigits 10 (ds.reverse.map fun d => d.toNat - '0'.toNat)

/-- At least one digit and nothing else. -/
def IsDigits (ds : List Char) : Prop :=
  ds ≠ [] ∧ ∀ d ∈ ds, d.isDigit

/-- The digits before the point. A zero leads no others. -/
def IsWhole (ds : List Char) : Prop :=
  IsDigits ds ∧ (ds.head? = some '0' → ds = ['0'])

/-- The point and the digits after it, or nothing. -/
inductive FractionText : Option (List Char) → List Char → Prop
  | absent : FractionText none []
  | present {ds : List Char} (hdigits : IsDigits ds) : FractionText (some ds) ('.' :: ds)

/-- The sign of an exponent; the flag says whether it is a minus. -/
inductive SignText : Bool → List Char → Prop
  | absent : SignText false []
  | plus : SignText false ['+']
  | minus : SignText true ['-']

/-- An exponent with its mark and sign, or nothing. -/
inductive ExponentText : Option Int → List Char → Prop
  | absent : ExponentText none []
  | present {mark : Char} {negative : Bool} {sign ds : List Char} (hmark : mark = 'e' ∨ mark = 'E')
      (hsign : SignText negative sign) (hdigits : IsDigits ds) :
    ExponentText (some (if negative then -(digitsValue ds : Int) else digitsValue ds))
      (mark :: (sign ++ ds))

/-- The text of a number after its sign. -/
inductive UnsignedText (negative : Bool) : Numeral → List Char → Prop
  | mk {whole point power : List Char} {fraction : Option (List Char)} {exponent : Option Int}
      (hwhole : IsWhole whole) (hfraction : FractionText fraction point)
      (hexponent : ExponentText exponent power) :
    UnsignedText negative
      ⟨⟨negative, digitsValue (whole ++ fraction.getD []),
        exponent.getD 0 - (fraction.getD []).length⟩, fraction.isNone && exponent.isNone⟩
      (whole ++ (point ++ power))

/-- The text of a number. Only a minus may lead it. -/
inductive NumeralText : Numeral → List Char → Prop
  | positive {m : Numeral} {text : List Char} (htext : UnsignedText false m text) : NumeralText m text
  | negative {m : Numeral} {text : List Char} (htext : UnsignedText true m text) :
    NumeralText m ('-' :: text)

/-- The number that the text of a numeral stands for. A plain numeral is an integer if that fits a
    word, except for minus zero. Every other numeral is the float nearest to it, with its sign, unless
    it lies beyond the largest one. -/
inductive Numeral.StandsFor (m : Numeral) : Number → Prop
  | whole {z : ℤ} (hplain : m.plain) (hvalue : m.value.value = z) (hzero : m.value.negative → z ≠ 0)
      (fits : FitsWord z) :
    StandsFor m (.whole z fits)
  | float {x : Binary64}
      (hother : m.plain → ∀ z : ℤ, m.value.value = z → FitsWord z → m.value.negative ∧ z = 0)
      (hnearest : x.IsNearest m.value.value) (hsign : x.negative = m.value.negative)
      (hsize : |m.value.value| < Binary64.overflowBound) :
    StandsFor m (.float x)

/-- The entries of an object, from those of its text. A repeated key keeps its first place and takes
    its last value. -/
structure Merges (written entries : List (String × Json)) : Prop where
  keys : entries.map Prod.fst = (written.map Prod.fst).eraseDups
  values (key : String) : entries.lookup key = written.reverse.lookup key

/-- What a piece of text spells: a value, the items of a list with its end, or the entries of an
    object with its end. -/
inductive Phrase
  | value (json : Json)
  | items (items : List Json)
  | entries (entries : List (String × Json))

/-- The grammar of JSON texts, with the values that they spell. -/
inductive Spells : Phrase → List Char → List Char → Prop
  | null {rest : List Char} : Spells (.value .null) ('n' :: 'u' :: 'l' :: 'l' :: rest) rest
  | true {rest : List Char} : Spells (.value (.bool true)) ('t' :: 'r' :: 'u' :: 'e' :: rest) rest
  | false {rest : List Char} :
    Spells (.value (.bool false)) ('f' :: 'a' :: 'l' :: 's' :: 'e' :: rest) rest
  | number {m : Numeral} {n : Number} {text rest : List Char} (htext : NumeralText m text)
      (hvalue : m.StandsFor n) :
    Spells (.value (.number n)) (text ++ rest) rest
  | string {s : String} {cs rest : List Char} (hletters : Letters s.toList cs rest) :
    Spells (.value (.string s)) ('\"' :: cs) rest
  | emptyList {cs rest : List Char} (hclose : Blanks cs (']' :: rest)) :
    Spells (.value (.list [])) ('[' :: cs) rest
  | list {items : List Json} {cs rest : List Char} (hitems : Spells (.items items) cs rest) :
    Spells (.value (.list items)) ('[' :: cs) rest
  | emptyObject {cs rest : List Char} (hclose : Blanks cs ('\x7d' :: rest)) :
    Spells (.value (.object [])) ('\x7b' :: cs) rest
  | object {written entries : List (String × Json)} {cs rest : List Char}
      (hwritten : Spells (.entries written) cs rest) (hmerges : Merges written entries) :
    Spells (.value (.object entries)) ('\x7b' :: cs) rest
  | lastItem {item : Json} {cs text after rest : List Char} (hblanks : Blanks cs text)
      (hitem : Spells (.value item) text after) (hclose : Blanks after (']' :: rest)) :
    Spells (.items [item]) cs rest
  | item {item : Json} {items : List Json} {cs text after more rest : List Char}
      (hblanks : Blanks cs text) (hitem : Spells (.value item) text after)
      (hcomma : Blanks after (',' :: more)) (hitems : Spells (.items items) more rest) :
    Spells (.items (item :: items)) cs rest
  | lastEntry {key : String} {value : Json} {cs letters colon blanks text after rest : List Char}
      (hquote : Blanks cs ('\"' :: letters)) (hkey : Letters key.toList letters colon)
      (hcolon : Blanks colon (':' :: blanks)) (hblanks : Blanks blanks text)
      (hvalue : Spells (.value value) text after) (hclose : Blanks after ('\x7d' :: rest)) :
    Spells (.entries [(key, value)]) cs rest
  | entry {key : String} {value : Json} {entries : List (String × Json)}
      {cs letters colon blanks text after more rest : List Char}
      (hquote : Blanks cs ('\"' :: letters)) (hkey : Letters key.toList letters colon)
      (hcolon : Blanks colon (':' :: blanks)) (hblanks : Blanks blanks text)
      (hvalue : Spells (.value value) text after) (hcomma : Blanks after (',' :: more))
      (hentries : Spells (.entries entries) more rest) :
    Spells (.entries ((key, value) :: entries)) cs rest

/-- A text is a JSON text for a value: it spells the value, with blanks before and after. -/
def WellFormed (cs : List Char) (json : Json) : Prop :=
  ∃ text after, Blanks cs text ∧ Spells (.value json) text after ∧ Blanks after []

end ContractBlocks.Json
