import ContractBlocks.Json.Print
import ContractBlocks.Proofs.Json.Named
import ContractBlocks.Proofs.Json.Settled

namespace ContractBlocks.Json

theorem digitChar_of_lt {d : Nat} (h : d < 10) :
    (Decimal.digitChar d).isDigit ∧ Decimal.digitValue (Decimal.digitChar d) = d := by
  revert d
  decide

/-- The spelling of a natural number is its digits, with no zero before them. -/
theorem exists_spellOnto_eq (n : Nat) (rest : List Char) :
    ∃ ds, Decimal.spellOnto n rest = ds ++ rest ∧ IsWhole ds ∧ digitsValue ds = n := by
  fun_induction Decimal.spellOnto n rest with
  | case1 n rest hn =>
    obtain ⟨hdigit, hvalue⟩ := digitChar_of_lt hn
    refine ⟨[Decimal.digitChar n], rfl, ⟨⟨List.cons_ne_nil _ _, by simpa using hdigit⟩, fun hzero => ?_⟩, ?_⟩
    · rw [Option.some.inj hzero]
    · simpa [digitsValue, Decimal.digitValue] using hvalue
  | case2 n rest hn ih =>
    obtain ⟨hdigit, hvalue⟩ := digitChar_of_lt (Nat.mod_lt n (by decide : 10 > 0))
    obtain ⟨ds, hspell, hwhole, hds⟩ := ih
    refine ⟨ds ++ [Decimal.digitChar (n % 10)], ?_, ⟨⟨?_, ?_⟩, fun hzero => ?_⟩, ?_⟩
    · rw [hspell, List.append_assoc, List.singleton_append]
    · exact List.append_ne_nil_of_right_ne_nil _ (List.cons_ne_nil _ _)
    · intro d hd
      rcases List.mem_append.1 hd with hd | hd
      · exact hwhole.1.2 d hd
      · rwa [List.mem_singleton.1 hd]
    · -- The digits before the last spell `n / 10`, which is not zero.
      obtain ⟨d, tail, rfl, -⟩ := hwhole.1.exists_cons
      rw [hwhole.2 hzero] at hds
      have hten : 0 = n / 10 := hds
      omega
    · rw [digitsValue_concat, hds, hvalue]
      omega

theorem standsFor_of_plain {negative : Bool} {z : Int} (fits : FitsWord z)
    (hsign : (if negative then -(z.natAbs : Int) else z.natAbs) = z) (hzero : negative → z ≠ 0) :
    Numeral.StandsFor ⟨⟨negative, z.natAbs, 0⟩, true⟩ (.whole z fits) := by
  have hdigits : Decimal.signedDigits ⟨negative, z.natAbs, 0⟩ = z := hsign
  refine .whole rfl ?_ hzero fits
  rw [Decimal.value_eq_signedDigits rfl, hdigits]

/-- The text of an integer of one word is a numeral that stands for it. -/
theorem exists_numeralText_whole {z : Int} (fits : FitsWord z) :
    ∃ m, NumeralText m (Decimal.spellInt z) ∧ m.StandsFor (.whole z fits) := by
  obtain ⟨ds, hspell, hwhole, hds⟩ := exists_spellOnto_eq z.natAbs []
  rw [List.append_nil] at hspell
  have htext (negative : Bool) : UnsignedText negative ⟨⟨negative, z.natAbs, 0⟩, true⟩ ds := by
    have h : UnsignedText negative _ _ := .mk hwhole .absent .absent
    simpa [hds] using h
  rw [Decimal.spellInt, Decimal.spell, hspell]
  split
  · next hneg =>
    refine ⟨_, .negative (htext true), standsFor_of_plain fits ?_ fun _ => hneg.ne⟩
    rw [if_pos rfl]
    omega
  · next hpos =>
    refine ⟨_, .positive (htext false), standsFor_of_plain fits ?_ fun hneg => absurd hneg Bool.false_ne_true⟩
    rw [if_neg Bool.false_ne_true]
    omega

theorem spells_whole {z : Int} (fits : FitsWord z) (rest : List Char) :
    Spells (.value (.number (.whole z fits))) (Decimal.spellInt z ++ rest) rest := by
  obtain ⟨m, htext, hvalue⟩ := exists_numeralText_whole fits
  exact .number htext hvalue

theorem unitText_hexDigit {n : Nat} (h : n < 0x20) :
    UnitText n '0' '0' (hexDigit (n / 16)) (hexDigit (n % 16)) := by
  rw [← Literal.codeUnit?_eq_some_iff]
  revert n
  decide

theorem letters_escape {s cs rest : List Char} (c : Char) (h : Letters s cs rest) :
    Letters (c :: s) (escape c ++ cs) rest := by
  unfold escape
  split
  · exact .escape (by constructor) h
  · exact .escape (by constructor) h
  · exact .escape (by constructor) h
  · exact .escape (by constructor) h
  · exact .escape (by constructor) h
  · next hquote hbackslash hline hreturn htab =>
    split
    · next hback =>
      have hc : c = Char.ofNat 0x08 := by rw [← hback, Char.ofNat_toNat]
      rw [hc]
      exact .escape (by constructor) h
    · split
      · next hfeed =>
        have hc : c = Char.ofNat 0x0c := by rw [← hfeed, Char.ofNat_toNat]
        rw [hc]
        exact .escape (by constructor) h
      · split
        · next hcontrol =>
          have hletters := Letters.unit (unitText_hexDigit hcontrol) (.inl (hcontrol.trans (by decide))) h
          rwa [Char.ofNat_toNat] at hletters
        · next hcontrol => exact .plain hquote hbackslash (Nat.not_lt.1 hcontrol) h

theorem letters_quoteOnto (s : String) (rest : List Char) :
    ∃ letters, quoteOnto s rest = '\"' :: letters ∧ Letters s.toList letters rest := by
  refine ⟨_, rfl, ?_⟩
  induction s.toList with
  | nil => exact .close
  | cons c cs ih =>
    rw [List.flatMap_cons, List.append_assoc]
    exact letters_escape c ih

/-- A value whose numbers are all integers and whose objects have no key twice. -/
inductive Plain : Json → Prop
  | null : Plain .null
  | bool (b : Bool) : Plain (.bool b)
  | whole (z : Int) (fits : FitsWord z) : Plain (.number (.whole z fits))
  | string (s : String) : Plain (.string s)
  | list {items : List Json} (hitems : ∀ item ∈ items, Plain item) : Plain (.list items)
  | object {entries : List (String × Json)} (hkeys : (entries.map Prod.fst).Nodup)
      (hentries : ∀ entry ∈ entries, Plain entry.2) : Plain (.object entries)

theorem putAll_of_nodup {before entries : List (String × Json)}
    (h : ((before ++ entries).map Prod.fst).Nodup) : putAll before entries = before ++ entries := by
  induction entries generalizing before with
  | nil => exact (List.append_nil _).symm
  | cons entry entries ih =>
    have hnot : entry.1 ∉ before.map Prod.fst := by
      intro hmem
      rw [List.map_append, List.nodup_append] at h
      exact h.2.2 _ hmem _ List.mem_cons_self rfl
    rw [List.append_cons] at h ⊢
    rw [← ih h, ← putNamed_of_notMem hnot]
    rfl

theorem merges_of_nodup {entries : List (String × Json)} (h : (entries.map Prod.fst).Nodup) :
    Merges entries entries := by
  have hkept : putAll [] entries = entries := putAll_of_nodup h
  have hmerges := merges_putAll entries
  rwa [hkept] at hmerges

/-- What stands between the parts of a document is blank, apart from the colon after a key. -/
structure Layout.IsBlank (layout : Layout) : Prop where
  lineBreak (depth : Nat) : ∀ c ∈ layout.lineBreak depth, IsSpace c
  afterKey : ∃ spaces, layout.afterKey = ':' :: spaces ∧ ∀ c ∈ spaces, IsSpace c

theorem Layout.isBlank_compact : Layout.compact.IsBlank :=
  ⟨nofun, [], rfl, nofun⟩

theorem Layout.isBlank_pretty : Layout.pretty.IsBlank := by
  refine ⟨fun depth c hc => ?_, [' '], rfl, fun c hc => ?_⟩
  · rcases List.mem_cons.1 hc with hline | hc
    · exact .inr (.inl hline)
    · exact .inl (List.eq_of_mem_replicate hc)
  · exact .inl (List.mem_singleton.1 hc)

theorem blanks_append {spaces : List Char} (h : ∀ c ∈ spaces, IsSpace c) (rest : List Char) :
    Blanks (spaces ++ rest) rest := by
  induction spaces with
  | nil => exact .nil
  | cons c spaces ih =>
    exact .cons (h c List.mem_cons_self) (ih fun d hd => h d (List.mem_cons_of_mem c hd))

section

variable {layout : Layout} (hlayout : layout.IsBlank)

include hlayout

theorem itemsTail_writeItemsOnto {items : List Json}
    (hitems : ∀ item ∈ items, ∀ depth rest, Spells (.value item) (writeOnto layout depth item rest) rest)
    (depth : Nat) (rest : List Char) :
    Outline.ItemsTail items (writeItemsOnto layout depth items rest) rest := by
  induction items with
  | nil =>
    rw [writeItemsOnto]
    exact .close (blanks_append (hlayout.lineBreak depth) _)
  | cons item items ih =>
    rw [writeItemsOnto]
    have htail := ih fun other hother => hitems other (List.mem_cons_of_mem item hother)
    exact .comma .nil (htail.spells (blanks_append (hlayout.lineBreak _) _)
      (hitems item List.mem_cons_self _ _))

theorem spells_entry {key : String} {value : Json} {entries : List (String × Json)} {depth : Nat}
    {after rest : List Char}
    (hvalue : Spells (.value value) (writeOnto layout (depth + 1) value after) after)
    (htail : Outline.EntriesTail entries after rest) :
    Spells (.entries ((key, value) :: entries))
      (layout.lineBreak (depth + 1) ++
        quoteOnto key (layout.afterKey ++ writeOnto layout (depth + 1) value after)) rest := by
  obtain ⟨spaces, hcolon, hspaces⟩ := hlayout.afterKey
  rw [hcolon]
  obtain ⟨letters, hquote, hletters⟩ :=
    letters_quoteOnto key (':' :: spaces ++ writeOnto layout (depth + 1) value after)
  rw [hquote]
  exact htail.spells (blanks_append (hlayout.lineBreak _) _) hletters .nil (blanks_append hspaces _) hvalue

theorem entriesTail_writeEntriesOnto {entries : List (String × Json)}
    (hentries : ∀ entry ∈ entries, ∀ depth rest,
      Spells (.value entry.2) (writeOnto layout depth entry.2 rest) rest)
    (depth : Nat) (rest : List Char) :
    Outline.EntriesTail entries (writeEntriesOnto layout depth entries rest) rest := by
  induction entries with
  | nil =>
    rw [writeEntriesOnto]
    exact .close (blanks_append (hlayout.lineBreak depth) _)
  | cons entry entries ih =>
    rw [writeEntriesOnto]
    have htail := ih fun other hother => hentries other (List.mem_cons_of_mem entry hother)
    exact .comma .nil (spells_entry hlayout (hentries entry List.mem_cons_self _ _) htail)

/-- A plain value is spelled by its text in a blank layout. -/
theorem Plain.spells_writeOnto {json : Json} (h : json.Plain) (depth : Nat) (rest : List Char) :
    Spells (.value json) (writeOnto layout depth json rest) rest := by
  induction h generalizing depth rest with
  | null => exact .null
  | bool b =>
    cases b with
    | true => exact .true
    | false => exact .false
  | whole z fits => exact spells_whole fits rest
  | string s =>
    obtain ⟨letters, hquote, hletters⟩ := letters_quoteOnto s rest
    rw [writeOnto, hquote]
    exact .string hletters
  | @list items _ ih =>
    cases items with
    | nil =>
      rw [writeOnto]
      exact .emptyList .nil
    | cons item items =>
      rw [writeOnto]
      have htail := itemsTail_writeItemsOnto hlayout
        (fun other hother => ih other (List.mem_cons_of_mem item hother)) depth rest
      exact .list (htail.spells (blanks_append (hlayout.lineBreak _) _) (ih item List.mem_cons_self _ _))
  | @object entries hkeys _ ih =>
    cases entries with
    | nil =>
      rw [writeOnto]
      exact .emptyObject .nil
    | cons entry entries =>
      rw [writeOnto]
      have htail := entriesTail_writeEntriesOnto hlayout
        (fun other hother => ih other (List.mem_cons_of_mem entry hother)) depth rest
      exact .object (spells_entry hlayout (ih entry List.mem_cons_self _ _) htail) (merges_of_nodup hkeys)

theorem Plain.wellFormed_writeOnto {json : Json} (h : json.Plain) :
    WellFormed (writeOnto layout 0 json []) json :=
  ⟨_, [], .nil, h.spells_writeOnto hlayout 0 [], .nil⟩

end

theorem quoteOnto_append (s : String) (rest more : List Char) :
    quoteOnto s (rest ++ more) = quoteOnto s rest ++ more := by
  simp [quoteOnto]

mutual

theorem writeOnto_append (layout : Layout) (rest more : List Char) : ∀ (depth : Nat) (json : Json),
    writeOnto layout depth json (rest ++ more) = writeOnto layout depth json rest ++ more
  | _, .null => rfl
  | _, .bool true => rfl
  | _, .bool false => rfl
  | _, .number n => by rw [writeOnto, writeOnto, List.append_assoc]
  | _, .string s => quoteOnto_append s rest more
  | _, .list [] => by simp [writeOnto]
  | depth, .list (item :: items) => by
    simp only [writeOnto, writeItemsOnto_append layout rest more depth items, List.cons_append,
      List.append_assoc, writeOnto_append layout _ more (depth + 1) item]
  | _, .object [] => by simp [writeOnto]
  | depth, .object ((key, value) :: entries) => by
    simp only [writeOnto, writeEntriesOnto_append layout rest more depth entries, List.cons_append,
      List.append_assoc, writeOnto_append layout _ more (depth + 1) value, ← quoteOnto_append]

theorem writeItemsOnto_append (layout : Layout) (rest more : List Char) : ∀ (depth : Nat) (items : List Json),
    writeItemsOnto layout depth items (rest ++ more) = writeItemsOnto layout depth items rest ++ more
  | _, [] => by simp [writeItemsOnto]
  | depth, item :: items => by
    simp only [writeItemsOnto, writeItemsOnto_append layout rest more depth items, List.cons_append,
      List.append_assoc, writeOnto_append layout _ more (depth + 1) item]

theorem writeEntriesOnto_append (layout : Layout) (rest more : List Char) :
    ∀ (depth : Nat) (entries : List (String × Json)),
      writeEntriesOnto layout depth entries (rest ++ more) = writeEntriesOnto layout depth entries rest ++ more
  | _, [] => by simp [writeEntriesOnto]
  | depth, (key, value) :: entries => by
    simp only [writeEntriesOnto, writeEntriesOnto_append layout rest more depth entries, List.cons_append,
      List.append_assoc, writeOnto_append layout _ more (depth + 1) value, ← quoteOnto_append]

end

/-- A line break may follow the text of a plain value. -/
theorem Plain.wellFormed_pretty_line {json : Json} (h : json.Plain) :
    WellFormed (json.pretty ++ "\n").toList json := by
  have htext : (json.pretty ++ "\n").toList = writeOnto .pretty 0 json ['\n'] := by
    rw [pretty, String.toList_append, String.toList_ofList, ← writeOnto_append]
    rfl
  rw [htext]
  exact ⟨_, _, .nil, h.spells_writeOnto Layout.isBlank_pretty 0 _, .cons (.inr (.inl rfl)) .nil⟩

end ContractBlocks.Json
