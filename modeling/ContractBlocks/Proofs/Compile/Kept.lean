import ContractBlocks.Proofs.Compile.Renamed
import ContractBlocks.Proofs.Graph.Extended

namespace ContractBlocks

open Relation

/-- Where a place is on its block. Fields and slots have names of their own. -/
inductive Site
  | field (name : String)
  | slot (name : String)
deriving DecidableEq

def Place.site : Place → Site
  | .field f => .field f.name
  | .child slot => .slot slot.name
  | .chain slot _ => .slot slot

namespace Source

variable {S T : Source} {node : NodeId} {place : Place} {content : Content} {part : Part}

/-- Two sources have the same at a site of a block. -/
def SameAt (S T : Source) (node : NodeId) : Site → Prop
  | .field name => T.field node name = S.field node name
  | .slot name => T.slot node name = S.slot node name

/-- The elements of a chain are below its first one. -/
theorem ChainFrom.alikeFrom {h : NodeId → NodeId} {start : Option NodeId} {nodes : List NodeId} {inner : NodeId}
    (hchain : S.ChainFrom start nodes) (halike : ∀ first ∈ start, S.AlikeFrom T h first) (hmem : inner ∈ nodes) :
    S.AlikeFrom T h inner := by
  cases start with
  | none =>
    cases hchain
    cases hmem
  | some first => exact (halike first rfl).of_reaches (refersTo_of_followedBy (hchain.reaches hmem))

/-- What a place holds stays there when nothing changes at its site or below the block. The block
    itself may get another successor. -/
theorem Holds.kept (hholds : S.Holds S.Denotes node place content) (hsame : S.SameAt T node place.site)
    (hbelow : ∀ slot child, S.slot node slot = some child → S.AlikeFrom T id child) :
    T.Holds T.Denotes node place content := by
  unfold Holds at hholds
  split at hholds
  · next name text =>
    have hfield : T.field node name = S.field node name := hsame
    change T.text? node name = some text
    rw [← hholds, text?, text?, hfield]
  · next name n =>
    have hfield : T.field node name = S.field node name := hsame
    change T.integer? node name = some n
    rw [← hholds, integer?, integer?, hfield]
  · next slot part =>
    obtain ⟨hcategory, child, hslot, hpart⟩ := hholds
    have hslot' : T.slot node slot.name = S.slot node slot.name := hsame
    exact ⟨hcategory, child, hslot'.trans hslot, hpart.image (hbelow _ _ hslot)⟩
  · next slot category parts =>
    obtain ⟨hcategory, nodes, hchain, hparts⟩ := hholds
    have hslot : T.slot node slot = S.slot node slot := hsame
    have hfrom : ∀ first ∈ S.slot node slot, S.AlikeFrom T id first := fun first hfirst => hbelow slot first hfirst
    refine ⟨hcategory, nodes, ?_, ?_⟩
    · rw [hslot]
      simpa using hchain.image hfrom
    · have hreached := (List.forall₂_and_left _ _).2 ⟨fun inner hmem => hchain.alikeFrom hfrom hmem, hparts⟩
      exact hreached.imp fun inner part hboth => hboth.2.image hboth.1
  · exact hholds.elim

/-- A block goes on to denote what it denotes, whatever its successor becomes. -/
theorem Denotes.kept (hdenotes : S.Denotes node part) (hkind : T.kind node = S.kind node)
    (hsame : ∀ site, S.SameAt T node site)
    (hbelow : ∀ slot child, S.slot node slot = some child → S.AlikeFrom T id child) : T.Denotes node part := by
  obtain ⟨hown, hholds⟩ := hdenotes.holds
  exact denotes_of_holds (hkind.trans hown) (hholds.imp fun place content hcontent =>
    hcontent.kept (hsame place.site) hbelow)

end Source

namespace BlockGraph

variable {g h : BlockGraph} {node child : NodeId} {label : Label} {part : Part}

theorem agreesAt_of_eq (hblock : h.block? node = g.block? node)
    (htarget : ∀ label, h.target? node label = g.target? node label) : g.source.AgreesAt h.source node where
  kind := by simp only [source, hblock]
  field := by simp only [source, hblock]
  slot := funext fun name => (htarget (.slot name)).symm
  next := (htarget .next).symm

/-- What is added to a graph is not seen from the blocks that were there. -/
theorem Extends.alikeFrom (hextends : g.Extends h) (hsound : g.Sound) (hlive : (g.block? node).isSome) :
    g.source.AlikeFrom h.source id node := by
  intro inner hreach
  have hinner := hsound.live_of_reaches hlive hreach
  exact (agreesAt_of_eq (hextends.block hinner) (hextends.target hinner)).alike

theorem live_of_denotes (hdenotes : g.source.Denotes node part) : (g.block? node).isSome :=
  live_of_kind hdenotes.holds.1

theorem Extends.denotes (hextends : g.Extends h) (hsound : g.Sound) (hdenotes : g.source.Denotes node part) :
    h.source.Denotes node part :=
  hdenotes.image (hextends.alikeFrom hsound (live_of_denotes hdenotes))

/-- Changes at blocks at which no link ends are not seen from a block at which one ends. -/
theorem Sound.alikeFrom_of_loose (hsound : g.Sound) (changed : List NodeId) (hloose : ∀ id ∈ changed, g.Loose id)
    (hblock : ∀ id, id ∉ changed → h.block? id = g.block? id)
    (htarget : ∀ id, id ∉ changed → ∀ label, h.target? id label = g.target? id label)
    (hchild : g.target? node label = some child) : g.source.AlikeFrom h.source id child := by
  intro inner hreach
  have hinner : inner ∉ changed := by
    intro hmem
    rcases hreach.cases_tail with rfl | ⟨outer, -, hrefers⟩
    · exact hsound.ne_of_target? (hloose inner hmem) hchild rfl
    · obtain ⟨label, hlink⟩ := refersTo_iff.1 hrefers
      exact hsound.ne_of_target? (hloose inner hmem) hlink rfl
  exact (agreesAt_of_eq (hblock inner hinner) (htarget inner hinner)).alike

end BlockGraph

end ContractBlocks
