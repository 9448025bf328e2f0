import ContractBlocks.Proofs.Compile.Chain
import ContractBlocks.Source.Table
import Mathlib.Dynamics.PeriodicPts.Defs
import Mathlib.Logic.Relation

namespace ContractBlocks

open Function Relation

/-- Where the collecting of a chain stands: the blocks that have been met, the latest first, and the
    block to look at next. -/
structure Collecting where
  met : List NodeId
  current : Option NodeId

/-- What collecting gives when it stops there. -/
def Collecting.outcome : Collecting → Except Violation (List NodeId)
  | ⟨met, none⟩ => .ok met.reverse
  | ⟨_, some node⟩ => .error (.cyclicChain node)

namespace Source

variable {S : Source} {start : Option NodeId} {node : NodeId} {nodes : List NodeId}

/-- One step along successors. There is none after the last block. -/
def after (S : Source) (current : Option NodeId) : Option NodeId :=
  current.bind S.next

/-- The complete path of successors from a start: it begins with the start, each block is followed in it
    by its successor, and the last block has none. -/
structure CompletePath (S : Source) (start : Option NodeId) (nodes : List NodeId) : Prop where
  head : nodes.head? = start
  next : ∀ place node, nodes[place]? = some node → S.next node = nodes[place + 1]?

/-- The walk along successors never comes to an end. -/
def Endless (S : Source) (start : Option NodeId) : Prop :=
  ∀ steps, S.after^[steps] start ≠ none

/-- The walk along successors comes back to the block that it starts from. -/
def OnCycle (S : Source) (node : NodeId) : Prop :=
  some node ∈ periodicPts S.after

/-- The block is the first one on a cycle that the walk along successors comes to. -/
def EntersCycleAt (S : Source) (start : Option NodeId) (node : NodeId) : Prop :=
  ∃ steps, S.after^[steps] start = some node ∧ S.OnCycle node ∧
    ∀ fewer < steps, ∀ earlier, S.after^[fewer] start = some earlier → ¬S.OnCycle earlier

/-- One turn of collecting: a block that has not been met is added, and its successor comes next. -/
inductive Turn (S : Source) : Collecting → Collecting → Prop
  | meet {met : List NodeId} {node : NodeId} (hnew : node ∉ met) :
    Turn S ⟨met, some node⟩ ⟨node :: met, S.next node⟩

section Loop

variable {state later : Collecting}

/-- A bound on the turns that are left. -/
def turnsLeft (S : Source) : Collecting → Nat
  | ⟨_, none⟩ => 0
  | ⟨met, some _⟩ => S.outside met + 1

theorem Turn.turnsLeft_lt (hturn : S.Turn state later) : S.turnsLeft later < S.turnsLeft state := by
  cases hturn with
  | @meet met node hnew =>
    cases hnext : S.next node with
    | none => simp [turnsLeft]
    | some next =>
      have hless := S.outside_cons_lt (S.mem_ids_of_next_eq hnext) hnew
      simpa [turnsLeft] using hless

/-- Collecting stops, wherever it stands. -/
theorem wellFounded_turn (S : Source) : WellFounded (swap S.Turn) :=
  Subrelation.wf (fun hturn => hturn.turnsLeft_lt) (measure S.turnsLeft).wf

/-- Following successors is to take turns for as long as there is one. -/
theorem exists_last_of_follow {steps : Nat} {met : List NodeId} {current : Option NodeId}
    (hsteps : S.turnsLeft ⟨met, current⟩ ≤ steps) :
    ∃ last, ReflTransGen S.Turn ⟨met, current⟩ last ∧ (∀ later, ¬S.Turn last later) ∧
      S.follow steps met current = last.outcome := by
  induction steps generalizing met current with
  | zero =>
    cases current with
    | none => exact ⟨_, .refl, nofun, by rw [follow]; rfl⟩
    | some node => exact absurd hsteps (Nat.not_succ_le_zero _)
  | succ steps ih =>
    cases current with
    | none => exact ⟨_, .refl, nofun, by rw [follow]; rfl⟩
    | some node =>
      rw [follow]
      by_cases hmet : node ∈ met
      · rw [if_pos hmet]
        refine ⟨_, .refl, fun later hturn => ?_, rfl⟩
        cases hturn with
        | meet hnew => exact hnew hmet
      · rw [if_neg hmet]
        have hturn : S.Turn ⟨met, some node⟩ ⟨node :: met, S.next node⟩ := .meet hmet
        have hleft : S.turnsLeft ⟨node :: met, S.next node⟩ ≤ steps :=
          Nat.le_of_lt_succ (Nat.lt_of_lt_of_le hturn.turnsLeft_lt hsteps)
        obtain ⟨last, hreach, hlast, hfollow⟩ := ih hleft
        exact ⟨last, .head hturn hreach, hlast, hfollow⟩

theorem exists_last_of_chain (S : Source) (start : Option NodeId) :
    ∃ last, ReflTransGen S.Turn ⟨[], start⟩ last ∧ (∀ later, ¬S.Turn last later) ∧
      S.chain start = last.outcome := by
  refine exists_last_of_follow ?_
  cases start with
  | none => exact Nat.zero_le _
  | some node => rw [turnsLeft, outside_nil]

/-- The blocks that have been met are the first ones of the walk along successors, none of them twice,
    and the walk goes on from them to the block that comes next. -/
structure Collected (S : Source) (start : Option NodeId) (state : Collecting) : Prop where
  nodup : state.met.Nodup
  met : ∀ place < state.met.length, state.met.reverse[place]? = S.after^[place] start
  current : state.current = S.after^[state.met.length] start

theorem Collected.turn (hstate : S.Collected start state) (hturn : S.Turn state later) :
    S.Collected start later := by
  cases hturn with
  | @meet met node hnew =>
    have hcurrent : some node = S.after^[met.length] start := hstate.current
    refine ⟨List.nodup_cons.2 ⟨hnew, hstate.nodup⟩, fun place hplace => ?_, ?_⟩
    · rw [List.reverse_cons]
      rcases Nat.lt_succ_iff_lt_or_eq.1 hplace with hold | rfl
      · rw [List.getElem?_append_left (by simpa using hold)]
        exact hstate.met place hold
      · rw [← hcurrent]
        simp
    · rw [List.length_cons, iterate_succ_apply', ← hcurrent]
      rfl

theorem collected_of_turns (hturns : ReflTransGen S.Turn ⟨[], start⟩ state) : S.Collected start state := by
  induction hturns with
  | refl => exact ⟨List.nodup_nil, nofun, rfl⟩
  | tail _ hturn ih => exact ih.turn hturn

/-- The blocks that have been met stand at different places of the walk. -/
theorem Collected.injOn (hstate : S.Collected start state) :
    Set.InjOn (fun steps => S.after^[steps] start) (Set.Iio state.met.length) := by
  intro a ha b hb heq
  have hplaces : state.met.reverse[a]? = state.met.reverse[b]? := by
    rw [hstate.met a ha, hstate.met b hb]
    exact heq
  exact List.getElem?_inj (by simpa using ha) (List.nodup_reverse.2 hstate.nodup) |>.1 hplaces

end Loop

section Walk

theorem after_iterate_none (S : Source) (steps : Nat) : S.after^[steps] none = none :=
  iterate_fixed rfl steps

/-- A walk that comes back to a block of its own never ends. -/
theorem endless_of_back {first period : Nat} (hperiod : 0 < period)
    (hback : IsPeriodicPt S.after period (S.after^[first] start)) (hsome : S.after^[first] start ≠ none) :
    S.Endless start := by
  intro steps hnone
  refine hsome ?_
  -- After as many periods as there are steps, the walk is past the point where it had ended.
  have hmore : S.after^[steps * period] (S.after^[first] start) = S.after^[first] start :=
    (hback.const_mul steps).eq
  have hle : steps ≤ steps * period + first := Nat.le_add_right_of_le (Nat.le_mul_of_pos_right steps hperiod)
  rw [← hmore, ← iterate_add_apply, ← Nat.sub_add_cancel hle, iterate_add_apply, hnone, after_iterate_none]

/-- Where a walk whose first blocks are all different comes back to one of them, it has entered a cycle
    there, and no block before it is on a cycle. -/
theorem not_onCycle_of_lt {first period fewer : Nat} (hperiod : 0 < period)
    (hback : IsPeriodicPt S.after period (S.after^[first] start))
    (hinj : Set.InjOn (fun steps => S.after^[steps] start) (Set.Iio (first + period))) (hfewer : fewer < first) :
    S.after^[fewer] start ∉ periodicPts S.after := by
  rintro ⟨turn, hturn, hcycle⟩
  -- Going round often enough from the earlier block leads behind the place where the walk came back.
  have hle : first ≤ first * turn + fewer := Nat.le_add_right_of_le (Nat.le_mul_of_pos_right first hturn)
  obtain ⟨beyond, hbeyond⟩ := Nat.exists_eq_add_of_le hle
  have hround : S.after^[fewer] start = S.after^[first + beyond % period] start := by
    calc S.after^[fewer] start = S.after^[first * turn] (S.after^[fewer] start) :=
          (hcycle.const_mul first).eq.symm
      _ = S.after^[beyond] (S.after^[first] start) := by
          rw [← iterate_add_apply, ← iterate_add_apply, hbeyond, Nat.add_comm]
      _ = S.after^[beyond % period] (S.after^[first] start) := (hback.iterate_mod_apply beyond).symm
      _ = S.after^[first + beyond % period] start := by rw [← iterate_add_apply, Nat.add_comm]
  have hmod := Nat.mod_lt beyond hperiod
  have hsame := hinj (Set.mem_Iio.2 (by omega)) (Set.mem_Iio.2 (by omega)) hround
  omega

theorem EntersCycleAt.unique {other : NodeId} (hnode : S.EntersCycleAt start node)
    (hother : S.EntersCycleAt start other) : node = other := by
  obtain ⟨steps, hsteps, hcycle, hfirst⟩ := hnode
  obtain ⟨steps', hsteps', hcycle', hfirst'⟩ := hother
  rcases Nat.lt_trichotomy steps steps' with hlt | rfl | hlt
  · exact absurd hcycle (hfirst' steps hlt node hsteps)
  · exact Option.some.inj (hsteps.symm.trans hsteps')
  · exact absurd hcycle' (hfirst steps' hlt other hsteps')

/-- Collecting that comes to a block that it has met has gone all the way round the cycle which it
    entered at that block. -/
theorem Collected.endless_and_entersCycleAt {met : List NodeId} (hstate : S.Collected start ⟨met, some node⟩)
    (hmem : node ∈ met) : S.Endless start ∧ S.EntersCycleAt start node := by
  obtain ⟨first, hfirst⟩ := List.mem_iff_getElem?.1 (List.mem_reverse.2 hmem)
  have hlt : first < met.length := by simpa using (List.getElem?_eq_some_iff.1 hfirst).1
  have hat : S.after^[first] start = some node := (hstate.met first hlt).symm.trans hfirst
  obtain ⟨period, hlength⟩ := Nat.exists_eq_add_of_lt hlt
  have hback : IsPeriodicPt S.after (period + 1) (S.after^[first] start) := by
    have hcurrent : some node = S.after^[met.length] start := hstate.current
    rw [IsPeriodicPt, IsFixedPt, ← iterate_add_apply, Nat.add_comm, ← Nat.add_assoc, ← hlength, ← hcurrent, hat]
  have hinj := hstate.injOn
  rw [hlength] at hinj
  refine ⟨endless_of_back period.succ_pos hback (by simp [hat]), first, hat, ?_, ?_⟩
  · exact mk_mem_periodicPts period.succ_pos (hat ▸ hback)
  · intro fewer hfewer earlier hearlier
    rw [OnCycle, ← hearlier]
    exact not_onCycle_of_lt period.succ_pos hback hinj hfewer

end Walk

theorem ChainFrom.completePath (hchain : S.ChainFrom start nodes) : S.CompletePath start nodes := by
  induction hchain with
  | nil => exact ⟨rfl, nofun⟩
  | @cons node rest _ ih =>
    refine ⟨rfl, fun place found hfound => ?_⟩
    cases place with
    | zero =>
      cases hfound
      rw [← ih.head, List.head?_eq_getElem?]
      rfl
    | succ place => exact ih.next place found hfound

theorem CompletePath.chainFrom (hpath : S.CompletePath start nodes) : S.ChainFrom start nodes := by
  induction nodes generalizing start with
  | nil =>
    cases hpath.head
    exact .nil
  | cons node rest ih =>
    cases hpath.head
    refine .cons (ih ⟨?_, fun place found hfound => hpath.next (place + 1) found hfound⟩)
    rw [hpath.next 0 node rfl, List.head?_eq_getElem?]
    rfl

theorem chain_eq_ok_iff_completePath (S : Source) (start : Option NodeId) (nodes : List NodeId) :
    S.chain start = .ok nodes ↔ S.CompletePath start nodes :=
  (S.chain_eq_ok_iff start nodes).trans ⟨ChainFrom.completePath, CompletePath.chainFrom⟩

/-- Collecting a chain has one of two outcomes: the walk along successors ends and the whole of it is
    given, or it never ends and the block at which it enters a cycle is named. -/
theorem chain_outcome (S : Source) (start : Option NodeId) :
    (¬S.Endless start ∧ ∃ nodes, S.chain start = .ok nodes) ∨
      ∃ node, S.Endless start ∧ S.EntersCycleAt start node ∧ S.chain start = .error (.cyclicChain node) := by
  obtain ⟨⟨met, current⟩, hreach, hlast, houtcome⟩ := S.exists_last_of_chain start
  have hcollected := collected_of_turns hreach
  cases current with
  | none => exact .inl ⟨fun hendless => hendless met.length hcollected.current.symm, _, houtcome⟩
  | some node =>
    have hmem : node ∈ met := Decidable.by_contra fun hnew => hlast _ (.meet hnew)
    obtain ⟨hendless, henters⟩ := hcollected.endless_and_entersCycleAt hmem
    exact .inr ⟨node, hendless, henters, houtcome⟩

theorem exists_chain_eq_error_iff (S : Source) (start : Option NodeId) :
    (∃ node, S.chain start = .error (.cyclicChain node)) ↔ S.Endless start := by
  rcases S.chain_outcome start with ⟨hends, nodes, hok⟩ | ⟨node, hendless, -, herror⟩
  · simp [hok, hends]
  · exact ⟨fun _ => hendless, fun _ => ⟨node, herror⟩⟩

theorem chain_eq_error_iff (S : Source) (start : Option NodeId) (node : NodeId) :
    S.chain start = .error (.cyclicChain node) ↔ S.Endless start ∧ S.EntersCycleAt start node := by
  rcases S.chain_outcome start with ⟨hends, nodes, hok⟩ | ⟨found, hendless, henters, herror⟩
  · simp [hok, hends]
  · rw [herror]
    constructor
    · rintro ⟨⟩
      exact ⟨hendless, henters⟩
    · rintro ⟨-, hnode⟩
      rw [henters.unique hnode]

theorem eq_cyclicChain_of_chain_eq_error {violation : Violation} (herror : S.chain start = .error violation) :
    ∃ node, violation = .cyclicChain node := by
  rcases S.chain_outcome start with ⟨-, nodes, hok⟩ | ⟨node, -, -, hnode⟩
  · rw [hok] at herror
    cases herror
  · rw [hnode] at herror
    cases herror
    exact ⟨node, rfl⟩

/-- A chain is collected exactly: it is the complete path of successors from the start, which has no block
    twice, or else the walk never ends and the block is named at which it enters the cycle. There is no
    other failure, and collecting stops from wherever it stands: what it gives is what stands there when
    no turn is left. -/
theorem chain_exact (S : Source) (start : Option NodeId) :
    (∀ nodes, (S.chain start = .ok nodes ↔ S.CompletePath start nodes) ∧
      (S.chain start = .ok nodes → nodes.Nodup)) ∧
    ((∃ node, S.chain start = .error (.cyclicChain node)) ↔ S.Endless start) ∧
    (∀ node, S.chain start = .error (.cyclicChain node) ↔ S.Endless start ∧ S.EntersCycleAt start node) ∧
    (∀ violation, S.chain start = .error violation → ∃ node, violation = .cyclicChain node) ∧
    WellFounded (swap S.Turn) ∧
    ∃ last, ReflTransGen S.Turn ⟨[], start⟩ last ∧ (∀ later, ¬S.Turn last later) ∧
      S.chain start = last.outcome := by
  refine ⟨fun nodes => ⟨S.chain_eq_ok_iff_completePath start nodes, fun hok => ?_⟩,
    S.exists_chain_eq_error_iff start, S.chain_eq_error_iff start,
    fun _ => eq_cyclicChain_of_chain_eq_error, S.wellFounded_turn, S.exists_last_of_chain start⟩
  exact ((S.chain_eq_ok_iff start nodes).1 hok).nodup

/-- From 8 the walk ends at 6. From 4 it goes round through 2, 7 and 5, and comes to 2 first. -/
theorem chain_exact_two_before_a_cycle :
    let block (id : NodeId) (next : Option NodeId) : TableEntry := ⟨id, .case, [], [], next⟩
    let S := BlockTable.source ⟨[], [block 1 (some 6), block 2 (some 7), block 4 (some 9), block 5 (some 2),
      block 6 none, block 7 (some 5), block 8 (some 1), block 9 (some 2)]⟩
    S.chain (some 8) = .ok [8, 1, 6] ∧ S.CompletePath (some 8) [8, 1, 6] ∧ [8, 1, 6].Nodup ∧
      S.chain (some 4) = .error (.cyclicChain 2) ∧ S.Endless (some 4) ∧ S.EntersCycleAt (some 4) 2 := by
  intro block S
  have hok : S.chain (some 8) = .ok [8, 1, 6] := by decide +kernel
  have herror : S.chain (some 4) = .error (.cyclicChain 2) := by decide +kernel
  obtain ⟨hpath, hnodup⟩ := (chain_exact S (some 8)).1 [8, 1, 6]
  obtain ⟨hendless, henters⟩ := ((chain_exact S (some 4)).2.2.1 2).1 herror
  exact ⟨hok, hpath.1 hok, hnodup hok, herror, hendless, henters⟩

end Source

end ContractBlocks
