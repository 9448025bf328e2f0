import ContractBlocks.Compile.Chain

namespace ContractBlocks.Source

/-- The number of ids that are not among the given ones. It bounds every walk that meets no block
    twice. -/
def outside (S : Source) (met : List NodeId) : Nat :=
  (S.ids.filter fun id => id ∉ met).length

@[simp] theorem outside_nil (S : Source) : S.outside [] = S.ids.length := by
  simp [outside]

theorem outside_cons_lt (S : Source) {met : List NodeId} {node : NodeId} (hid : node ∈ S.ids)
    (hnew : node ∉ met) : S.outside (node :: met) < S.outside met := by
  have hsub : S.ids.filter (fun id => id ∉ node :: met) =
      (S.ids.filter fun id => id ∉ met).filter fun id => id ≠ node := by
    rw [List.filter_filter]
    refine List.filter_congr fun id _ => ?_
    simp [not_or]
  unfold outside
  rw [hsub]
  refine List.length_filter_lt_length_iff_exists.2 ⟨node, ?_, by simp⟩
  simp [hid, hnew]

theorem mem_ids_of_kind_eq (S : Source) {node : NodeId} {kind : Kind} (hkind : S.kind node = some kind) :
    node ∈ S.ids :=
  S.mem_ids_of_kind node (by simp [hkind])

theorem mem_ids_of_next_eq (S : Source) {node next : NodeId} (hnext : S.next node = some next) :
    node ∈ S.ids :=
  S.mem_ids_of_next node (by simp [hnext])

/-- The finite path of successors from a start: each element is the successor of the one before it,
    and the last has none. -/
inductive ChainFrom (S : Source) : Option NodeId → List NodeId → Prop
  | nil : ChainFrom S none []
  | cons {node : NodeId} {rest : List NodeId} (hrest : ChainFrom S (S.next node) rest) :
    ChainFrom S (some node) (node :: rest)

/-- The successors from a block on, until one has none or has been met before. The latter is named. -/
def successors (S : Source) (met : List NodeId) (node : NodeId) : Except NodeId (List NodeId) :=
  if hmet : node ∈ met then .error node
  else
    match hnext : S.next node with
    | none => .ok [node]
    | some next =>
      have := S.outside_cons_lt (S.mem_ids_of_next_eq hnext) hmet
      (node :: ·) <$> S.successors (node :: met) next
termination_by S.outside met

theorem successors_of_mem (S : Source) {met : List NodeId} {node : NodeId} (hmet : node ∈ met) :
    S.successors met node = .error node := by
  rw [successors, dif_pos hmet]

theorem successors_of_last (S : Source) {met : List NodeId} {node : NodeId} (hnew : node ∉ met)
    (hnext : S.next node = none) : S.successors met node = .ok [node] := by
  rw [successors, dif_neg hnew]
  split
  · rfl
  · next hsome => rw [hnext] at hsome; cases hsome

theorem successors_of_next (S : Source) {met : List NodeId} {node next : NodeId} (hnew : node ∉ met)
    (hnext : S.next node = some next) :
    S.successors met node = (node :: ·) <$> S.successors (node :: met) next := by
  rw [successors, dif_neg hnew]
  split
  · next hnone => rw [hnext] at hnone; cases hnone
  · next hsome => rw [hnext] at hsome; cases hsome; rfl

/-- The steps given to a walk never decide it: while more steps are left than unmet ids, it stops
    for lack of a successor or at a block that it has met. -/
theorem follow_eq_successors (S : Source) {steps : Nat} {met : List NodeId} {node : NodeId}
    (hsteps : S.outside met < steps) :
    S.follow steps met (some node) =
      match S.successors met node with
      | .ok rest => .ok (met.reverse ++ rest)
      | .error again => .error (.cyclicChain again) := by
  induction steps generalizing met node with
  | zero => omega
  | succ steps ih =>
    rw [follow]
    by_cases hmet : node ∈ met
    · rw [if_pos hmet, S.successors_of_mem hmet]
    · rw [if_neg hmet]
      cases hnext : S.next node with
      | none => rw [S.successors_of_last hmet hnext]; simp [follow]
      | some next =>
        -- The block is new, so one id fewer is unmet and the steps that are left suffice for the rest.
        have hless := S.outside_cons_lt (S.mem_ids_of_next_eq hnext) hmet
        rw [S.successors_of_next hmet hnext, ih (by omega)]
        cases S.successors (node :: met) next with
        | error again => rfl
        | ok rest => simp [Functor.map, Except.map]

theorem chain_none (S : Source) : S.chain none = .ok [] := by
  simp [chain, follow]

theorem chain_some (S : Source) (node : NodeId) :
    S.chain (some node) =
      match S.successors [] node with
      | .ok nodes => .ok nodes
      | .error again => .error (.cyclicChain again) := by
  rw [chain, S.follow_eq_successors (by simp)]
  cases S.successors [] node <;> rfl

namespace ChainFrom

variable {S : Source}

theorem unique {start : Option NodeId} {nodes others : List NodeId}
    (hnodes : S.ChainFrom start nodes) (hothers : S.ChainFrom start others) : nodes = others := by
  induction hnodes generalizing others with
  | nil => cases hothers; rfl
  | cons hrest ih =>
    cases hothers with
    | cons hother => rw [ih hother]

/-- A chain goes on from each of its elements to the same end. -/
theorem suffix_of_mem {start : Option NodeId} {nodes : List NodeId} {node : NodeId}
    (hnodes : S.ChainFrom start nodes) (hmem : node ∈ nodes) :
    ∃ before rest, nodes = before ++ node :: rest ∧ S.ChainFrom (S.next node) rest := by
  induction hnodes with
  | nil => cases hmem
  | @cons first rest hrest ih =>
    by_cases hfirst : node = first
    · subst hfirst
      exact ⟨[], rest, rfl, hrest⟩
    · obtain ⟨before, after, rfl, hafter⟩ := ih (by simpa [hfirst] using hmem)
      exact ⟨first :: before, after, rfl, hafter⟩

/-- No element comes back in a finite chain, since it would go on for ever from there. -/
theorem nodup {start : Option NodeId} {nodes : List NodeId} (hnodes : S.ChainFrom start nodes) :
    nodes.Nodup := by
  induction hnodes with
  | nil => exact List.nodup_nil
  | @cons node rest hrest ih =>
    refine List.nodup_cons.2 ⟨fun hmem => ?_, ih⟩
    obtain ⟨before, after, hsplit, hafter⟩ := hrest.suffix_of_mem hmem
    have hlength := congrArg List.length ((hrest.unique hafter).symm.trans hsplit)
    simp at hlength
    omega

theorem successors_eq {nodes : List NodeId} {node : NodeId}
    (hnodes : S.ChainFrom (some node) nodes) (met : List NodeId) (hnew : ∀ id ∈ nodes, id ∉ met) :
    S.successors met node = .ok nodes := by
  induction nodes generalizing met node with
  | nil => cases hnodes
  | cons first rest ih =>
    have hnodup := hnodes.nodup
    cases hnodes with
    | cons hrest =>
      have hfirst : first ∉ met := hnew first (by simp)
      cases hnext : S.next first with
      | none =>
        rw [hnext] at hrest
        cases hrest
        exact S.successors_of_last hfirst hnext
      | some next =>
        rw [hnext] at hrest
        rw [S.successors_of_next hfirst hnext, ih hrest (first :: met)]
        · rfl
        · intro id hid
          have hne : id ≠ first := fun heq => (List.nodup_cons.1 hnodup).1 (heq ▸ hid)
          simpa [hne] using hnew id (by simp [hid])

end ChainFrom

theorem chainFrom_of_successors (S : Source) {met nodes : List NodeId} {node : NodeId}
    (hnodes : S.successors met node = .ok nodes) : S.ChainFrom (some node) nodes := by
  fun_induction successors S met node generalizing nodes with
  | case1 met node hmet => cases hnodes
  | case2 met node hmet hnext =>
    cases hnodes
    exact .cons (hnext ▸ .nil)
  | case3 met node hmet next hnext hless ih =>
    cases hrest : S.successors (node :: met) next with
    | error again => rw [hrest] at hnodes; cases hnodes
    | ok rest =>
      rw [hrest] at hnodes
      cases hnodes
      exact .cons (hnext ▸ ih hrest)

/-- The walk along successors gives exactly the finite chains. -/
theorem chain_eq_ok_iff (S : Source) (start : Option NodeId) (nodes : List NodeId) :
    S.chain start = .ok nodes ↔ S.ChainFrom start nodes := by
  cases start with
  | none =>
    rw [chain_none]
    refine ⟨fun h => ?_, fun h => ?_⟩
    · cases h; exact .nil
    · cases h; rfl
  | some node =>
    rw [chain_some]
    constructor
    · intro h
      split at h
      · next hnodes => cases h; exact S.chainFrom_of_successors hnodes
      · cases h
    · intro h
      rw [h.successors_eq [] (by simp)]

end ContractBlocks.Source
