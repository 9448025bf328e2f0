import ContractBlocks.Proofs.Compile.Violations

namespace ContractBlocks.Source

/-- The root that is compiled: a top-level one, with the least id among these. -/
structure IsLeastRoot (S : Source) (root : NodeId) : Prop where
  topLevel : root ∈ S.topLevel
  kind : S.kind root = some .root
  least : ∀ other ∈ S.topLevel, S.kind other = some .root → root ≤ other

theorem leastRoot?_eq_some_iff (S : Source) (root : NodeId) :
    S.leastRoot? = some root ↔ S.IsLeastRoot root := by
  rw [leastRoot?, List.min?_eq_some_iff]
  simp only [List.mem_filter, decide_eq_true_eq]
  exact ⟨fun ⟨⟨htop, hkind⟩, hleast⟩ => ⟨htop, hkind, fun other hother hroot => hleast other ⟨hother, hroot⟩⟩,
    fun h => ⟨⟨h.topLevel, h.kind⟩, fun other hother => h.least other hother.1 hother.2⟩⟩

/-- Sorting the roots puts the least one first. -/
theorem head?_roots (S : Source) : S.roots.head? = S.leastRoot? := by
  cases hroots : S.roots with
  | nil =>
    have hlength := congrArg List.length hroots
    rw [roots, List.length_mergeSort, List.length_nil, List.length_eq_zero_iff] at hlength
    rw [leastRoot?, hlength]
    rfl
  | cons root others =>
    have hsorted : S.roots.Pairwise fun a b => decide (a ≤ b) = true := by
      refine List.pairwise_mergeSort ?_ ?_ _
      · intro a b c
        simpa using Nat.le_trans
      · intro a b
        simpa using Nat.le_total a b
    rw [hroots] at hsorted
    have hleast := (List.pairwise_cons.1 hsorted).1
    have hmem : ∀ node, node ∈ root :: others ↔
        node ∈ S.topLevel.filter fun node => S.kind node = some .root := by
      intro node
      rw [← hroots, roots, List.mem_mergeSort]
    symm
    rw [leastRoot?, List.head?_cons, List.min?_eq_some_iff]
    refine ⟨(hmem root).1 (by simp), fun node hnode => ?_⟩
    rcases List.mem_cons.1 ((hmem node).2 hnode) with rfl | hother
    · exact Nat.le_refl _
    · simpa using hleast node hother

/-- Compiling looks at the least root only. -/
theorem compile_eq (S : Source) :
    S.compile =
      match S.leastRoot? with
      | some root => S.compileBelow root
      | none => .error .missingRoot := by
  rw [compile, ← head?_roots]
  cases S.roots <;> rfl

end ContractBlocks.Source
