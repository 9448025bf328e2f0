import ContractBlocks.Proofs.Graph.Extended

namespace ContractBlocks

/-- Every block of a chain but the first is the successor of another. -/
theorem Source.ChainFrom.exists_next_of_mem_tail {S : Source} {start : Option NodeId} {nodes : List NodeId}
    {node : NodeId} (hchain : S.ChainFrom start nodes) (hnode : node ∈ nodes.tail) :
    ∃ before, S.next before = some node := by
  induction hchain with
  | nil => cases hnode
  | @cons first rest hrest ih =>
    cases rest with
    | nil => cases hnode
    | cons second others =>
      rcases List.mem_cons.1 hnode with rfl | hlater
      · generalize hnext : S.next first = next at hrest
        cases hrest
        exact ⟨first, hnext⟩
      · exact ih hlater

namespace BlockGraph

variable {g : BlockGraph}

/-- Blocks that are linked into a chain are collected in the same order. They may be linked otherwise before,
    to each other or to others: all but the last lose the successor they had, and nothing else is lost. -/
theorem Reached.chain_then_collect (hreached : g.Reached) {nodes : List NodeId} (hnodup : nodes.Nodup)
    (hlive : ∀ node ∈ nodes, (g.block? node).isSome)
    (hlink : ∀ node ∈ nodes.dropLast, ∃ block, g.block? node = some block ∧ block.kind.isLink)
    (hlast : ∀ node ∈ nodes.getLast?, g.next? node = none) :
    ∃ h, g.chain nodes = (h, none) ∧ h.source.chain nodes.head? = .ok nodes ∧
      (∀ node ∈ nodes.tail, node ∉ h.topLevel) ∧ (∀ id slot, h.child? id slot = g.child? id slot) ∧
      ∀ id ∉ nodes, h.next? id = g.next? id := by
  obtain ⟨h, hchain, hchained⟩ := hreached.sound.exists_chained hnodup hlive hlink hlast
  refine ⟨h, hchain, (h.source.chain_eq_ok_iff _ _).2 hchained.chain, fun node hnode => ?_, fun id slot => ?_,
    fun id hid => ?_⟩
  · obtain ⟨before, hbefore⟩ := hchained.chain.exists_next_of_mem_tail hnode
    exact hchained.sound.notMem_topLevel hbefore
  · exact hchained.target (by simp)
  · exact hchained.target fun _ => hid

/-- Blocks of a longer chain are linked the other way round, with a loose one at the end. -/
theorem Reached.chain_then_collect_other_way_round :
    let g := (BlockGraph.empty.run [.add .case none, .add .case none, .add .case none, .add .case none,
      .add .case none, .add (.contract .when) none, .chain [3, 2, 0, 4], .connect 5 "CASES" 3]).2
    g.Reached ∧ g.source.chain (some 3) = .ok [3, 2, 0, 4] ∧
      ∃ h, g.chain [0, 2, 3, 1] = (h, none) ∧ h.source.chain (some 0) = .ok [0, 2, 3, 1] ∧
        (∀ node ∈ [2, 3, 1], node ∉ h.topLevel) ∧ (∀ id slot, h.child? id slot = g.child? id slot) ∧
        ∀ id ∉ [0, 2, 3, 1], h.next? id = g.next? id := by
  intro g
  have hreached : g.Reached := Reached.empty.run _
  refine ⟨hreached, by decide +kernel, Reached.chain_then_collect hreached (by decide) ?_ ?_ ?_⟩
  · decide +kernel
  · have hcases : ∀ node ∈ [0, 2, 3], g.block? node = some ⟨.case, none, []⟩ := by decide +kernel
    exact fun node hnode => ⟨_, hcases node hnode, by decide⟩
  · rintro node ⟨⟩
    decide +kernel

end BlockGraph

end ContractBlocks
