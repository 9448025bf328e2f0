import ContractBlocks.Proofs.Graph.Edits

namespace ContractBlocks

/-- A change of a graph in place. What has been done before a fault stays done. -/
def InPlace (α : Type) : Type :=
  BlockGraph → Except GraphFault α × BlockGraph

namespace InPlace

instance : Monad InPlace where
  pure a := fun g => (.ok a, g)
  bind x f := fun g =>
    match x g with
    | (.ok a, h) => f a h
    | (.error fault, h) => (.error fault, h)

/-- Stops with a fault. -/
def fail {α : Type} (fault : GraphFault) : InPlace α :=
  fun g => (.error fault, g)

/-- The block with that id, which must be there. -/
def require (id : NodeId) : InPlace Block :=
  fun g => (g.require id, g)

/-- Changes the graph. -/
def update (change : BlockGraph → BlockGraph) : InPlace Unit :=
  fun g => (.ok (), change g)

/-- Removes the links of a block one by one, and then the block. -/
def remove (id : NodeId) : InPlace Reply := do
  let block ← require id
  update fun g => (g.linksOf id).foldl BlockGraph.eraseLink g
  update fun g => { g with blocks := g.blocks.set id none, freeIds := id :: g.freeIds }
  return .removed block

def setField (id : NodeId) (name : String) (value : FieldValue) : InPlace Reply := do
  let block ← require id
  if (block.kind.field? name).isNone then fail (.unknownField block.kind name)
  else
    update fun g => { g with blocks := g.blocks.set id (some (block.setField name value)) }
    return .done

/-- Empties the slot first, and then makes the new link. -/
def connect (parent : NodeId) (slot : String) (child : NodeId) : InPlace Reply := do
  let block ← require parent
  let _ ← require child
  if (block.kind.slot? slot).isNone then fail (.unknownSlot block.kind slot)
  else
    update fun g => (g.disconnect parent slot).2
    update fun g => g.addLink parent (.slot slot) child
    return .done

/-- Takes away the old successor first, and then makes the new link. -/
def setNext (id next : NodeId) : InPlace Reply := do
  let block ← require id
  let _ ← require next
  if block.kind.isLink then
    update fun g => (g.clearNext id).2
    update fun g => g.addLink id .next next
    return .done
  else fail (.notChainable block.kind)

def chain : List NodeId → InPlace Reply
  | a :: b :: rest => do
    let _ ← setNext a b
    chain (b :: rest)
  | _ => return .done

/-- Performs an edit in place, one change after the other. -/
def perform : Edit → InPlace Reply
  | .add kind editorId => fun g => (.ok (.added (g.add kind editorId).1), (g.add kind editorId).2)
  | .remove id => remove id
  | .setField id name value => setField id name value
  | .connect parent slot child => connect parent slot child
  | .disconnect parent slot => fun g => (.ok (.emptied (g.disconnect parent slot).1), (g.disconnect parent slot).2)
  | .setNext id next => setNext id next
  | .clearNext id => fun g => (.ok (.emptied (g.clearNext id).1), (g.clearNext id).2)
  | .chain nodes => chain nodes

section Careful

variable {α β : Type}

/-- The change never happens: the graph is only looked at. -/
def Looks (x : InPlace α) : Prop :=
  ∀ g, (x g).2 = g

/-- The change is always made. -/
def Succeeds (x : InPlace α) : Prop :=
  ∀ g, ∃ a, (x g).1 = .ok a

/-- Where the change fails, it has changed nothing. -/
def Careful (x : InPlace α) : Prop :=
  ∀ g fault, (x g).1 = .error fault → (x g).2 = g

theorem Succeeds.careful {x : InPlace α} (hx : Succeeds x) : Careful x := by
  intro g fault herror
  obtain ⟨a, ha⟩ := hx g
  rw [ha] at herror
  cases herror

/-- To look before a careful change is careful. A change before another need not be. -/
theorem Looks.bind {x : InPlace α} {f : α → InPlace β} (hx : Looks x) (hf : ∀ a, Careful (f a)) :
    Careful (x >>= f) := by
  intro g fault
  have hbind : (x >>= f) g =
      match x g with
      | (.ok a, h) => f a h
      | (.error fault, h) => (.error fault, h) := rfl
  have hsame := hx g
  rw [hbind]
  cases hxg : x g with
  | mk outcome h =>
    rw [hxg] at hsame
    subst hsame
    cases outcome with
    | ok a => exact hf a h fault
    | error other => exact fun _ => rfl

theorem require_looks (id : NodeId) : Looks (require id) :=
  fun _ => rfl

theorem fail_careful (fault : GraphFault) : Careful (fail fault : InPlace α) :=
  fun _ _ _ => rfl

theorem remove_careful (id : NodeId) : Careful (remove id) :=
  (require_looks id).bind fun _ => Succeeds.careful fun _ => ⟨_, rfl⟩

theorem setField_careful (id : NodeId) (name : String) (value : FieldValue) : Careful (setField id name value) := by
  refine (require_looks id).bind fun block => ?_
  split
  · exact fail_careful _
  · exact Succeeds.careful fun _ => ⟨_, rfl⟩

theorem connect_careful (parent : NodeId) (slot : String) (child : NodeId) : Careful (connect parent slot child) := by
  refine (require_looks parent).bind fun block => (require_looks child).bind fun _ => ?_
  split
  · exact fail_careful _
  · exact Succeeds.careful fun _ => ⟨_, rfl⟩

theorem setNext_careful (id next : NodeId) : Careful (setNext id next) := by
  refine (require_looks id).bind fun block => (require_looks next).bind fun _ => ?_
  split
  · exact Succeeds.careful fun _ => ⟨_, rfl⟩
  · exact fail_careful _

/-- All edits look before they change anything, but for those that link several blocks. -/
theorem perform_careful {e : Edit} (hchain : ∀ nodes, e ≠ .chain nodes) : Careful (perform e) := by
  cases e with
  | add kind editorId => exact Succeeds.careful fun _ => ⟨_, rfl⟩
  | remove id => exact remove_careful id
  | setField id name value => exact setField_careful id name value
  | connect parent slot child => exact connect_careful parent slot child
  | disconnect parent slot => exact Succeeds.careful fun _ => ⟨_, rfl⟩
  | setNext id next => exact setNext_careful id next
  | clearNext id => exact Succeeds.careful fun _ => ⟨_, rfl⟩
  | chain nodes => exact (hchain nodes rfl).elim

end Careful

end InPlace

/-- The outcome that is replied: a refusal stands for a fault. -/
def Reply.outcome : Reply → Except GraphFault Reply
  | .refused fault => .error fault
  | reply => .ok reply

namespace InPlace

variable (g : BlockGraph)

theorem require_bind {α : Type} (id : NodeId) (f : Block → InPlace α) :
    (require id >>= f) g =
      match g.block? id with
      | some block => f block g
      | none => (.error (.noBlock id), g) := by
  have hbind : (require id >>= f) g =
      match g.require id with
      | .ok block => f block g
      | .error fault => (.error fault, g) := by
    cases hrequire : g.require id <;> simp only [Bind.bind, require, hrequire]
  rw [hbind, BlockGraph.require]
  cases g.block? id <;> rfl

/-- The outcome in place of a change that is made as a whole or not at all. -/
def attempt (changed : Except GraphFault BlockGraph) : Except GraphFault Reply × BlockGraph :=
  ((Reply.attempt g changed).1.outcome, (Reply.attempt g changed).2)

theorem remove_eq (id : NodeId) :
    remove id g =
      match g.remove id with
      | .ok (block, h) => (.ok (.removed block), h)
      | .error fault => (.error fault, g) := by
  rw [remove, require_bind, BlockGraph.remove_eq]
  cases g.block? id <;> rfl

theorem setField_eq (id : NodeId) (name : String) (value : FieldValue) :
    setField id name value g = attempt g (g.setField id name value) := by
  rw [setField, require_bind, BlockGraph.setField_eq]
  cases g.block? id with
  | none => rfl
  | some block =>
    dsimp only
    split <;> rfl

theorem connect_eq (parent : NodeId) (slot : String) (child : NodeId) :
    connect parent slot child g = attempt g (g.connect parent slot child) := by
  rw [connect, require_bind, BlockGraph.connect_eq]
  cases g.block? parent with
  | none => rfl
  | some block =>
    simp only [require_bind]
    cases g.block? child with
    | none => rfl
    | some other =>
      dsimp only
      split <;> rfl

theorem setNext_eq (id next : NodeId) : setNext id next g = attempt g (g.setNext id next) := by
  rw [setNext, require_bind, BlockGraph.setNext_eq]
  cases g.block? id with
  | none => rfl
  | some block =>
    simp only [require_bind]
    cases g.block? next with
    | none => rfl
    | some other =>
      dsimp only
      split <;> rfl

theorem chain_eq (nodes : List NodeId) :
    chain nodes g =
      match g.chain nodes with
      | (h, none) => (.ok .done, h)
      | (h, some fault) => (.error fault, h) := by
  fun_induction BlockGraph.chain g nodes with
  | case1 g a b rest h hok ih =>
    rw [← ih, chain]
    have hset := setNext_eq g a b
    rw [hok] at hset
    simp only [Bind.bind, hset, attempt, Reply.attempt, Reply.outcome]
  | case2 g a b rest fault herror =>
    rw [chain]
    have hset := setNext_eq g a b
    rw [herror] at hset
    simp only [Bind.bind, hset, attempt, Reply.attempt, Reply.outcome]
  | case3 nodes g hshort =>
    unfold chain
    split
    · exact (hshort _ _ _ rfl).elim
    · rfl

/-- To change a graph in place comes to the same as to make a changed one. -/
theorem perform_eq_edit (e : Edit) : perform e g = ((g.edit e).1.outcome, (g.edit e).2) := by
  cases e with
  | add kind editorId => rfl
  | remove id =>
    rw [perform, remove_eq, BlockGraph.edit]
    cases g.remove id <;> rfl
  | setField id name value => exact setField_eq g id name value
  | connect parent slot child => exact connect_eq g parent slot child
  | disconnect parent slot => rfl
  | setNext id next => exact setNext_eq g id next
  | clearNext id => rfl
  | chain nodes =>
    rw [perform, chain_eq, BlockGraph.edit]
    rcases g.chain nodes with ⟨h, _ | fault⟩ <;> rfl

/-- A refused edit has changed nothing in place. -/
theorem perform_eq_of_refused {e : Edit} {fault : GraphFault} (hchain : ∀ nodes, e ≠ .chain nodes)
    (hrefused : (g.edit e).1 = .refused fault) : perform e g = (.error fault, g) := by
  have herror : (perform e g).1 = .error fault := by
    rw [perform_eq_edit, hrefused]
    rfl
  exact Prod.ext herror (perform_careful hchain g fault herror)

end InPlace

namespace BlockGraph

variable {g h : BlockGraph} {a b : NodeId} {fault : GraphFault}

/-- Why the second block cannot be made the successor of the first: the first of these that applies. -/
inductive Unlinkable (g : BlockGraph) (a b : NodeId) : GraphFault → Prop
  | first (hfirst : g.block? a = none) : Unlinkable g a b (.noBlock a)
  | second (hfirst : (g.block? a).isSome) (hsecond : g.block? b = none) : Unlinkable g a b (.noBlock b)
  | kind {block : Block} (hfirst : g.block? a = some block) (hsecond : (g.block? b).isSome)
      (hkind : ¬block.kind.isLink) : Unlinkable g a b (.notChainable block.kind)

theorem exists_unlinkable_iff : (∃ fault, g.Unlinkable a b fault) ↔
    g.block? a = none ∨ g.block? b = none ∨ ∃ block, g.block? a = some block ∧ ¬block.kind.isLink := by
  constructor
  · rintro ⟨fault, hfirst | ⟨-, hsecond⟩ | ⟨hfirst, -, hkind⟩⟩
    · exact .inl hfirst
    · exact .inr (.inl hsecond)
    · exact .inr (.inr ⟨_, hfirst, hkind⟩)
  · cases ha : g.block? a with
    | none => exact fun _ => ⟨_, .first ha⟩
    | some block =>
      cases hb : g.block? b with
      | none => exact fun _ => ⟨_, .second (by simp [ha]) hb⟩
      | some other =>
        rintro (hnone | hnone | ⟨_, ⟨⟩, hkind⟩)
        · cases hnone
        · cases hnone
        · exact ⟨_, .kind ha (by simp [hb]) hkind⟩

/-- Whether blocks can be linked depends on the blocks only, not on the links there are. -/
theorem Unlinkable.of_blocks_eq (hblocks : h.blocks = g.blocks) (hfault : h.Unlinkable a b fault) :
    g.Unlinkable a b fault := by
  have hblock : h.block? = g.block? := by
    funext id
    rw [block?, block?, hblocks]
  cases hfault with
  | first hfirst => exact .first (hblock ▸ hfirst)
  | second hfirst hsecond => exact .second (hblock ▸ hfirst) (hblock ▸ hsecond)
  | kind hfirst hsecond hkind => exact .kind (hblock ▸ hfirst) (hblock ▸ hsecond) hkind

theorem setNext_eq_error_iff : g.setNext a b = .error fault ↔ g.Unlinkable a b fault := by
  rw [setNext_eq]
  constructor
  · intro herror
    split at herror
    · next block other ha hb =>
      split at herror
      · cases herror
      · next hkind =>
        cases herror
        exact .kind ha (by simp [hb]) hkind
    · next ha =>
      cases herror
      exact .first ha
    · next ha hb =>
      cases herror
      exact .second (by simp [ha]) hb
  · rintro (hfirst | ⟨hfirst, hsecond⟩ | ⟨hfirst, hsecond, hkind⟩)
    · rw [hfirst]
    · obtain ⟨block, hblock⟩ := Option.isSome_iff_exists.1 hfirst
      rw [hblock, hsecond]
    · obtain ⟨other, hother⟩ := Option.isSome_iff_exists.1 hsecond
      rw [hfirst, hother]
      exact if_neg hkind

theorem blocks_setNext (hok : g.setNext a b = .ok h) : h.blocks = g.blocks := by
  obtain ⟨-, -, rfl⟩ := relinked_of_setNext hok
  exact relink_blocks

section Chain

variable {nodes before : List NodeId} {c d : NodeId}

theorem pair_infix_cons_cons {rest : List NodeId} :
    [c, d] <:+: a :: b :: rest ↔ c = a ∧ d = b ∨ [c, d] <:+: b :: rest := by
  rw [List.infix_cons_iff]
  simp [List.cons_prefix_cons]

/-- Linking a list of blocks stops after `before` and `c`: all pairs up to there can be linked, and are, but
    `c` and its follower `d` cannot. -/
structure Stops (g : BlockGraph) (nodes before : List NodeId) (c d : NodeId) (fault : GraphFault) : Prop where
  split : ∃ after, nodes = before ++ c :: d :: after
  linkable : ∀ a b, [a, b] <:+: before ++ [c] → ∀ other, ¬g.Unlinkable a b other
  unlinkable : g.Unlinkable c d fault
  done : (g.chain (before ++ [c])).2 = none
  eq : g.chain nodes = ((g.chain (before ++ [c])).1, some fault)

/-- A pair that can be linked changes nothing about where the rest stops. -/
theorem Stops.cons {rest : List NodeId} (hok : g.setNext a b = .ok h) (hstops : h.Stops (b :: rest) before c d fault) :
    g.Stops (a :: b :: rest) (a :: before) c d fault := by
  have hchain : ∀ rest, g.chain (a :: b :: rest) = h.chain (b :: rest) := by
    intro rest
    rw [chain, hok]
  have hblocks := blocks_setNext hok
  obtain ⟨after, hsplit⟩ := hstops.split
  -- What has been linked begins with the same block as the rest.
  obtain ⟨linked, hlinked⟩ : ∃ linked, before ++ [c] = b :: linked := by
    cases before with
    | nil => exact ⟨[], by rw [(List.cons.inj hsplit).1]; rfl⟩
    | cons first others => exact ⟨others ++ [c], by rw [(List.cons.inj hsplit).1]; rfl⟩
  have hmade : g.chain (a :: before ++ [c]) = h.chain (before ++ [c]) := by
    rw [List.cons_append, hlinked, hchain]
  refine ⟨⟨after, by rw [hsplit]; rfl⟩, fun x y hpair other hfault => ?_,
    hstops.unlinkable.of_blocks_eq hblocks, ?_, ?_⟩
  · rw [List.cons_append, hlinked, pair_infix_cons_cons, ← hlinked] at hpair
    rcases hpair with ⟨rfl, rfl⟩ | hpair
    · rw [setNext_eq_error_iff.2 hfault] at hok
      cases hok
    · exact hstops.linkable x y hpair other (hfault.of_blocks_eq hblocks.symm)
  · rw [hmade]
    exact hstops.done
  · rw [hmade, hchain]
    exact hstops.eq

/-- Linking a list of blocks makes all links, or stops at the first pair that cannot be linked. -/
theorem chain_outcome (g : BlockGraph) (nodes : List NodeId) :
    ((∀ a b, [a, b] <:+: nodes → ∀ fault, ¬g.Unlinkable a b fault) ∧ (g.chain nodes).2 = none) ∨
      ∃ before c d fault, g.Stops nodes before c d fault := by
  fun_induction chain g nodes with
  | case1 g a b rest h hok ih =>
    rcases ih with ⟨hlinkable, hdone⟩ | ⟨before, c, d, fault, hstops⟩
    · refine .inl ⟨fun x y hpair fault hfault => ?_, hdone⟩
      rcases pair_infix_cons_cons.1 hpair with ⟨rfl, rfl⟩ | hpair
      · rw [setNext_eq_error_iff.2 hfault] at hok
        cases hok
      · exact hlinkable x y hpair fault (hfault.of_blocks_eq (blocks_setNext hok).symm)
    · exact .inr ⟨a :: before, c, d, fault, hstops.cons hok⟩
  | case2 g a b rest fault herror =>
    refine .inr ⟨[], a, b, fault, ⟨rest, rfl⟩, fun x y hpair => ?_, setNext_eq_error_iff.1 herror, rfl, ?_⟩
    · have hlength := hpair.length_le
      simp at hlength
    · rw [chain, herror]
      rfl
  | case3 nodes g hshort =>
    refine .inl ⟨fun x y hpair => ?_, rfl⟩
    obtain ⟨before, after, rfl⟩ := hpair
    cases before with
    | nil => exact (hshort x y after rfl).elim
    | cons first others => cases others <;> exact (hshort _ _ _ rfl).elim

theorem chain_eq_some_iff : (g.chain nodes).2 = some fault ↔ ∃ before c d, g.Stops nodes before c d fault := by
  constructor
  · intro hfault
    rcases chain_outcome g nodes with ⟨-, hdone⟩ | ⟨before, c, d, other, hstops⟩
    · rw [hdone] at hfault
      cases hfault
    · rw [hstops.eq] at hfault
      cases hfault
      exact ⟨before, c, d, hstops⟩
  · rintro ⟨before, c, d, hstops⟩
    rw [hstops.eq]

theorem exists_chain_eq_some_iff : (∃ fault, (g.chain nodes).2 = some fault) ↔
    ∃ a b, [a, b] <:+: nodes ∧ ∃ fault, g.Unlinkable a b fault := by
  constructor
  · rintro ⟨fault, hfault⟩
    obtain ⟨before, c, d, hstops⟩ := chain_eq_some_iff.1 hfault
    obtain ⟨after, rfl⟩ := hstops.split
    exact ⟨c, d, ⟨before, after, by simp⟩, fault, hstops.unlinkable⟩
  · rintro ⟨a, b, hpair, fault, hfault⟩
    rcases chain_outcome g nodes with ⟨hlinkable, -⟩ | ⟨before, c, d, other, hstops⟩
    · exact absurd hfault (hlinkable a b hpair fault)
    · exact ⟨other, by rw [hstops.eq]⟩

end Chain

/-- A refused edit changes nothing, though edits are made in place: each looks at all that could speak
    against it before its first change. Only linking several blocks is made of several such edits. It is
    refused exactly if some block and its follower in the list could not be linked before it began, with the
    fault of the first two such blocks, and it has then made the links up to these. -/
theorem refused_edits_change_nothing (g : BlockGraph) :
    (∀ e, InPlace.perform e g = ((g.edit e).1.outcome, (g.edit e).2)) ∧
    (∀ e fault, (∀ nodes, e ≠ .chain nodes) → (g.edit e).1 = .refused fault →
      InPlace.perform e g = (.error fault, g)) ∧
    (∀ nodes, (∃ fault, (g.chain nodes).2 = some fault) ↔ ∃ a b, [a, b] <:+: nodes ∧
      (g.block? a = none ∨ g.block? b = none ∨ ∃ block, g.block? a = some block ∧ ¬block.kind.isLink)) ∧
    ∀ nodes fault, (g.chain nodes).2 = some fault ↔ ∃ before c d, g.Stops nodes before c d fault := by
  refine ⟨InPlace.perform_eq_edit g, fun e fault => InPlace.perform_eq_of_refused g, fun nodes => ?_,
    fun nodes fault => chain_eq_some_iff⟩
  simp only [exists_chain_eq_some_iff, exists_unlinkable_iff]

/-- A graph with two links for one slot, as it can be loaded. The block for the slot is not there. Blocks come
    twice in the chain, which stops where one that is no link of a chain would get a successor. -/
theorem refused_edits_change_nothing_chain_through_itself :
    let g : BlockGraph := ⟨[some ⟨.case, none, []⟩, some ⟨.contract .close, none, []⟩, some ⟨.case, none, []⟩, none],
      [3], [⟨1, 0, .slot "THEN", 1⟩, ⟨0, 0, .slot "THEN", 1⟩], []⟩
    (g.edit (.connect 0 "THEN" 3)).1 = .refused (.noBlock 3) ∧
      InPlace.perform (.connect 0 "THEN" 3) g = (.error (.noBlock 3), g) ∧
      (g.chain [0, 2, 0, 2, 1, 0]).2 = some (.notChainable (.contract .close)) ∧
      ∃ before c d, g.Stops [0, 2, 0, 2, 1, 0] before c d (.notChainable (.contract .close)) := by
  intro g
  have hrefused : (g.edit (.connect 0 "THEN" 3)).1 = .refused (.noBlock 3) := rfl
  have hstopped : (g.chain [0, 2, 0, 2, 1, 0]).2 = some (.notChainable (.contract .close)) := by decide
  obtain ⟨-, hsame, -, hstops⟩ := refused_edits_change_nothing g
  exact ⟨hrefused, hsame _ _ (by simp) hrefused, hstopped, (hstops _ _).1 hstopped⟩

end BlockGraph

end ContractBlocks
