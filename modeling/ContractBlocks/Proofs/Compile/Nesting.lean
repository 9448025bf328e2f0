import ContractBlocks.Proofs.Compile.Denotation
import ContractBlocks.Proofs.Compile.Restores
import ContractBlocks.Source.Table
import Mathlib.Data.Finset.Card
import Mathlib.Data.List.Nodup

namespace ContractBlocks

namespace Source

variable {S : Source} {path : List NodeId} {node : NodeId}

/-- The ids of all blocks. -/
def blockIds (S : Source) : Finset NodeId :=
  {id ∈ S.ids.toFinset | (S.kind id).isSome}

@[simp] theorem mem_blockIds {id : NodeId} : id ∈ S.blockIds ↔ (S.kind id).isSome := by
  simp only [blockIds, Finset.mem_filter, List.mem_toFinset, and_iff_right_iff_imp]
  exact S.mem_ids_of_kind id

/-- A walk can be inside these blocks: all of them are there, none is met twice, and there are no more
    of them than there are blocks. -/
def Nests (S : Source) (path : List NodeId) : Prop :=
  path.Nodup ∧ (∀ id ∈ path, (S.kind id).isSome) ∧ path.length ≤ S.blockIds.card

instance : DecidablePred S.Nests :=
  fun _ => inferInstanceAs (Decidable (_ ∧ _))

theorem nests_nil (S : Source) : S.Nests [] :=
  ⟨List.nodup_nil, nofun, Nat.zero_le _⟩

/-- Going inside one more block leaves room: a path of different blocks is no longer than all of them. -/
theorem Nests.cons (hpath : S.Nests path) (hnew : node ∉ path) (hkind : (S.kind node).isSome) :
    S.Nests (node :: path) := by
  have hnodup : (node :: path).Nodup := List.nodup_cons.2 ⟨hnew, hpath.1⟩
  have hkinds : ∀ id ∈ node :: path, (S.kind id).isSome := List.forall_mem_cons.2 ⟨hkind, hpath.2.1⟩
  refine ⟨hnodup, hkinds, ?_⟩
  rw [← List.toFinset_card_of_nodup hnodup]
  exact Finset.card_le_card fun id hid => mem_blockIds.2 (hkinds id (List.mem_toFinset.1 hid))

/-- A call on a block keeps to what can be nested, both where it is made and where it goes inside the
    block. -/
def NestsAt (S : Source) (path : List NodeId) (node : NodeId) : Prop :=
  S.Nests path ∧ (node ∉ path → (S.kind node).isSome → S.Nests (node :: path))

instance : Decidable (S.NestsAt path node) :=
  inferInstanceAs (Decidable (_ ∧ (_ → _ → _)))

theorem Nests.nestsAt (hpath : S.Nests path) (node : NodeId) : S.NestsAt path node :=
  ⟨hpath, hpath.cons⟩

end Source

namespace Walk

variable {α β : Type} {path : List NodeId} {w other : Walk α}

/-- The walk for a block, where calls on the block keep to what can be nested. Elsewhere it is the other
    walk. -/
def guarded (S : Source) (node : NodeId) (otherwise w : Walk α) : Walk α :=
  fun path => if S.NestsAt path node then w path else otherwise path

theorem guarded_eq {S : Source} (hpath : S.Nests path) (node : NodeId) (otherwise w : Walk α) :
    guarded S node otherwise w path = w path :=
  if_pos (hpath.nestsAt node)

theorem map_congr (heq : w path = other path) (f : α → β) : (f <$> w) path = (f <$> other) path := by
  rw [← bind_pure_comp, ← bind_pure_comp, bind_eq, bind_eq, heq]

namespace Finds

variable {faults : List Violation} {P : α → Prop}

theorem congr (hw : w.Finds path faults P) (heq : other path = w path) : other.Finds path faults P := by
  unfold Finds at hw ⊢
  rwa [heq]

/-- Walks that find the same faults, and make the only thing that there is to make where there are none,
    come to the same. -/
theorem eq (hw : w.Finds path faults P) (hother : other.Finds path faults P)
    (hunique : ∀ a b, P a → P b → a = b) : w path = other path := by
  cases faults with
  | nil =>
    obtain ⟨a, hok, ha⟩ := hw
    obtain ⟨b, hok', hb⟩ := hother
    rw [hok, hok', hunique a b ha hb]
  | cons fault _ =>
    have herror : w path = (.error fault, path) := hw
    have herror' : other path = (.error fault, path) := hother
    rw [herror, herror']

theorem eq_of_denotes {S : Source} {node : NodeId} {f : α → Part}
    (hw : w.Finds path faults fun a => S.Denotes node (f a))
    (hother : other.Finds path faults fun a => S.Denotes node (f a)) (hf : Function.Injective f) :
    w path = other path :=
  hw.eq hother fun _ _ ha hb => hf (ha.unique hb)

end Finds

end Walk

namespace Parts

open Source

variable {S : Source} {parts others : Parts} {path : List NodeId}

/-- The parts with a check before every call. Where a call would be made inside blocks that cannot be
    nested, or would go inside one too many, `otherwise` answers. -/
def guarded (S : Source) (otherwise parts : Parts) : Parts where
  contract node := .guarded S node (otherwise.contract node) (parts.contract node)
  case node := .guarded S node (otherwise.case node) (parts.case node)
  action node := .guarded S node (otherwise.action node) (parts.action node)
  bound node := .guarded S node (otherwise.bound node) (parts.bound node)
  choiceId node := .guarded S node (otherwise.choiceId node) (parts.choiceId node)
  party node := .guarded S node (otherwise.party node) (parts.party node)
  payee node := .guarded S node (otherwise.payee node) (parts.payee node)
  token node := .guarded S node (otherwise.token node) (parts.token node)
  value node := .guarded S node (otherwise.value node) (parts.value node)
  observation node := .guarded S node (otherwise.observation node) (parts.observation node)

theorem Finds.guarded (hparts : parts.Finds S path) (hpath : S.Nests path) (otherwise : Parts) :
    (guarded S otherwise parts).Finds S path where
  contract node := (hparts.contract node).congr (Walk.guarded_eq hpath ..)
  case node := (hparts.case node).congr (Walk.guarded_eq hpath ..)
  action node := (hparts.action node).congr (Walk.guarded_eq hpath ..)
  bound node := (hparts.bound node).congr (Walk.guarded_eq hpath ..)
  choiceId node := (hparts.choiceId node).congr (Walk.guarded_eq hpath ..)
  party node := (hparts.party node).congr (Walk.guarded_eq hpath ..)
  payee node := (hparts.payee node).congr (Walk.guarded_eq hpath ..)
  token node := (hparts.token node).congr (Walk.guarded_eq hpath ..)
  value node := (hparts.value node).congr (Walk.guarded_eq hpath ..)
  observation node := (hparts.observation node).congr (Walk.guarded_eq hpath ..)

/-- What parts find at a path decides what they answer there. -/
theorem Finds.answer_eq (hparts : parts.Finds S path) (hothers : others.Finds S path) (call : Call) :
    parts.answer call path = others.answer call path := by
  cases call with
  | contract node =>
    have hinj : Function.Injective Part.contract := fun _ _ => Part.contract.inj
    exact Walk.map_congr ((hparts.contract node).eq_of_denotes (hothers.contract node) hinj) _
  | case node =>
    have hinj : Function.Injective Part.case := fun _ _ => Part.case.inj
    exact Walk.map_congr ((hparts.case node).eq_of_denotes (hothers.case node) hinj) _
  | action node =>
    have hinj : Function.Injective Part.action := fun _ _ => Part.action.inj
    exact Walk.map_congr ((hparts.action node).eq_of_denotes (hothers.action node) hinj) _
  | bound node =>
    have hinj : Function.Injective Part.bound := fun _ _ => Part.bound.inj
    exact Walk.map_congr ((hparts.bound node).eq_of_denotes (hothers.bound node) hinj) _
  | choiceId node =>
    have hinj : Function.Injective Part.choiceId := fun _ _ => Part.choiceId.inj
    exact Walk.map_congr ((hparts.choiceId node).eq_of_denotes (hothers.choiceId node) hinj) _
  | party node =>
    have hinj : Function.Injective Part.party := fun _ _ => Part.party.inj
    exact Walk.map_congr ((hparts.party node).eq_of_denotes (hothers.party node) hinj) _
  | payee node =>
    have hinj : Function.Injective Part.payee := fun _ _ => Part.payee.inj
    exact Walk.map_congr ((hparts.payee node).eq_of_denotes (hothers.payee node) hinj) _
  | token node =>
    have hinj : Function.Injective Part.token := fun _ _ => Part.token.inj
    exact Walk.map_congr ((hparts.token node).eq_of_denotes (hothers.token node) hinj) _
  | value node =>
    have hinj : Function.Injective Part.value := fun _ _ => Part.value.inj
    exact Walk.map_congr ((hparts.value node).eq_of_denotes (hothers.value node) hinj) _
  | observation node =>
    have hinj : Function.Injective Part.observation := fun _ _ => Part.observation.inj
    exact Walk.map_congr ((hparts.observation node).eq_of_denotes (hothers.observation node) hinj) _

theorem Enclosing.cons {node : NodeId} {kind : Kind} (hpath : Enclosing S path) (hkind : S.kind node = some kind)
    (hencloses : kind.category.encloses) : Enclosing S (node :: path) := by
  refine List.forall_mem_cons.2 ⟨fun found hfound => ?_, hpath⟩
  cases hkind.symm.trans hfound
  exact hencloses

theorem upTo_eq_iterate (S : Source) (depth : Nat) : upTo S depth = (around S)^[depth] exhausted := by
  induction depth with
  | zero => rfl
  | succ depth ih => rw [upTo, ih, Function.iterate_succ_apply']

/-- Levels of parts around each other find the first violation, whatever stands below the lowest level,
    once there are more levels than blocks outside the path. Each level may have a check of its own that
    nothing fails inside blocks that can be nested. -/
theorem iterate_around_finds {check : Parts → Parts}
    (hcheck : ∀ parts path, S.Nests path → parts.Finds S path → (check parts).Finds S path)
    (bottom : Parts) {depth : Nat} (hpath : S.Nests path) (henclosing : Enclosing S path)
    (hdepth : S.blockIds.card < path.length + depth) :
    ((fun inner => check (around S inner))^[depth] bottom).Finds S path := by
  induction depth generalizing path with
  | zero => exact absurd hpath.2.2 (by omega)
  | succ depth ih =>
    rw [Function.iterate_succ_apply']
    refine hcheck _ path hpath (around_finds henclosing fun node kind hkind hencloses hnew => ?_)
    -- The next level down is inside one more block, so one level less is needed.
    refine ih (hpath.cons hnew (by simp [hkind])) (henclosing.cons hkind hencloses) ?_
    rw [List.length_cons]
    omega

end Parts

namespace Source

open Parts

variable {S : Source}

/-- The contract below the least root, made by the given parts. -/
def compileWith (S : Source) (parts : Parts) : Except Violation Contract :=
  match S.leastRoot? with
  | none => .error .missingRoot
  | some root =>
    match S.slot root "CONTRACT" with
    | none => .error (.missingInput root .root "CONTRACT")
    | some node => (parts.contract node []).1

theorem compile_eq_compileWith (S : Source) : S.compile = S.compileWith S.parts := by
  rw [compile_eq, compileWith]
  cases S.leastRoot? with
  | none => rfl
  | some root =>
    simp only [compileBelow]
    cases S.slot root "CONTRACT" <;> rfl

theorem compileWith_eq {parts : Parts} (hparts : parts.Finds S []) : S.compileWith parts = S.compile := by
  have hcontract : ∀ node, parts.contract node [] = S.parts.contract node [] := fun node =>
    (hparts.contract node).eq_of_denotes ((parts_finds S).contract node) fun _ _ => Part.contract.inj
  rw [compile_eq_compileWith, compileWith, compileWith]
  simp only [hcontract]

/-- More levels of parts than there are blocks are enough for every call and for compiling, and further
    levels change nothing, whatever cycles the blocks form. What stands below the lowest level never
    answers. Nor does `otherwise`, which would if a call were ever made inside more blocks than there
    are, or inside one of them twice. -/
theorem answer_eq_of_blockIds_lt (S : Source) (depth : Nat) (hdepth : S.blockIds.card < depth) :
    (∀ call, (upTo S depth).answer call [] = S.parts.answer call []) ∧
      S.compileWith (upTo S depth) = S.compile ∧
      ∀ bottom otherwise : Parts,
        (∀ call, ((around S)^[depth] bottom).answer call [] = S.parts.answer call []) ∧
        S.compileWith ((around S)^[depth] bottom) = S.compile ∧
        (∀ call, ((fun inner => guarded S otherwise (around S inner))^[depth] bottom).answer call [] =
          S.parts.answer call []) ∧
        S.compileWith ((fun inner => guarded S otherwise (around S inner))^[depth] bottom) = S.compile := by
  have hoff : Enclosing S [] := fun _ hmem => absurd hmem List.not_mem_nil
  have hbare : ∀ bottom, ((around S)^[depth] bottom).Finds S [] := fun bottom =>
    iterate_around_finds (fun _ _ _ hfinds => hfinds) bottom S.nests_nil hoff (by simpa using hdepth)
  rw [upTo_eq_iterate]
  refine ⟨(hbare _).answer_eq (parts_finds S), compileWith_eq (hbare _), fun bottom otherwise => ?_⟩
  have hguarded := iterate_around_finds (fun _ _ hpath hfinds => hfinds.guarded hpath otherwise) bottom
    S.nests_nil hoff (by simpa using hdepth)
  exact ⟨(hbare bottom).answer_eq (parts_finds S), compileWith_eq (hbare bottom),
    hguarded.answer_eq (parts_finds S), compileWith_eq hguarded⟩

/-- A cycle leads from a contract through its chain of cases and the second of them back to it. The
    contract also goes on with itself, and the chain with a block that is not there. Eight levels are
    enough for the seven blocks. -/
theorem answer_eq_of_blockIds_lt_mixed_cycle :
    let S := BlockTable.source ⟨[0], [⟨0, .root, [("CONTRACT", 1)], [], none⟩,
      ⟨1, .contract .when, [("CASES", 2), ("TIMEOUT_CONT", 1)], [("TIMEOUT", .text "5")], none⟩,
      ⟨2, .case, [("ACTION", 4), ("THEN", 5)], [], some 3⟩, ⟨3, .case, [("ACTION", 4), ("THEN", 1)], [], some 9⟩,
      ⟨4, .action .notify, [("OBS", 6)], [], none⟩, ⟨5, .contract .close, [], [], none⟩,
      ⟨6, .observation (.literal true), [], [], none⟩]⟩
    S.blockIds.card = 7 ∧ S.compile = .error (.cyclicSlot 1) ∧
      ∀ bottom otherwise : Parts,
        S.compileWith ((around S)^[8] bottom) = .error (.cyclicSlot 1) ∧
        S.compileWith ((fun inner => guarded S otherwise (around S inner))^[8] bottom) =
          .error (.cyclicSlot 1) := by
  intro S
  have hcard : S.blockIds.card = 7 := by decide +kernel
  have hcompile : S.compile = .error (.cyclicSlot 1) := by decide +kernel
  refine ⟨hcard, hcompile, fun bottom otherwise => ?_⟩
  obtain ⟨-, hbare, -, hguarded⟩ :=
    (answer_eq_of_blockIds_lt S 8 (by rw [hcard]; decide)).2.2 bottom otherwise
  exact ⟨hbare.trans hcompile, hguarded.trans hcompile⟩

end Source

end ContractBlocks
