import ContractBlocks.Compile.Walk

namespace ContractBlocks.Walk

variable {α β : Type} {path : List NodeId} {faults more : List Violation}

theorem bind_eq (x : Walk α) (f : α → Walk β) :
    (x >>= f) path =
      match x path with
      | (.ok a, path) => f a path
      | (.error violation, path) => (.error violation, path) :=
  rfl

@[simp] theorem fail_bind (violation : Violation) (f : α → Walk β) :
    (Walk.fail violation >>= f) = Walk.fail violation :=
  rfl

instance : LawfulMonad Walk :=
  LawfulMonad.mk' Walk
    (fun x => by
      funext path
      change (x >>= Pure.pure) path = x path
      rw [bind_eq]
      rcases x path with ⟨_ | _, _⟩ <;> rfl)
    (fun _ _ => rfl)
    (fun x f g => by
      funext path
      rw [bind_eq, bind_eq, bind_eq]
      rcases x path with ⟨_ | _, _⟩ <;> rfl)

/-- At `path`, the walk comes back to `path` with the first of the faults, or, where there are none,
    with a result that has the property. -/
def Finds (w : Walk α) (path : List NodeId) (faults : List Violation) (post : α → Prop) : Prop :=
  match faults with
  | [] => ∃ a, w path = (.ok a, path) ∧ post a
  | fault :: _ => w path = (.error fault, path)

namespace Finds

variable {P Q : α → Prop} {R : β → Prop} {w : Walk α} {f : α → Walk β}

theorem pure {a : α} (hpost : P a) : (Pure.pure a : Walk α).Finds path [] P :=
  ⟨a, rfl, hpost⟩

theorem fail (fault : Violation) : (Walk.fail fault : Walk α).Finds path [fault] P :=
  rfl

theorem bind (hw : w.Finds path faults P) (hf : ∀ a, P a → (f a).Finds path more R) :
    (w >>= f).Finds path (faults ++ more) R := by
  cases faults with
  | nil =>
    obtain ⟨a, hok, hpost⟩ := hw
    have hbind : (w >>= f) path = f a path := by rw [bind_eq, hok]
    have hrest := hf a hpost
    unfold Finds at hrest ⊢
    simpa only [List.nil_append, hbind] using hrest
  | cons fault _ =>
    have herror : w path = (.error fault, path) := hw
    change (w >>= f) path = _
    rw [bind_eq, herror]

/-- A block that the walk is not inside of adds nothing to the faults found inside it. -/
theorem inside {node : NodeId} (hnew : node ∉ path) (hw : w.Finds (node :: path) faults P) :
    (Walk.inside node w).Finds path faults P := by
  cases faults with
  | nil =>
    obtain ⟨a, hok, hpost⟩ := hw
    refine ⟨a, ?_, hpost⟩
    simp [Walk.inside, hnew, hok]
  | cons fault _ =>
    have herror : w (node :: path) = (.error fault, node :: path) := hw
    change Walk.inside node w path = _
    simp [Walk.inside, hnew, herror]

theorem inside_again {node : NodeId} (hpath : node ∈ path) :
    (Walk.inside node w).Finds path [.cyclicSlot node] P := by
  change Walk.inside node w path = _
  simp [Walk.inside, hpath]

/-- Going through a list finds the faults of its elements in their order. -/
theorem mapM {γ : Type} {visit : γ → Walk α} {faultsOf : γ → List Violation} {post : γ → α → Prop}
    {elements : List γ} (hvisit : ∀ e ∈ elements, (visit e).Finds path (faultsOf e) (post e)) :
    (elements.mapM visit).Finds path (elements.flatMap faultsOf)
      fun results => elements.length = results.length ∧
        ∀ pair ∈ elements.zip results, post pair.1 pair.2 := by
  induction elements with
  | nil =>
    rw [List.mapM_nil]
    exact .pure (by simp)
  | cons e elements ih =>
    rw [List.mapM_cons, List.flatMap_cons]
    refine .bind (hvisit e (by simp)) fun a ha => ?_
    rw [← List.append_nil (elements.flatMap faultsOf)]
    refine .bind (ih fun other hother => hvisit other (by simp [hother])) fun results hresults => .pure ?_
    obtain ⟨hlength, hpost⟩ := hresults
    refine ⟨by simp [hlength], fun pair hpair => ?_⟩
    rcases List.mem_cons.1 hpair with rfl | htail
    · exact ha
    · exact hpost pair htail

/-- What a walk finds decides its outcome. -/
theorem ok_iff (hw : w.Finds path faults P) : (∃ a, (w path).1 = .ok a) ↔ faults = [] := by
  cases faults with
  | nil =>
    obtain ⟨a, hok, -⟩ := hw
    exact ⟨fun _ => rfl, fun _ => ⟨a, by rw [hok]⟩⟩
  | cons fault _ =>
    have herror : w path = (.error fault, path) := hw
    simp [herror]

theorem error_iff (hw : w.Finds path faults P) (fault : Violation) :
    (w path).1 = .error fault ↔ faults.head? = some fault := by
  cases faults with
  | nil =>
    obtain ⟨a, hok, -⟩ := hw
    simp [hok]
  | cons first _ =>
    have herror : w path = (.error first, path) := hw
    simp [herror]

theorem post_of_ok {a : α} (hw : w.Finds path faults P) (hok : (w path).1 = .ok a) : P a := by
  cases faults with
  | nil =>
    obtain ⟨b, hb, hpost⟩ := hw
    rw [hb] at hok
    cases hok
    exact hpost
  | cons fault _ =>
    have herror : w path = (.error fault, path) := hw
    rw [herror] at hok
    cases hok

end Finds

end ContractBlocks.Walk
