namespace ContractBlocks.Outcome

variable {ε α β : Type}

@[simp] theorem pure_eq_ok (a : α) : (pure a : Except ε α) = .ok a :=
  rfl

@[simp] theorem ok_bind (a : α) (f : α → Except ε β) : Except.ok a >>= f = f a :=
  rfl

@[simp] theorem map_ok (f : α → β) (a : α) : f <$> (Except.ok a : Except ε α) = .ok (f a) :=
  rfl

theorem map_eq_ok_iff {f : α → β} {x : Except ε α} {b : β} :
    f <$> x = .ok b ↔ ∃ a, x = .ok a ∧ f a = b := by
  cases x <;> simp [Functor.map, Except.map]

theorem bind_eq_ok_iff {x : Except ε α} {f : α → Except ε β} {b : β} :
    x >>= f = .ok b ↔ ∃ a, x = .ok a ∧ f a = .ok b := by
  cases x <;> simp [bind, Except.bind]

/-- What an outcome yields, if it yields anything, is as `post` says. -/
def Yields (x : Except ε α) (post : α → Prop) : Prop :=
  ∀ a, x = .ok a → post a

namespace Yields

variable {post : α → Prop}

theorem ok {a : α} (ha : post a) : Yields (.ok a : Except ε α) post := by
  rintro _ ⟨⟩
  exact ha

theorem error (e : ε) : Yields (.error e) post := by
  rintro _ ⟨⟩

theorem bind {x : Except ε α} {f : α → Except ε β} {result : β → Prop} (hx : Yields x post)
    (hf : ∀ a, post a → Yields (f a) result) : Yields (x >>= f) result := by
  intro b hb
  obtain ⟨a, ha, hb⟩ := bind_eq_ok_iff.1 hb
  exact hf a (hx a ha) b hb

/-- Nothing need be said of what comes first. -/
theorem after {x : Except ε α} {f : α → Except ε β} {result : β → Prop}
    (hf : ∀ a, Yields (f a) result) : Yields (x >>= f) result :=
  have hx : Yields x fun _ => True := fun _ _ => trivial
  hx.bind fun a _ => hf a

theorem map {x : Except ε α} {f : α → β} {result : β → Prop} (hx : Yields x post)
    (hf : ∀ a, post a → result (f a)) : Yields (f <$> x) result := by
  intro b hb
  obtain ⟨a, ha, rfl⟩ := map_eq_ok_iff.1 hb
  exact hf a (hx a ha)

theorem mapM {f : β → Except ε α} {items : List β} (hf : ∀ item, Yields (f item) post) :
    Yields (items.mapM f) fun results => ∀ result ∈ results, post result := by
  induction items with
  | nil => exact ok (by simp)
  | cons item items ih =>
    rw [List.mapM_cons]
    refine (hf item).bind fun result hresult => ih.bind fun results hresults => ok ?_
    simpa [hresult] using hresults

end Yields

/-- An outcome reports the first of some faults, or yields what is as `post` says where there is none. -/
def Reports (x : Except ε α) (faults : List ε) (post : α → Prop) : Prop :=
  match faults with
  | [] => ∃ a, x = .ok a ∧ post a
  | fault :: _ => x = .error fault

namespace Reports

variable {x : Except ε α} {faults others : List ε} {post : α → Prop}

theorem ok {a : α} (ha : post a) : Reports (.ok a : Except ε α) [] post :=
  ⟨a, rfl, ha⟩

theorem error (e : ε) (others : List ε) : Reports (.error e) (e :: others) post :=
  rfl

theorem bind {f : α → Except ε β} {result : β → Prop} (hx : Reports x faults post)
    (hf : ∀ a, post a → Reports (f a) others result) : Reports (x >>= f) (faults ++ others) result := by
  cases faults with
  | nil =>
    obtain ⟨a, rfl, ha⟩ := hx
    exact hf a ha
  | cons fault faults =>
    have herror : x = .error fault := hx
    rw [herror]
    rfl

theorem imp {result : α → Prop} (hx : Reports x faults post) (himp : ∀ a, post a → result a) :
    Reports x faults result := by
  cases faults with
  | nil =>
    obtain ⟨a, hok, ha⟩ := hx
    exact ⟨a, hok, himp a ha⟩
  | cons fault faults => exact hx

theorem exists_ok_iff (hx : Reports x faults post) : (∃ a, x = .ok a) ↔ faults = [] := by
  cases faults with
  | nil =>
    obtain ⟨a, hok, -⟩ := hx
    simp [hok]
  | cons fault faults =>
    have herror : x = .error fault := hx
    simp [herror]

theorem error_iff (hx : Reports x faults post) (fault : ε) : x = .error fault ↔ faults.head? = some fault := by
  cases faults with
  | nil =>
    obtain ⟨a, hok, -⟩ := hx
    simp [hok]
  | cons first faults =>
    have herror : x = .error first := hx
    simp [herror]

end Reports

end ContractBlocks.Outcome
