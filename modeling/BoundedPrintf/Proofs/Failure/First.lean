/-! Lists that are worked through until something fails. There is a result for every item, or the
failure of the first item that has none. -/
namespace BoundedPrintf

variable {α β ε : Type} {f : α → Except ε β} {item : α} {items : List α} {failure : ε}

theorem mapM_cons_of_ok {result : β} (here : f item = .ok result) :
    (item :: items).mapM f = (items.mapM f).map (result :: ·) := by
  rw [List.mapM_cons, here]
  cases items.mapM f <;> rfl

theorem mapM_cons_of_error (here : f item = .error failure) :
    (item :: items).mapM f = .error failure := by
  rw [List.mapM_cons, here]
  rfl

theorem mapM_eq_ok_iff {results : List β} :
    items.mapM f = .ok results ↔ items.map f = results.map .ok := by
  induction items generalizing results with
  | nil => cases results <;> simp [pure, Except.pure]
  | cons item items ih =>
      cases here : f item with
      | error failure =>
          rw [mapM_cons_of_error here]
          cases results <;> simp [here]
      | ok result =>
          rw [mapM_cons_of_ok here]
          cases results with
          | nil => cases items.mapM f <;> simp [Except.map]
          | cons first results =>
              have parts : (items.mapM f).map (result :: ·) = .ok (first :: results) ↔
                  result = first ∧ items.mapM f = .ok results := by
                cases items.mapM f <;> simp [Except.map]
              rw [parts, ih]
              simp [here]

theorem mapM_eq_error_iff :
    items.mapM f = .error failure ↔ ∃ before item behind, items = before ++ item :: behind ∧
      (∀ earlier ∈ before, ∃ result, f earlier = .ok result) ∧ f item = .error failure := by
  induction items with
  | nil => simp [pure, Except.pure]
  | cons first items ih =>
      constructor
      · intro failed
        cases here : f first with
        | error other =>
            rw [mapM_cons_of_error here] at failed
            obtain rfl : other = failure := Except.error.inj failed
            exact ⟨[], first, items, rfl, nofun, here⟩
        | ok result =>
            rw [mapM_cons_of_ok here] at failed
            have later : items.mapM f = .error failure := by
              cases rest : items.mapM f with
              | ok results => rw [rest] at failed; cases failed
              | error other => rw [rest] at failed; exact failed
            obtain ⟨before, item, behind, rfl, fine, bad⟩ := ih.mp later
            exact ⟨first :: before, item, behind, rfl,
              List.forall_mem_cons.mpr ⟨⟨result, here⟩, fine⟩, bad⟩
      · rintro ⟨before, item, behind, split, fine, bad⟩
        cases before with
        | nil =>
            obtain ⟨rfl, rfl⟩ := List.cons.inj split
            exact mapM_cons_of_error bad
        | cons earlier before =>
            obtain ⟨rfl, rfl⟩ := List.cons.inj split
            obtain ⟨⟨result, here⟩, others⟩ := List.forall_mem_cons.mp fine
            rw [mapM_cons_of_ok here, ih.mpr ⟨before, item, behind, rfl, others, bad⟩]
            rfl

end BoundedPrintf
