import Mathlib.Data.List.Forall2

/-!
Lists whose elements are put one by one through a function that may fail.
-/

namespace ListingEditor

variable {α β ε : Type} {f : α → Except ε β} {a : α} {more : List α}

theorem mapM_cons_of_ok {b : β} (hfirst : f a = .ok b) :
    (a :: more).mapM f = (more.mapM f).map (b :: ·) := by
  rw [List.mapM_cons, hfirst]
  rfl

theorem mapM_cons_of_error {e : ε} (hfirst : f a = .error e) : (a :: more).mapM f = .error e := by
  rw [List.mapM_cons, hfirst]
  rfl

theorem forall₂_of_mapM {l : List α} {l' : List β} (hall : l.mapM f = .ok l') :
    List.Forall₂ (fun a b => f a = .ok b) l l' := by
  induction l generalizing l' with
  | nil =>
    cases hall
    exact .nil
  | cons a l ih =>
    cases hfirst : f a with
    | error e =>
      rw [mapM_cons_of_error hfirst] at hall
      cases hall
    | ok b =>
      rw [mapM_cons_of_ok hfirst] at hall
      cases hrest : l.mapM f with
      | error e =>
        rw [hrest] at hall
        cases hall
      | ok l₁ =>
        rw [hrest] at hall
        cases hall
        exact .cons hfirst (ih hrest)

theorem mapM_of_ok {g : α → β} {l : List α} (hall : ∀ a ∈ l, f a = .ok (g a)) : l.mapM f = .ok (l.map g) := by
  induction l with
  | nil => rfl
  | cons a l ih =>
    obtain ⟨hfirst, hrest⟩ := List.forall_mem_cons.mp hall
    rw [mapM_cons_of_ok hfirst, ih hrest]
    rfl

/-- If there is only one way to fail, any element can be the one at which the list fails. -/
theorem mapM_of_error [Subsingleton ε] {l : List α} {e : ε} (hmem : a ∈ l) (hfails : f a = .error e) :
    l.mapM f = .error e := by
  induction l with
  | nil => cases hmem
  | cons first l ih =>
    cases hfirst : f first with
    | error e' =>
      obtain rfl := Subsingleton.elim e' e
      exact mapM_cons_of_error hfirst
    | ok b =>
      have hlater : a ∈ l := by
        rcases List.mem_cons.mp hmem with rfl | hlater
        · rw [hfails] at hfirst
          cases hfirst
        · exact hlater
      rw [mapM_cons_of_ok hfirst, ih hlater]
      rfl

theorem mapM_self {f : α → Except ε α} {l : List α} (hfixed : ∀ a ∈ l, f a = .ok a) : l.mapM f = .ok l :=
  (mapM_of_ok (g := id) hfixed).trans (by rw [List.map_id])

end ListingEditor
