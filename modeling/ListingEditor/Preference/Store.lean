import ListingEditor.Preference.Schema

/-!
Settings as objects that are shared. Whoever knows the place of an object can change it, and sees what others do to
it.
-/

namespace ListingEditor.Preference

/-- Settings objects, each at a place of its own. They change by assignment to their preferences only. A value is not
an object: a list or a record that two settings have can be replaced in one of them, but not changed in both. -/
structure Store where
  objects : List Settings

namespace Store

/-- The object at a place. -/
def get? (store : Store) (place : Nat) : Option Settings := store.objects[place]?

/-- The place that the next new object gets. -/
def next (store : Store) : Nat := store.objects.length

/-- Puts a new object into the store. -/
def add (store : Store) (settings : Settings) : Store := ⟨store.objects ++ [settings]⟩

/-- Changes the object at a place. -/
def modify (store : Store) (place : Nat) (change : Settings → Settings) : Store :=
  ⟨store.objects.modify place change⟩

@[simp] theorem get?_next (store : Store) : store.get? store.next = none := by simp [get?, next]

@[simp] theorem get?_add_next (store : Store) (settings : Settings) :
    (store.add settings).get? store.next = some settings := by simp [get?, add, next]

theorem get?_add_of_ne {store : Store} {settings : Settings} {place : Nat} (hother : place ≠ store.next) :
    (store.add settings).get? place = store.get? place := by
  simp only [next] at hother
  simp only [get?, add, List.getElem?_append]
  split
  · rfl
  · rw [List.getElem?_eq_none (by simp; omega), List.getElem?_eq_none (by omega)]

@[simp] theorem get?_modify_self (store : Store) (place : Nat) (change : Settings → Settings) :
    (store.modify place change).get? place = (store.get? place).map change := by
  simp [get?, modify]

theorem get?_modify_of_ne {store : Store} {place other : Nat} {change : Settings → Settings}
    (hother : other ≠ place) : (store.modify place change).get? other = store.get? other := by
  simp [get?, modify, hother.symm]

end Store

end ListingEditor.Preference
