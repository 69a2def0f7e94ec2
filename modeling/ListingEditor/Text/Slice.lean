/-!
Parts of a list between positions, and texts with parts exchanged.
-/

namespace ListingEditor.Text

/-- The offset a position stands for in a text of the given length: a negative position counts from
the end, and one that is out of range is moved to the nearer end. -/
def offset (length : Nat) (position : Int) : Nat :=
  if position < 0 then (length + position).toNat else min position.toNat length

/-- The part of a list from one position up to, not including, another. -/
def slice {α : Type} (xs : List α) (start stop : Int) : List α :=
  (xs.take (offset xs.length stop)).drop (offset xs.length start)

/-- The part of a list before a position. -/
def before {α : Type} (xs : List α) (position : Int) : List α :=
  xs.take (offset xs.length position)

/-- The part of a list from a position on. -/
def after {α : Type} (xs : List α) (position : Int) : List α :=
  xs.drop (offset xs.length position)

/-- The list with the part between two positions exchanged for another list. When the second position
lies before the first, nothing is taken out. -/
def splice {α : Type} (xs : List α) (start stop : Int) (middle : List α) : List α :=
  before xs start ++ middle ++
    xs.drop (max (offset xs.length start) (offset xs.length stop))

theorem offset_ofNat {length n : Nat} (hle : n ≤ length) : offset length n = n := by
  unfold offset
  split <;> omega

theorem offset_le (length : Nat) (position : Int) : offset length position ≤ length := by
  unfold offset
  split <;> omega

/-- Replaces each occurrence of a text that is not empty, from left to right. The first `skip` characters
belong to an occurrence that has been replaced. -/
def replaceFrom (old new : List Char) (skip : Nat) : List Char → List Char
  | [] => []
  | c :: cs =>
    if skip ≠ 0 then replaceFrom old new (skip - 1) cs
    else if old.isPrefixOf (c :: cs) then new ++ replaceFrom old new (old.length - 1) cs
    else c :: replaceFrom old new 0 cs

/-- Replaces each occurrence of a text by another, from left to right. The empty text occurs before every
character and at the end. -/
def replace (old new cs : List Char) : List Char :=
  if old.isEmpty then new ++ cs.flatMap (· :: new) else replaceFrom old new 0 cs

end ListingEditor.Text
