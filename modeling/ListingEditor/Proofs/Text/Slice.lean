import ListingEditor.Text.Slice
import Mathlib.Data.List.Basic

/-!
Slices at positions that are not negative: those beyond the end of the list stand for its end, so `take` and
`drop` say it all.
-/

namespace ListingEditor.Text

theorem offset_natCast (length n : Nat) : offset length n = min n length := by
  unfold offset
  split <;> omega

variable {α : Type}

@[simp] theorem before_natCast (xs : List α) (n : Nat) : before xs n = xs.take n := by
  rw [before, offset_natCast]
  rcases Nat.le_total n xs.length with hle | hge
  · rw [Nat.min_eq_left hle]
  · rw [Nat.min_eq_right hge, List.take_length, List.take_of_length_le hge]

@[simp] theorem after_natCast (xs : List α) (n : Nat) : after xs n = xs.drop n := by
  rw [after, offset_natCast]
  rcases Nat.le_total n xs.length with hle | hge
  · rw [Nat.min_eq_left hle]
  · rw [Nat.min_eq_right hge, List.drop_length, List.drop_eq_nil_of_le hge]

@[simp] theorem slice_natCast (xs : List α) (start stop : Nat) :
    slice xs start stop = (xs.take stop).drop start := by
  have hstop : xs.take (offset xs.length stop) = xs.take stop := before_natCast xs stop
  rw [slice, hstop, offset_natCast]
  rcases Nat.le_total start xs.length with hle | hge
  · rw [Nat.min_eq_left hle]
  · have hshort : (xs.take stop).length ≤ xs.length := by
      rw [List.length_take]
      omega
    rw [Nat.min_eq_right hge, List.drop_eq_nil_of_le hshort,
      List.drop_eq_nil_of_le (Nat.le_trans hshort hge)]

theorem take_eq_append_drop (xs : List α) {n m : Nat} (hle : n ≤ m) :
    xs.take m = xs.take n ++ (xs.take m).drop n := by
  have hfront : (xs.take m).take n = xs.take n := by rw [List.take_take, Nat.min_eq_left hle]
  rw [← hfront, List.take_append_drop]

/-- The list with a part exchanged, between two places in order. -/
theorem splice_natCast (xs : List α) {start stop : Nat} (middle : List α) (hle : start ≤ stop) :
    splice xs start stop middle = xs.take start ++ middle ++ xs.drop stop := by
  have hdrop : xs.drop (max (offset xs.length start) (offset xs.length stop)) = xs.drop stop := by
    rw [offset_natCast, offset_natCast]
    rcases Nat.le_total stop xs.length with hinside | hbeyond
    · rw [Nat.min_eq_left hinside, Nat.min_eq_left (Nat.le_trans hle hinside), Nat.max_eq_right hle]
    · rw [List.drop_eq_nil_of_le hbeyond, List.drop_eq_nil_of_le (by omega)]
  rw [splice, before_natCast, hdrop]

end ListingEditor.Text
