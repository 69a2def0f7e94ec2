import ListingEditor.Listing.Rule
import Mathlib.Data.List.Basic

/-!
Kinds of characters: how those that a listing is made of exclude and imply each other, and how long the run
of one kind is that a text starts with.
-/

namespace ListingEditor.Text

/-- The run of a kind that a text starts with is as long as the characters of the kind go on. -/
theorem takeWhile_length_eq_iff {kind : Char → Bool} {text : List Char} {n : Nat} :
    (text.takeWhile kind).length = n ↔
      (∀ i < n, text[i]?.any kind = true) ∧ text[n]?.any kind = false := by
  induction text generalizing n with
  | nil =>
    constructor
    · rintro rfl
      simp
    · rintro ⟨hrun, _⟩
      cases n with
      | zero => rfl
      | succ n => simpa using hrun 0 (Nat.succ_pos n)
  | cons c text ih =>
    by_cases hc : kind c = true
    · simp only [List.takeWhile_cons, hc, if_true, List.length_cons]
      cases n with
      | zero => simp [hc]
      | succ n =>
        simp only [Nat.add_right_cancel_iff, ih, List.getElem?_cons_succ]
        refine and_congr_left fun _ => ⟨fun hrun i hi => ?_, fun hrun i hi => ?_⟩
        · cases i with
          | zero => simpa using hc
          | succ i => simpa using hrun i (by omega)
        · simpa using hrun (i + 1) (by omega)
    · simp only [List.takeWhile_cons, hc, if_false, List.length_nil, Bool.false_eq_true]
      cases n with
      | zero => simp [hc]
      | succ n =>
        refine ⟨fun hzero => by omega, fun ⟨hrun, _⟩ => ?_⟩
        have hhead := hrun 0 (by omega)
        simp [hc] at hhead

theorem takeWhile_length_le (kind : Char → Bool) (text : List Char) :
    (text.takeWhile kind).length ≤ text.length :=
  (List.takeWhile_sublist kind).length_le

theorem drop_length_takeWhile (kind : Char → Bool) (text : List Char) :
    text.drop (text.takeWhile kind).length = text.dropWhile kind := by
  calc text.drop (text.takeWhile kind).length
      = (text.takeWhile kind ++ text.dropWhile kind).drop (text.takeWhile kind).length := by
        rw [List.takeWhile_append_dropWhile]
    _ = text.dropWhile kind := List.drop_left

theorem head?_dropWhile_any (kind : Char → Bool) (text : List Char) :
    (text.dropWhile kind).head?.any kind = false := by
  have hhead := List.head?_dropWhile_not kind text
  cases hrest : (text.dropWhile kind).head? with
  | none => rfl
  | some c =>
    rw [hrest] at hhead
    exact hhead

/-- Decimal digits of any script are word characters. -/
theorem isWord_of_isDigit {c : Char} (hdigit : isDigit c = true) : isWord c = true := by
  unfold isWord
  split
  · rename_i hascii
    simp only [isDigit, digitValue?, if_pos hascii] at hdigit
    split at hdigit
    · rename_i hbounds
      have hc : c.isDigit = true := Char.isDigit_iff_toNat.mpr hbounds
      simp [Char.isAlphanum, hc]
    · cases hdigit
  · rw [hdigit, Bool.true_or]

theorem isNameStart_iff {c : Char} :
    Listing.isNameStart c = true ↔
      ((65 ≤ c.toNat ∧ c.toNat ≤ 90) ∨ (97 ≤ c.toNat ∧ c.toNat ≤ 122)) ∨ c = '_' := by
  change ((decide (c.val ≥ 'A'.val ∧ c.val ≤ 'Z'.val) ||
    (decide (c.val ≥ 'a'.val) && decide (c.val ≤ 'z'.val))) || c == '_') = true ↔ _
  simp only [Bool.or_eq_true, Bool.and_eq_true, decide_eq_true_eq, beq_iff_eq, ge_iff_le,
    UInt32.le_iff_toNat_le]
  rfl

theorem isWord_of_isNameStart {c : Char} (hname : Listing.isNameStart c = true) :
    isWord c = true := by
  have hbounds := isNameStart_iff.mp hname
  have hascii : c.toNat < 0x80 := by
    rcases hbounds with (hupper | hlower) | rfl
    · omega
    · omega
    · decide
  simp only [Listing.isNameStart, Bool.or_eq_true] at hname
  simp only [isWord, if_pos hascii, Char.isAlphanum, Bool.or_eq_true]
  exact hname.imp_left .inl

/-- A name starts with a character of ASCII that is no digit. -/
theorem isDigit_eq_false_of_isNameStart {c : Char} (hname : Listing.isNameStart c = true) :
    isDigit c = false := by
  have hbounds : c.toNat < 0x80 ∧ ¬ ('0'.toNat ≤ c.toNat ∧ c.toNat ≤ '9'.toNat) := by
    rcases isNameStart_iff.mp hname with (hupper | hlower) | rfl
    · exact ⟨by omega, fun h => absurd h.2 (by change ¬ c.toNat ≤ 57; omega)⟩
    · exact ⟨by omega, fun h => absurd h.2 (by change ¬ c.toNat ≤ 57; omega)⟩
    · decide
  simp only [isDigit, digitValue?, if_pos hbounds.1, if_neg hbounds.2, Option.isSome_none]

end ListingEditor.Text
