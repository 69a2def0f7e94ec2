import ListingEditor.Proofs.Listing.Scan
import ListingEditor.Proofs.Text.Kind

/-!
The recognizers of the standard rules: when each of them recognizes something and how much of the text. What
they propose is never empty and lies inside the text, so every line of a listing has its regions in order.
-/

namespace ListingEditor.Listing

theorem digitRun_le (text : List Char) : digitRun text ≤ text.length :=
  Text.takeWhile_length_le _ _

theorem lineNumberAt_eq_some_iff {previous : Option Char} {text : List Char} {n : Nat} :
    lineNumberAt previous text = some n ↔
      previous = some ' ' ∧ 0 < n ∧ digitRun text = n ∧ text[n]? = some ' ' := by
  simp only [lineNumberAt, List.head?_drop]
  constructor
  · intro h
    split at h
    · rename_i hhere
      cases h
      exact ⟨hhere.1, hhere.2.1, rfl, hhere.2.2⟩
    · cases h
  · rintro ⟨hprevious, hpos, rfl, hbehind⟩
    rw [if_pos ⟨hprevious, hpos, hbehind⟩]

theorem jumpTargetAt_eq_some_iff {previous : Option Char} {text : List Char} {n : Nat} :
    jumpTargetAt previous text = some n ↔
      ∃ rest, text = '(' :: 't' :: 'o' :: ' ' :: rest ∧ 0 < digitRun rest ∧
        rest[digitRun rest]? = some ')' ∧ n = digitRun rest + 5 := by
  unfold jumpTargetAt
  constructor
  · intro h
    split at h
    · rename_i rest
      simp only [List.head?_drop] at h
      split at h
      · rename_i hhere
        cases h
        exact ⟨rest, rfl, hhere.1, hhere.2, rfl⟩
      · cases h
    · cases h
  · rintro ⟨rest, rfl, hpos, hbehind, rfl⟩
    simp only [List.head?_drop]
    rw [if_pos ⟨hpos, hbehind⟩]

theorem wordAt_eq_some_iff {previous : Option Char} {text : List Char} {n : Nat} :
    wordAt previous text = some n ↔
      text[0]?.any isNameStart = true ∧ previous.any Text.isWord = false ∧
        n = (text.takeWhile Text.isWord).length +
          suffixLength (text.drop (text.takeWhile Text.isWord).length) := by
  cases text with
  | nil => simp [wordAt]
  | cons c text =>
    simp only [wordAt, List.getElem?_cons_zero, Option.any_some]
    constructor
    · intro h
      split at h
      · rename_i hhere
        simp only [Bool.and_eq_true, Bool.not_eq_true'] at hhere
        cases h
        exact ⟨hhere.1, hhere.2, rfl⟩
      · cases h
    · rintro ⟨hname, hprevious, rfl⟩
      rw [if_pos (by simp [hname, hprevious])]

/-- A suffix is a plus sign and one digit or more that no word character follows. -/
theorem suffixLength_eq_succ_iff {text : List Char} {n : Nat} :
    suffixLength text = n + 1 ↔
      ∃ rest, text = '+' :: rest ∧ 0 < n ∧ digitRun rest = n ∧ rest[n]?.any Text.isWord = false := by
  unfold suffixLength
  constructor
  · intro h
    split at h
    · rename_i rest
      simp only [List.head?_drop, Bool.not_eq_true'] at h
      split at h
      · rename_i hhere
        have hn : digitRun rest = n := by omega
        rw [hn] at hhere
        exact ⟨rest, rfl, hhere.1, hn, hhere.2⟩
      · omega
    · omega
  · rintro ⟨rest, rfl, hpos, rfl, hbehind⟩
    simp only [List.head?_drop, hbehind, hpos, Bool.not_false, and_self, if_true]

theorem suffixLength_le (text : List Char) : suffixLength text ≤ text.length := by
  cases hsuffix : suffixLength text with
  | zero => omega
  | succ n =>
    obtain ⟨rest, rfl, _, hrun, _⟩ := suffixLength_eq_succ_iff.mp hsuffix
    have hle := digitRun_le rest
    simp only [List.length_cons]
    omega

theorem lineNumberAt_bounded : Recognizer.Bounded lineNumberAt := by
  intro previous text n hrecognized
  obtain ⟨_, hpos, rfl, _⟩ := lineNumberAt_eq_some_iff.mp hrecognized
  exact ⟨hpos, digitRun_le text⟩

theorem wordAt_bounded : Recognizer.Bounded wordAt := by
  intro previous text n hrecognized
  obtain ⟨hname, _, rfl⟩ := wordAt_eq_some_iff.mp hrecognized
  cases text with
  | nil => simp at hname
  | cons c text =>
    have hword : Text.isWord c = true := Text.isWord_of_isNameStart (by simpa using hname)
    have hrun := Text.takeWhile_length_le Text.isWord (c :: text)
    have hsuffix := suffixLength_le ((c :: text).drop ((c :: text).takeWhile Text.isWord).length)
    rw [List.length_drop] at hsuffix
    refine ⟨?_, by omega⟩
    rw [List.takeWhile_cons, if_pos hword, List.length_cons]
    omega

theorem jumpTargetAt_bounded : Recognizer.Bounded jumpTargetAt := by
  intro previous text n hrecognized
  obtain ⟨rest, rfl, _, hclose, rfl⟩ := jumpTargetAt_eq_some_iff.mp hrecognized
  have hinside := (List.getElem?_eq_some_iff.mp hclose).1
  simp only [List.length_cons]
  omega

theorem byteAfterBarAt_bounded : Recognizer.Bounded byteAfterBarAt := by
  intro previous text n hrecognized
  unfold byteAfterBarAt at hrecognized
  split at hrecognized
  · split at hrecognized
    · cases hrecognized
      simp
    · cases hrecognized
  · cases hrecognized

theorem byteBeforeBarAt_bounded : Recognizer.Bounded byteBeforeBarAt := by
  intro previous text n hrecognized
  unfold byteBeforeBarAt at hrecognized
  split at hrecognized
  · split at hrecognized
    · cases hrecognized
      simp
    · cases hrecognized
  · cases hrecognized

theorem labelRefAt_bounded : Recognizer.Bounded labelRefAt := by
  intro previous text n hrecognized
  unfold labelRefAt at hrecognized
  split at hrecognized
  · rename_i rest
    have hle := digitRun_le rest
    simp only at hrecognized
    split at hrecognized
    · cases hrecognized
      simp only [List.length_cons]
      omega
    · cases hrecognized
  · cases hrecognized

/-- A declared label is not empty, and the colon behind it is part of the text. -/
theorem label?_eq_some_iff {text : List Char} {start stop : Nat} :
    label? text = some (start, stop) ↔
      (text.takeWhile Text.isBlank).length = start ∧ start < stop ∧
        ((text.drop start).takeWhile isLabelChar).length = stop - start ∧ text[stop]? = some ':' := by
  simp only [label?, List.head?_drop]
  constructor
  · intro h
    split at h
    · rename_i hhere
      simp only [Option.some.injEq, Prod.mk.injEq] at h
      obtain ⟨rfl, rfl⟩ := h
      exact ⟨rfl, by omega, by omega, hhere.2⟩
    · cases h
  · rintro ⟨rfl, hlt, hrun, hcolon⟩
    rw [hrun, show (text.takeWhile Text.isBlank).length +
      (stop - (text.takeWhile Text.isBlank).length) = stop by omega, if_pos ⟨by omega, hcolon⟩]

/-- The standard rules propose only regions that are not empty and lie inside the text. -/
theorem standard_inRange (text : List Char) : InRange Rule.standard text := by
  intro rule hrule candidate hcandidate
  simp only [Rule.standard, List.mem_cons, List.not_mem_nil, or_false] at hrule
  rcases hrule with rfl | rfl | rfl | rfl | rfl | rfl | rfl
  · exact scan_inRange lineNumberAt_bounded hcandidate
  · exact scan_inRange wordAt_bounded (List.mem_of_mem_filter hcandidate)
  · exact scan_inRange jumpTargetAt_bounded hcandidate
  · obtain ⟨_, hlt, _, hcolon⟩ := label?_eq_some_iff.mp (Option.mem_toList.mp hcandidate)
    exact ⟨hlt, Nat.le_of_lt (List.getElem?_eq_some_iff.mp hcolon).1⟩
  · exact scan_inRange byteAfterBarAt_bounded hcandidate
  · exact scan_inRange byteBeforeBarAt_bounded hcandidate
  · exact scan_inRange labelRefAt_bounded hcandidate

theorem classify_ordered (marker : Char) (sourceInComments : Bool) (text : List Char) :
    Ordered 0 text.length (classify [marker] sourceInComments text) :=
  classifyWith_ordered sourceInComments (standard_inRange _)

end ListingEditor.Listing
