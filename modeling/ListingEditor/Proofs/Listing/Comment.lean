import ListingEditor.Listing.Classify
import Mathlib.Data.List.Basic

/-!
Where a comment starts, and how its regions cover the rest of the line.
-/

namespace ListingEditor.Listing

/-- A comment that is found starts with the marker, at an offset inside the line. -/
theorem marker_of_commentStartFrom {marker rest : List Char} {escaped : Bool} {offset k : Nat}
    (hfound : commentStartFrom marker escaped offset rest = some k) :
    ∃ front, offset + front.length = k ∧ front ++ marker <+: rest := by
  induction rest generalizing escaped offset with
  | nil =>
    rw [commentStartFrom] at hfound
    split at hfound
    · rename_i hhere
      simp only [Bool.and_eq_true, List.isPrefixOf_iff_prefix] at hhere
      exact ⟨[], by simpa using hfound, by simpa using hhere.2⟩
    · cases hfound
  | cons c rest ih =>
    rw [commentStartFrom] at hfound
    split at hfound
    · rename_i hhere
      simp only [Bool.and_eq_true, List.isPrefixOf_iff_prefix] at hhere
      exact ⟨[], by simpa using hfound, by simpa using hhere.2⟩
    · obtain ⟨front, hoffset, hprefix⟩ := ih hfound
      exact ⟨c :: front, by simp only [List.length_cons]; omega, by simpa using hprefix⟩

/-- A one-character marker stands where the comment starts. -/
theorem drop_commentStart {marker : Char} {text : List Char} {k : Nat}
    (hfound : commentStart? [marker] text = some k) :
    ∃ body, text.drop k = marker :: body := by
  obtain ⟨front, hoffset, body, htext⟩ := marker_of_commentStartFrom hfound
  refine ⟨body, ?_⟩
  have hlength : front.length = k := by omega
  rw [← htext, ← hlength]
  simp

theorem commentStart_lt_length {marker : Char} {text : List Char} {k : Nat}
    (hfound : commentStart? [marker] text = some k) : k < text.length := by
  obtain ⟨body, hdrop⟩ := drop_commentStart hfound
  have hlength := congrArg List.length hdrop
  simp only [List.length_drop, List.length_cons] at hlength
  omega

theorem code_of_commentStart {marker : List Char} {text : List Char} {k : Nat}
    (hfound : commentStart? marker text = some k) : code marker text = text.take k := by
  simp only [code, hfound]

theorem code_of_no_comment {marker text : List Char} (hnone : commentStart? marker text = none) :
    code marker text = text := by
  simp only [code, hnone]

/-- The marker itself belongs to the lead of a comment, so the lead is never empty. -/
theorem commentLead_pos (marker : Char) (body : List Char) :
    0 < commentLead [marker] (marker :: body) := by
  have hmarkers := (body.dropWhile_sublist fun c => [marker] == [c]).length_le
  have hblanks := ((body.dropWhile fun c => [marker] == [c]).dropWhile_sublist Text.isBlank).length_le
  simp only [commentLead, List.dropWhile_cons, beq_self_eq_true, if_true, List.length_cons]
  omega

/-- The regions of a comment tile the rest of the line: all of it is comment, or a comment that is not
empty goes over into a source that is not empty. -/
theorem commentSpans_tile {marker : Char} {text : List Char} {k : Nat} (sourceInComments : Bool)
    (hfound : commentStart? [marker] text = some k) :
    commentSpans [marker] text sourceInComments k = [⟨k, text.length, .comment⟩] ∨
      sourceInComments = true ∧ ∃ body : Nat, k < body ∧ body < text.length ∧
        commentSpans [marker] text sourceInComments k =
          [⟨k, body, .comment⟩, ⟨body, text.length, .source⟩] := by
  obtain ⟨rest, hdrop⟩ := drop_commentStart hfound
  have hlead := commentLead_pos marker rest
  by_cases hsource : (sourceInComments && k + commentLead [marker] (text.drop k) < text.length) = true
  · right
    have hbody : sourceInComments = true ∧ k + commentLead [marker] (text.drop k) < text.length := by
      simpa only [Bool.and_eq_true, decide_eq_true_eq] using hsource
    refine ⟨hbody.1, k + commentLead [marker] (text.drop k), ?_, hbody.2, ?_⟩
    · rw [hdrop]
      omega
    · simp only [commentSpans, if_pos hsource]
  · left
    simp only [commentSpans, if_neg hsource]

end ListingEditor.Listing
