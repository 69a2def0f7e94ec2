import ListingEditor.Proofs.Listing.Keeping

/-!
What a comment says has no influence on the line in front of it. The regions of the code are those it has without the
comment, and the comment adds a tail that depends on its own characters only.
-/

namespace ListingEditor.Listing

/-- A marker that no backslash stands before starts the comment, if none in front of it does. -/
theorem commentStartFrom_append {marker : Char} {front : List Char} {escaped : Bool} {offset : Nat}
    (hnone : commentStartFrom [marker] escaped offset front = none) (hescaped : front = [] → escaped = false)
    (hlast : front.getLast? ≠ some '\\') (body : List Char) :
    commentStartFrom [marker] escaped offset (front ++ marker :: body) = some (offset + front.length) := by
  induction front generalizing escaped offset with
  | nil =>
    rw [hescaped rfl, List.nil_append, commentStartFrom]
    simp
  | cons c front ih =>
    have hhere (rest : List Char) : [marker].isPrefixOf (c :: rest) = (marker == c) := by
      simp [List.isPrefixOf]
    rw [commentStartFrom, hhere] at hnone
    rw [List.cons_append, commentStartFrom, hhere]
    split at hnone
    · cases hnone
    · rename_i hgoes
      rw [if_neg hgoes]
      have hnext : front = [] → (c == '\\') = false := by
        rintro rfl
        simpa using hlast
      have hrest : front.getLast? ≠ some '\\' := by
        intro hend
        apply hlast
        rw [List.getLast?_cons, hend, Option.getD_some]
      rw [ih hnone hnext hrest, List.length_cons, Nat.add_right_comm, Nat.add_assoc]

theorem commentStart?_append {marker : Char} {front : List Char} (hnone : commentStart? [marker] front = none)
    (hlast : front.getLast? ≠ some '\\') (body : List Char) :
    commentStart? [marker] (front ++ marker :: body) = some front.length := by
  have hfound := commentStartFrom_append hnone (fun _ => rfl) hlast body
  rwa [Nat.zero_add] at hfound

/-- How often the marker stands at the start of a comment. -/
def markerRun (marker : Char) (comment : List Char) : Nat := (comment.takeWhile (· == marker)).length

/-- How many blanks stand behind the repeated marker of a comment. -/
def blankRun (marker : Char) (comment : List Char) : Nat :=
  ((comment.dropWhile (· == marker)).takeWhile Text.isBlank).length

theorem commentLead_eq (marker : Char) (comment : List Char) :
    commentLead [marker] comment = markerRun marker comment + blankRun marker comment := by
  have hkind : (fun c => [marker] == [c]) = (· == marker) := by
    funext c
    simp [eq_comm]
  have hlength (kind : Char → Bool) (text : List Char) :
      (text.takeWhile kind).length + (text.dropWhile kind).length = text.length := by
    rw [← List.length_append, List.takeWhile_append_dropWhile]
  have hmarkers := hlength (· == marker) comment
  have hblanks := hlength Text.isBlank (comment.dropWhile (· == marker))
  simp only [commentLead, hkind, markerRun, blankRun]
  omega

theorem markerRun_add_blankRun_le (marker : Char) (comment : List Char) :
    markerRun marker comment + blankRun marker comment ≤ comment.length := by
  rw [← commentLead_eq]
  exact Nat.sub_le _ _

/-- Gives the source that a comment goes over into back to the comment. -/
def joinSource : List Span → List Span
  | a :: b :: rest =>
    if a.category = .comment ∧ b.category = .source ∧ a.stop = b.start then
      ⟨a.start, b.stop, .comment⟩ :: joinSource rest
    else a :: joinSource (b :: rest)
  | spans => spans

theorem joinSource_append {front : List Span} (hfront : ∀ span ∈ front, span.category ≠ .comment)
    (rear : List Span) : joinSource (front ++ rear) = front ++ joinSource rear := by
  induction front with
  | nil => rfl
  | cons span front ih =>
    obtain ⟨hspan, hrest⟩ := List.forall_mem_cons.mp hfront
    cases hnext : front ++ rear with
    | nil =>
      obtain ⟨rfl, rfl⟩ := List.append_eq_nil_iff.mp hnext
      rfl
    | cons next later =>
      rw [List.cons_append, hnext, joinSource, if_neg fun hjoin => hspan hjoin.1, ← hnext, ih hrest, List.cons_append]

theorem joinSource_commentSpans (marker text : List Char) (start : Nat) :
    joinSource (commentSpans marker text true start) = commentSpans marker text false start := by
  simp only [commentSpans, Bool.true_and, Bool.false_and]
  split <;> simp [joinSource]

theorem category_ne_comment_of_mem_ruleSpans {text : List Char} {span : Span}
    (hspan : span ∈ ruleSpans Rule.standard text) : span.category ≠ .comment := by
  obtain ⟨rule, hrule, candidate, -, rfl⟩ := proposed_of_mem_ruleSpans hspan
  exact (standard_category_ne hrule).1

/-- Whether the source in comments is asked for or not changes nothing but where a comment is divided. -/
theorem joinSource_classify (marker text : List Char) :
    joinSource (classify marker true text) = classify marker false text := by
  unfold classify classifyWith
  split
  · rw [joinSource_append fun _ => category_ne_comment_of_mem_ruleSpans, joinSource_commentSpans]
  · have hrules : ∀ span ∈ ruleSpans Rule.standard text, span.category ≠ .comment :=
      fun _ => category_ne_comment_of_mem_ruleSpans
    simpa only [List.append_nil, joinSource] using joinSource_append hrules []

/-- What a comment says has no influence on the code in front of it. The line has the regions of its code, and behind
them the comment, which reaches the end of the line; where the source in it is asked for and there is any, the
comment ends with the blanks behind its repeated marker. -/
theorem classify_append_comment {marker : Char} {front : List Char} (hnone : commentStart? [marker] front = none)
    (hlast : front.getLast? ≠ some '\\') (body : List Char) :
    let text := front ++ marker :: body
    let place := front.length + markerRun marker (marker :: body) + blankRun marker (marker :: body)
    (∀ flag, classify [marker] false text = classify [marker] flag front ++ [⟨front.length, text.length, .comment⟩]) ∧
      (∀ flag, classify [marker] true text = classify [marker] flag front ++
        if place = text.length then [⟨front.length, text.length, .comment⟩]
        else [⟨front.length, place, .comment⟩, ⟨place, text.length, .source⟩]) ∧
      joinSource (classify [marker] true text) = classify [marker] false text := by
  intro text place
  have hcode (flag : Bool) : classify [marker] flag front = ruleSpans Rule.standard front := by
    simp only [classify, classifyWith, hnone]
  have hline (flag : Bool) : classify [marker] flag text =
      ruleSpans Rule.standard front ++ commentSpans [marker] text flag front.length := by
    simp only [classify, classifyWith, text, commentStart?_append hnone hlast, List.take_left]
  have hplace : front.length + commentLead [marker] (text.drop front.length) = place := by
    rw [List.drop_left, commentLead_eq, ← Nat.add_assoc]
  have hinside : place ≤ text.length := by
    have hlead := markerRun_add_blankRun_le marker (marker :: body)
    simp only [place, text, List.length_append]
    omega
  refine ⟨fun flag => ?_, fun flag => ?_, joinSource_classify [marker] text⟩
  · rw [hline, hcode, commentSpans, Bool.false_and, if_neg (by decide)]
  · rw [hline, hcode, commentSpans, hplace, Bool.true_and]
    simp only [decide_eq_true_eq]
    by_cases hnothing : place = text.length
    · rw [if_neg (by omega), if_pos hnothing]
    · rw [if_pos (by omega), if_neg hnothing]

/-- A name, and a marker that a backslash stands before. -/
def escapedMarker : List Char := ['N', 'O', 'P', ' ', '\\', '#']

theorem classify_append_comment_escapedMarker :
    commentStart? ['#'] escapedMarker = none ∧ escapedMarker.getLast? ≠ some '\\' ∧
      classify ['#'] true (escapedMarker ++ ['#', '#', ' ', 'x', '#']) =
        classify ['#'] false escapedMarker ++ [⟨6, 9, .comment⟩, ⟨9, 11, .source⟩] := by
  have hnone : commentStart? ['#'] escapedMarker = none := by decide
  have hlast : escapedMarker.getLast? ≠ some '\\' := by decide
  exact ⟨hnone, hlast, (classify_append_comment hnone hlast ['#', ' ', 'x', '#']).2.1 false⟩

end ListingEditor.Listing
