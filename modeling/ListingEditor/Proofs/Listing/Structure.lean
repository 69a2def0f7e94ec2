import ListingEditor.Proofs.Listing.Comment
import ListingEditor.Proofs.Listing.Keeping

/-!
The structure of a classified line. Whatever the rules propose, the regions stand one behind the other, none
of them is empty, and a comment takes exactly what is behind the last region that a rule has found.
-/

namespace ListingEditor.Listing

/-- Regions one behind the other between two places, none of them empty. -/
def Ordered (start stop : Int) : List Span → Prop
  | [] => start ≤ stop
  | span :: spans => start ≤ span.start ∧ span.start < span.stop ∧ Ordered span.stop stop spans

theorem Ordered.le {start stop : Int} {spans : List Span} (hordered : Ordered start stop spans) :
    start ≤ stop := by
  induction spans generalizing start with
  | nil => exact hordered
  | cons span spans ih =>
    obtain ⟨hstart, hproper, hrest⟩ := hordered
    have hstop := ih hrest
    omega

theorem Ordered.weaken {start start' stop stop' : Int} {spans : List Span}
    (hordered : Ordered start stop spans) (hstart : start' ≤ start) (hstop : stop ≤ stop') :
    Ordered start' stop' spans := by
  induction spans generalizing start start' with
  | nil => exact Int.le_trans hstart (Int.le_trans hordered hstop)
  | cons span spans ih =>
    obtain ⟨hlower, hproper, hrest⟩ := hordered
    exact ⟨by omega, hproper, ih hrest (Int.le_refl _)⟩

theorem Ordered.append {start middle stop : Int} {front rear : List Span}
    (hfront : Ordered start middle front) (hrear : Ordered middle stop rear) :
    Ordered start stop (front ++ rear) := by
  induction front generalizing start with
  | nil => exact hrear.weaken hfront (Int.le_refl _)
  | cons span spans ih =>
    obtain ⟨hlower, hproper, hrest⟩ := hfront
    exact ⟨hlower, hproper, ih hrest⟩

theorem Ordered.shift {start stop : Int} {spans : List Span} (hordered : Ordered start stop spans)
    (distance : Int) : Ordered (start + distance) (stop + distance) (spans.map (·.shift distance)) := by
  induction spans generalizing start with
  | nil =>
    have hle : start ≤ stop := hordered
    exact Int.add_le_add_right hle distance
  | cons span spans ih =>
    obtain ⟨hlower, hproper, hrest⟩ := hordered
    refine ⟨?_, ?_, ih hrest⟩ <;> simp only [Span.shift] <;> omega

/-- Regions in order lie between the two places. -/
theorem Ordered.bounds {start stop : Int} {spans : List Span} (hordered : Ordered start stop spans) :
    ∀ span ∈ spans, start ≤ span.start ∧ span.start < span.stop ∧ span.stop ≤ stop := by
  induction spans generalizing start with
  | nil => simp
  | cons first spans ih =>
    obtain ⟨hlower, hproper, hrest⟩ := hordered
    intro span hspan
    rcases List.mem_cons.mp hspan with rfl | hlater
    · exact ⟨hlower, hproper, hrest.le⟩
    · obtain ⟨hstart, hnonempty, hstop⟩ := ih hrest span hlater
      exact ⟨by omega, hnonempty, hstop⟩

theorem Ordered.pairwise {start stop : Int} {spans : List Span} (hordered : Ordered start stop spans) :
    spans.Pairwise fun a b => a.start < b.start ∧ a.overlaps b.start b.stop = false := by
  induction spans generalizing start with
  | nil => exact .nil
  | cons first spans ih =>
    obtain ⟨hlower, hproper, hrest⟩ := hordered
    refine List.pairwise_cons.mpr ⟨?_, ih hrest⟩
    intro span hspan
    obtain ⟨hstart, _, _⟩ := hrest.bounds span hspan
    exact ⟨by omega, Span.overlaps_eq_false_iff.mpr (.inl hstart)⟩

theorem ordered_of_pairwise {start stop : Int} {spans : List Span} (hle : start ≤ stop)
    (hbounds : ∀ span ∈ spans, start ≤ span.start ∧ span.start < span.stop ∧ span.stop ≤ stop)
    (hpairwise : spans.Pairwise fun a b => a.stop ≤ b.start) : Ordered start stop spans := by
  induction spans generalizing start with
  | nil => exact hle
  | cons first spans ih =>
    obtain ⟨hfirst, hrest⟩ := List.pairwise_cons.mp hpairwise
    obtain ⟨hlower, hproper, hupper⟩ := hbounds first (by simp)
    refine ⟨hlower, hproper, ih hupper ?_ hrest⟩
    intro span hspan
    obtain ⟨_, hnonempty, hstop⟩ := hbounds span (by simp [hspan])
    exact ⟨hfirst span hspan, hnonempty, hstop⟩

/-- Every rule proposes only regions of a text that are not empty and lie inside it. -/
def InRange (rules : List Rule) (text : List Char) : Prop :=
  ∀ rule ∈ rules, ∀ candidate ∈ rule.candidates text,
    candidate.1 < candidate.2 ∧ candidate.2 ≤ text.length

theorem InRange.bounds {rules : List Rule} {text : List Char} {span : Span}
    (hrules : InRange rules text) (hspan : Proposed rules text span) :
    0 ≤ span.start ∧ span.start < span.stop ∧ span.stop ≤ text.length := by
  obtain ⟨rule, hrule, candidate, hcandidate, rfl⟩ := hspan
  obtain ⟨hproper, hinside⟩ := hrules rule hrule candidate hcandidate
  simp only [Category.region]
  omega

theorem ruleSpans_ordered {rules : List Rule} {text : List Char} (hrules : InRange rules text) :
    Ordered 0 text.length (ruleSpans rules text) :=
  ordered_of_pairwise (by omega) (fun _ hspan => hrules.bounds (proposed_of_mem_ruleSpans hspan))
    (ruleSpans_pairwise fun _ hspan => (hrules.bounds hspan).2.1)

theorem commentSpans_ordered {marker : Char} {text : List Char} {k : Nat} (sourceInComments : Bool)
    (hfound : commentStart? [marker] text = some k) :
    Ordered k text.length (commentSpans [marker] text sourceInComments k) := by
  have hinside := commentStart_lt_length hfound
  rcases commentSpans_tile sourceInComments hfound with hall | ⟨_, body, hbody, hrest, hsplit⟩
  · rw [hall]
    exact ⟨Int.le_refl _, by simpa using hinside, Int.le_refl _⟩
  · rw [hsplit]
    exact ⟨Int.le_refl _, by simpa using hbody, Int.le_refl _, by simpa using hrest, Int.le_refl _⟩

/-- The regions of a line stand in order between its two ends. -/
theorem classifyWith_ordered {rules : List Rule} {marker : Char} {text : List Char}
    (sourceInComments : Bool) (hrules : InRange rules (code [marker] text)) :
    Ordered 0 text.length (classifyWith rules [marker] sourceInComments text) := by
  unfold classifyWith
  split
  · rename_i k hfound
    rw [code_of_commentStart hfound] at hrules
    have hinside := commentStart_lt_length hfound
    have hfront := ruleSpans_ordered hrules
    rw [List.length_take, Nat.min_eq_left (Nat.le_of_lt hinside)] at hfront
    exact hfront.append (commentSpans_ordered sourceInComments hfound)
  · rename_i hnone
    rw [code_of_no_comment hnone] at hrules
    exact ruleSpans_ordered hrules

/-- The structure of a classified line. The regions start in rising order, do not overlap, are not empty
and lie inside the line. In front of a comment they all come from rules and stop before it, and the comment,
with the source in it if that is asked for, tiles the rest of the line; without a comment they all come
from rules. -/
theorem classifyWith_structure (rules : List Rule) (marker : Char) (sourceInComments : Bool)
    (text : List Char) (hrules : InRange rules (code [marker] text)) :
    ((classifyWith rules [marker] sourceInComments text).Pairwise fun a b =>
        a.start < b.start ∧ a.overlaps b.start b.stop = false) ∧
      (∀ span ∈ classifyWith rules [marker] sourceInComments text,
        0 ≤ span.start ∧ span.start < span.stop ∧ span.stop ≤ text.length) ∧
      (∀ k, commentStart? [marker] text = some k →
        ∃ front tail, classifyWith rules [marker] sourceInComments text = front ++ tail ∧
          (∀ span ∈ front, Proposed rules (text.take k) span ∧ span.stop ≤ k) ∧
          (tail = [⟨k, text.length, .comment⟩] ∨
            sourceInComments = true ∧ ∃ body : Nat, k < body ∧ body < text.length ∧
              tail = [⟨k, body, .comment⟩, ⟨body, text.length, .source⟩])) ∧
      (commentStart? [marker] text = none →
        ∀ span ∈ classifyWith rules [marker] sourceInComments text, Proposed rules text span) := by
  have hordered := classifyWith_ordered sourceInComments hrules
  refine ⟨hordered.pairwise, hordered.bounds, ?_, ?_⟩
  · intro k hfound
    rw [code_of_commentStart hfound] at hrules
    refine ⟨ruleSpans rules (text.take k), commentSpans [marker] text sourceInComments k, ?_, ?_,
      commentSpans_tile sourceInComments hfound⟩
    · simp only [classifyWith, hfound]
    · intro span hspan
      have hproposed := proposed_of_mem_ruleSpans hspan
      have hstop := (hrules.bounds hproposed).2.2
      rw [List.length_take] at hstop
      exact ⟨hproposed, by omega⟩
  · intro hnone span hspan
    simp only [classifyWith, hnone] at hspan
    exact proposed_of_mem_ruleSpans hspan

/-- Two rules whose proposals overlap their own and each other's. -/
def clashingRules : List Rule :=
  [⟨"", .custom "first", fun _ => [(2, 4), (0, 3), (0, 1)]⟩,
    ⟨"", .custom "second", fun _ => [(3, 5), (1, 2), (4, 5)]⟩]

theorem classifyWith_structure_clashingRules :
    InRange clashingRules (code ['#'] ['a', 'b', 'c', 'd', 'e', '#', ' ', 'x']) ∧
      commentStart? ['#'] ['a', 'b', 'c', 'd', 'e', '#', ' ', 'x'] = some 5 ∧
      ∃ front tail,
        classifyWith clashingRules ['#'] true ['a', 'b', 'c', 'd', 'e', '#', ' ', 'x'] = front ++ tail ∧
        (∀ span ∈ front,
          Proposed clashingRules ['a', 'b', 'c', 'd', 'e'] span ∧ span.stop ≤ (5 : Nat)) ∧
        (tail = [⟨5, 8, .comment⟩] ∨
          true = true ∧ ∃ body : Nat, 5 < body ∧ body < 8 ∧
            tail = [⟨5, body, .comment⟩, ⟨body, 8, .source⟩]) := by
  have hrules : InRange clashingRules (code ['#'] ['a', 'b', 'c', 'd', 'e', '#', ' ', 'x']) := by
    unfold InRange
    decide
  have hcomment : commentStart? ['#'] ['a', 'b', 'c', 'd', 'e', '#', ' ', 'x'] = some 5 := by decide
  exact ⟨hrules, hcomment,
    (classifyWith_structure clashingRules '#' true _ hrules).2.2.1 5 hcomment⟩

end ListingEditor.Listing
