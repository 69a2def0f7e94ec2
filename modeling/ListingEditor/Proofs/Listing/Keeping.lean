import ListingEditor.Listing.Classify
import Mathlib.Data.List.Pairwise

/-!
Which of the proposed regions are kept. However much the proposals of the rules overlap, the regions that
have been kept never do; a rule whose own proposals lie apart loses one only to an earlier rule.
-/

namespace ListingEditor.Listing

/-- Two regions that share no character. -/
def Span.Apart (a b : Span) : Prop := a.stop ≤ b.start ∨ b.stop ≤ a.start

theorem Span.Apart.symm {a b : Span} (hapart : a.Apart b) : b.Apart a := Or.symm hapart

theorem Span.overlaps_eq_false_iff {a b : Span} : a.overlaps b.start b.stop = false ↔ a.Apart b := by
  simp only [overlaps, Bool.and_eq_false_iff, decide_eq_false_iff_not, Span.Apart]
  omega

/-- The region of a category from the first place of a pair up to the second. -/
def Category.region (category : Category) (candidate : Nat × Nat) : Span :=
  ⟨candidate.1, candidate.2, category⟩

/-- A region that one of the rules proposes for a text. -/
def Proposed (rules : List Rule) (text : List Char) (span : Span) : Prop :=
  ∃ rule ∈ rules, ∃ candidate ∈ rule.candidates text, span = rule.category.region candidate

/-- A proposal is added exactly when it lies apart from everything that has been kept. -/
theorem mem_keep_iff {category : Category} {kept : List Span} {candidate : Nat × Nat} {span : Span} :
    span ∈ keep category kept candidate ↔ span ∈ kept ∨
      span = category.region candidate ∧ ∀ other ∈ kept, other.Apart (category.region candidate) := by
  have hany : kept.any (·.overlaps candidate.1 candidate.2) = false ↔
      ∀ other ∈ kept, other.Apart (category.region candidate) := by
    simp only [List.any_eq_false, ← Span.overlaps_eq_false_iff, Bool.not_eq_true]
    rfl
  unfold keep
  split
  · rename_i hoverlap
    rw [← hany, hoverlap]
    simp
  · rename_i hfree
    have hapart := hany.1 (by simpa using hfree)
    simp only [List.mem_append, List.mem_singleton]
    exact or_congr_right ⟨fun hspan => ⟨hspan, hapart⟩, fun hspan => hspan.1⟩

theorem keep_pairwise_apart {category : Category} {kept : List Span} (candidate : Nat × Nat)
    (hkept : kept.Pairwise Span.Apart) : (keep category kept candidate).Pairwise Span.Apart := by
  unfold keep
  split
  · exact hkept
  · rename_i hfree
    refine List.pairwise_append.mpr ⟨hkept, List.pairwise_singleton _ _, ?_⟩
    intro other hother span hspan
    rw [List.mem_singleton.mp hspan]
    apply Span.overlaps_eq_false_iff.mp
    by_contra hoverlap
    exact hfree (List.any_eq_true.mpr ⟨other, hother, by simpa using hoverlap⟩)

theorem foldl_keep_pairwise_apart {category : Category} (candidates : List (Nat × Nat))
    {kept : List Span} (hkept : kept.Pairwise Span.Apart) :
    (candidates.foldl (keep category) kept).Pairwise Span.Apart := by
  induction candidates generalizing kept with
  | nil => exact hkept
  | cons candidate candidates ih => exact ih (keep_pairwise_apart candidate hkept)

/-- Whatever the rules propose, no two of the regions that are kept share a character. -/
theorem foldl_applyRule_pairwise_apart (text : List Char) (rules : List Rule) {kept : List Span}
    (hkept : kept.Pairwise Span.Apart) :
    (rules.foldl (applyRule text) kept).Pairwise Span.Apart := by
  induction rules generalizing kept with
  | nil => exact hkept
  | cons rule rules ih => exact ih (foldl_keep_pairwise_apart (rule.candidates text) hkept)

theorem mem_of_mem_foldl_keep {category : Category} {candidates : List (Nat × Nat)}
    {kept : List Span} {span : Span} (hspan : span ∈ candidates.foldl (keep category) kept) :
    span ∈ kept ∨ ∃ candidate ∈ candidates, span = category.region candidate := by
  induction candidates generalizing kept with
  | nil => exact .inl hspan
  | cons candidate candidates ih =>
    rcases ih hspan with hkept | ⟨later, hlater, heq⟩
    · rcases mem_keep_iff.mp hkept with hold | ⟨heq, _⟩
      · exact .inl hold
      · exact .inr ⟨candidate, by simp, heq⟩
    · exact .inr ⟨later, by simp [hlater], heq⟩

theorem mem_foldl_keep_of_mem {category : Category} {candidates : List (Nat × Nat)}
    {kept : List Span} {span : Span} (hspan : span ∈ kept) :
    span ∈ candidates.foldl (keep category) kept := by
  induction candidates generalizing kept with
  | nil => exact hspan
  | cons candidate candidates ih => exact ih (mem_keep_iff.mpr (.inl hspan))

theorem proposed_of_mem_foldl_applyRule {text : List Char} {rules : List Rule} {kept : List Span}
    {span : Span} (hspan : span ∈ rules.foldl (applyRule text) kept) :
    span ∈ kept ∨ Proposed rules text span := by
  induction rules generalizing kept with
  | nil => exact .inl hspan
  | cons rule rules ih =>
    rcases ih hspan with hkept | ⟨later, hlater, hproposal⟩
    · rcases mem_of_mem_foldl_keep hkept with hold | hproposal
      · exact .inl hold
      · exact .inr ⟨rule, by simp, hproposal⟩
    · exact .inr ⟨later, by simp [hlater], hproposal⟩

theorem proposed_of_mem_ruleSpans {text : List Char} {rules : List Rule} {span : Span}
    (hspan : span ∈ ruleSpans rules text) : Proposed rules text span := by
  rw [ruleSpans, List.mem_mergeSort] at hspan
  rcases proposed_of_mem_foldl_applyRule hspan with hnone | hproposed
  · cases hnone
  · exact hproposed

/-- Proposals that lie apart from each other do not compete: each of them is kept unless it overlaps
something that was kept before. -/
theorem mem_foldl_keep_iff {category : Category} {candidates : List (Nat × Nat)} {kept : List Span}
    (hapart : candidates.Pairwise fun c d => (category.region c).Apart (category.region d)) {span : Span} :
    span ∈ candidates.foldl (keep category) kept ↔ span ∈ kept ∨
      (∃ candidate ∈ candidates, span = category.region candidate) ∧
        ∀ other ∈ kept, other.Apart span := by
  induction candidates generalizing kept with
  | nil => simp
  | cons candidate candidates ih =>
    obtain ⟨hfirst, hrest⟩ := List.pairwise_cons.mp hapart
    rw [List.foldl_cons, ih hrest, mem_keep_iff]
    constructor
    · rintro ((hold | ⟨rfl, hfree⟩) | ⟨⟨later, hlater, heq⟩, hfree⟩)
      · exact .inl hold
      · exact .inr ⟨⟨candidate, by simp, rfl⟩, hfree⟩
      · refine .inr ⟨⟨later, by simp [hlater], heq⟩, fun other hother => hfree other ?_⟩
        exact mem_keep_iff.mpr (.inl hother)
    · rintro (hold | ⟨⟨chosen, hchosen, rfl⟩, hfree⟩)
      · exact .inl (.inl hold)
      · rcases List.mem_cons.mp hchosen with rfl | hlater
        · exact .inl (.inr ⟨rfl, hfree⟩)
        · refine .inr ⟨⟨chosen, hlater, rfl⟩, ?_⟩
          intro other hother
          rcases mem_keep_iff.mp hother with hold | ⟨rfl, _⟩
          · exact hfree other hold
          · exact hfirst chosen hlater

/-- No standard rule has a category of comments. -/
theorem standard_category_ne {rule : Rule} (hrule : rule ∈ Rule.standard) :
    rule.category ≠ .comment ∧ rule.category ≠ .source := by
  have hnever : ∀ category ∈ Rule.standard.map (·.category), category ≠ .comment ∧ category ≠ .source := by decide
  exact hnever rule.category (List.mem_map_of_mem hrule)

theorem ruleSpans_sorted (rules : List Rule) (text : List Char) :
    (ruleSpans rules text).Pairwise fun a b => a.start ≤ b.start := by
  have hsorted : (ruleSpans rules text).Pairwise fun a b => decide (a.start ≤ b.start) = true :=
    List.pairwise_mergeSort (by simp only [decide_eq_true_eq]; omega)
      (by simp only [Bool.or_eq_true, decide_eq_true_eq]; omega) _
  exact hsorted.imp of_decide_eq_true

/-- Sorting puts regions that lie apart and are not empty one behind the other. -/
theorem ruleSpans_pairwise {rules : List Rule} {text : List Char}
    (hproper : ∀ span, Proposed rules text span → span.start < span.stop) :
    (ruleSpans rules text).Pairwise fun a b => a.stop ≤ b.start := by
  have hapart : (ruleSpans rules text).Pairwise Span.Apart :=
    (List.mergeSort_perm _ _).symm.pairwise (foldl_applyRule_pairwise_apart text rules .nil)
      Span.Apart.symm
  refine ((ruleSpans_sorted rules text).and hapart).imp_of_mem ?_
  intro a b ha hb ⟨horder, hab⟩
  have hb := hproper b (proposed_of_mem_ruleSpans hb)
  rcases hab with hab | hba <;> omega

end ListingEditor.Listing
