import ListingEditor.Proofs.Listing.Operand
import ListingEditor.Proofs.Text.Blank

/-!
Blanks in front of a line move its regions along. The one thing they can add is the line number with which the text
behind them starts, for a number must have a space in front of it; and no other region ever gives way to that one.
-/

namespace ListingEditor.Listing

open Text (AllBlank isBlank)

/-- A pair of places moved along the text. -/
def moved (distance : Nat) (candidate : Nat × Nat) : Nat × Nat := (candidate.1 + distance, candidate.2 + distance)

theorem Category.region_moved (category : Category) (distance : Nat) (candidate : Nat × Nat) :
    category.region (moved distance candidate) = (category.region candidate).shift distance := by
  simp [Category.region, moved, Span.shift]

theorem Span.overlaps_moved (span : Span) (distance : Nat) (candidate : Nat × Nat) :
    (span.shift distance).overlaps (moved distance candidate).1 (moved distance candidate).2 =
      span.overlaps candidate.1 candidate.2 := by
  simp [Span.overlaps, Span.shift, moved]

/-- A recognizer that recognizes nothing that starts with a blank. -/
def Recognizer.SkipsBlanks (recognize : Recognizer) : Prop :=
  ∀ previous c rest, isBlank c = true → recognize previous (c :: rest) = none

/-- A recognizer to which a blank in front of a place is the start of the text. -/
def Recognizer.IgnoresBlank (recognize : Recognizer) : Prop :=
  ∀ c text, isBlank c = true → recognize (some c) text = recognize none text

section Scan

variable {recognize : Recognizer}

theorem scanFrom_append_blanks (hskips : recognize.SkipsBlanks) {blanks : List Char} (hblank : AllBlank blanks)
    (previous : Option Char) (offset : Nat) (text : List Char) :
    scanFrom recognize 0 previous offset (blanks ++ text) =
      scanFrom recognize 0 (blanks.getLast?.or previous) (offset + blanks.length) text := by
  induction blanks generalizing previous offset with
  | nil => rfl
  | cons c blanks ih =>
    obtain ⟨hc, hrest⟩ := List.forall_mem_cons.mp hblank
    have hlast : (c :: blanks).getLast?.or previous = blanks.getLast?.or (some c) := by
      rw [List.getLast?_cons]
      cases blanks.getLast? <;> rfl
    rw [List.cons_append, scanFrom, if_pos rfl, hskips _ _ _ hc, hlast, List.length_cons, ← Nat.add_assoc,
      Nat.add_right_comm]
    exact ih hrest (some c) (offset + 1)

theorem scanFrom_moved (recognize : Recognizer) (skip : Nat) (previous : Option Char) (offset distance : Nat)
    (text : List Char) :
    scanFrom recognize skip previous (offset + distance) text =
      (scanFrom recognize skip previous offset text).map (moved distance) := by
  induction text generalizing skip previous offset with
  | nil => rfl
  | cons c text ih =>
    have hnext (skip : Nat) := ih skip (some c) (offset + 1)
    rw [Nat.add_right_comm] at hnext
    simp only [scanFrom, hnext]
    split
    · split
      · simp [moved, Nat.add_right_comm]
      · rfl
    · rfl

/-- A scan looks at the character before the text once, at the start. -/
theorem scanFrom_congr {previous other : Option Char} {text : List Char}
    (hsame : recognize previous text = recognize other text) (skip offset : Nat) :
    scanFrom recognize skip previous offset text = scanFrom recognize skip other offset text := by
  cases text with
  | nil => rfl
  | cons c text => simp only [scanFrom, hsame]

/-- Skipping places where nothing is recognized makes no difference. -/
theorem scanFrom_skip {skip : Nat} {previous : Option Char} {text : List Char}
    (hnone : ∀ i < skip, recognize (charBefore previous text i) (text.drop i) = none) (offset : Nat) :
    scanFrom recognize skip previous offset text = scanFrom recognize 0 previous offset text := by
  induction text generalizing skip previous offset with
  | nil => rfl
  | cons c text ih =>
    cases skip with
    | zero => rfl
    | succ skip =>
      have hhere : recognize previous (c :: text) = none := hnone 0 (Nat.succ_pos skip)
      have hrest : ∀ i < skip, recognize (charBefore (some c) text i) (text.drop i) = none := by
        intro i hi
        have hlater := hnone (i + 1) (by omega)
        rwa [charBefore_cons_succ, List.drop_succ_cons] at hlater
      rw [scanFrom, if_neg (by omega), Nat.add_sub_cancel, ih hrest, scanFrom, if_pos rfl, hhere]

theorem scan_append_blanks (hskips : recognize.SkipsBlanks) (hignores : recognize.IgnoresBlank)
    {blanks : List Char} (hblank : AllBlank blanks) (text : List Char) :
    scan recognize (blanks ++ text) = (scan recognize text).map (moved blanks.length) := by
  have hsame : recognize (blanks.getLast?.or none) text = recognize none text := by
    cases hlast : blanks.getLast? with
    | none => rfl
    | some c => exact hignores c text (hblank c (List.mem_of_getLast? hlast))
  rw [scan, scanFrom_append_blanks hskips hblank, scanFrom_congr hsame, scanFrom_moved, scan]

end Scan

theorem isBlank_iff {c : Char} : isBlank c = true ↔ c = ' ' ∨ c = '\t' := by
  simp only [isBlank, Bool.or_eq_true, beq_iff_eq]

section Recognizers

theorem lineNumberAt_skipsBlanks : Recognizer.SkipsBlanks lineNumberAt := by
  intro previous c rest hblank
  by_contra hnot
  obtain ⟨n, hrecognized⟩ := Option.ne_none_iff_exists'.mp hnot
  obtain ⟨-, hpos, hrun, -⟩ := lineNumberAt_eq_some_iff.mp hrecognized
  have hdigit : Text.isDigit c = true := (Text.takeWhile_length_eq_iff.mp hrun).1 0 hpos
  rcases isBlank_iff.mp hblank with rfl | rfl <;> exact absurd hdigit (by decide)

theorem byteBeforeBarAt_skipsBlanks : Recognizer.SkipsBlanks byteBeforeBarAt := by
  intro previous c rest hblank
  by_contra hnot
  obtain ⟨n, hrecognized⟩ := Option.ne_none_iff_exists'.mp hnot
  have hdigit : isHexDigit c = true := (byteBeforeBarAt_eq_some_iff.mp hrecognized).2.1 0 (Nat.le_refl 0) (by decide)
  rcases isBlank_iff.mp hblank with rfl | rfl <;> exact absurd hdigit (by decide)

theorem skipsBlanks_of_mem {recognize : Recognizer}
    (hmem : recognize ∈ [wordAt, jumpTargetAt, byteAfterBarAt, labelRefAt]) : recognize.SkipsBlanks := by
  intro previous c rest hblank
  simp only [List.mem_cons, List.not_mem_nil, or_false] at hmem
  rcases hmem with rfl | rfl | rfl | rfl <;> rcases isBlank_iff.mp hblank with rfl | rfl <;> rfl

/-- A word may start behind a blank as it may at the start of the text. -/
theorem wordAt_ignoresBlank : Recognizer.IgnoresBlank wordAt := by
  intro c text hblank
  have hword : Text.isWord c = false := by rcases isBlank_iff.mp hblank with rfl | rfl <;> decide
  cases text with
  | nil => rfl
  | cons d text => simp only [wordAt, Option.any_some, hword, Option.any_none]

end Recognizers

/-- The number with which a text starts, if the blanks in front of it end with a space: behind them it is a line
number. -/
def leadNumber (blanks text : List Char) : List (Nat × Nat) :=
  (lineNumberAt blanks.getLast? text).toList.map fun n => (blanks.length, blanks.length + n)

section Candidates

variable {blanks : List Char}

theorem mnemonicCandidates_append_blanks (hblank : AllBlank blanks) (text : List Char) :
    mnemonicCandidates (blanks ++ text) = (mnemonicCandidates text).map (moved blanks.length) := by
  rw [mnemonicCandidates, scan_append_blanks (skipsBlanks_of_mem (by simp)) wordAt_ignoresBlank hblank, List.filter_map,
    mnemonicCandidates]
  congr 2
  funext candidate
  simp only [Function.comp_apply, moved]
  rw [Nat.add_comm candidate.2, List.take_length_add_append, Nat.add_comm candidate.1, List.drop_length_add_append]

theorem label?_append_blanks (hblank : AllBlank blanks) (text : List Char) :
    label? (blanks ++ text) = (label? text).map (moved blanks.length) := by
  simp only [label?, List.takeWhile_append_of_pos hblank, List.length_append, List.drop_length_add_append,
    Nat.add_assoc]
  split
  · simp [moved, Nat.add_comm]
  · rfl

theorem lineNumber_candidates_append_blanks (hblank : AllBlank blanks) (text : List Char) :
    Rule.lineNumber.candidates (blanks ++ text) =
      leadNumber blanks text ++ (Rule.lineNumber.candidates text).map (moved blanks.length) := by
  change scan lineNumberAt (blanks ++ text) = _ ++ (scan lineNumberAt text).map _
  rw [scan, scanFrom_append_blanks lineNumberAt_skipsBlanks hblank, Option.or_none, scanFrom_moved, leadNumber]
  cases text with
  | nil =>
    have hnone : lineNumberAt blanks.getLast? [] = none := by simp [lineNumberAt]
    rw [hnone]
    rfl
  | cons c rest =>
    rw [scan, scanFrom, scanFrom, if_pos rfl, if_pos rfl]
    have hstart : lineNumberAt none (c :: rest) = none := by simp [lineNumberAt]
    rw [hstart]
    cases hlead : lineNumberAt blanks.getLast? (c :: rest) with
    | none => rfl
    | some n =>
      -- inside the number nothing is recognized, so it makes no difference whether the scan skips it
      have hinside : ∀ i < n - 1, lineNumberAt (charBefore (some c) rest i) (rest.drop i) = none := by
        intro i hi
        have hnone := lineNumberAt_unnested _ _ _ (i + 1) hlead (by omega) (by omega)
        rwa [charBefore_cons_succ, List.drop_succ_cons] at hnone
      simp [scanFrom_skip hinside, moved, Nat.add_comm]

/-- Blanks in front of the text move along what a rule behind the first one proposes. -/
theorem candidates_append_blanks (hblank : AllBlank blanks) {rule : Rule} (hrule : rule ∈ Rule.standard.tail)
    (text : List Char) : rule.candidates (blanks ++ text) = (rule.candidates text).map (moved blanks.length) := by
  simp only [Rule.standard, List.tail_cons, List.mem_cons, List.not_mem_nil, or_false] at hrule
  rcases hrule with rfl | rfl | rfl | rfl | rfl | rfl
  · exact mnemonicCandidates_append_blanks hblank text
  · exact scan_append_blanks (skipsBlanks_of_mem (by simp)) (fun _ _ _ => rfl) hblank text
  · change (label? (blanks ++ text)).toList = (label? text).toList.map _
    rw [label?_append_blanks hblank, Option.toList_map]
  · exact scan_append_blanks (skipsBlanks_of_mem (by simp)) (fun _ _ _ => rfl) hblank text
  · exact scan_append_blanks byteBeforeBarAt_skipsBlanks (fun _ _ _ => rfl) hblank text
  · exact scan_append_blanks (skipsBlanks_of_mem (by simp)) (fun _ _ _ => rfl) hblank text

end Candidates

section Apart

variable {code : List Char} {start stop first last : Nat}

theorem IsLineNumber.apart_byteAfterBar (hnumber : IsLineNumber code start stop) (hbyte : IsByteAfterBar code first) :
    stop ≤ first ∨ first + 3 ≤ start := by
  obtain ⟨-, hdigits, hpos, hspace, -⟩ := hnumber
  obtain ⟨hbar, hhex⟩ := hbyte
  have houtside := hdigits.eq_false hbar (by decide)
  have hbefore := hhex.eq_false hspace (by decide)
  have hfirst : start - 1 ≠ first := by
    rintro rfl
    exact absurd (hspace.symm.trans hbar) (by decide)
  omega

theorem IsLineNumber.apart_byteBeforeBar (hnumber : IsLineNumber code start stop) (hbyte : IsByteBeforeBar code first) :
    stop ≤ first ∨ first + 3 ≤ start := by
  obtain ⟨-, hdigits, hpos, hspace, hbehind⟩ := hnumber
  obtain ⟨hhex, hbar⟩ := hbyte
  have houtside := hdigits.eq_false hbar (by decide)
  have hbefore := hhex.eq_false hspace (by decide)
  have hafter := hhex.eq_false hbehind (by decide)
  have hfirst : start - 1 ≠ first + 2 := by
    intro heq
    rw [heq] at hspace
    exact absurd (hspace.symm.trans hbar) (by decide)
  have hlast : stop ≠ first + 2 := by
    rintro rfl
    exact absurd (hbehind.symm.trans hbar) (by decide)
  omega

theorem IsLineNumber.apart_labelRef (hnumber : IsLineNumber code start stop) (href : IsLabelRef code first last) :
    stop ≤ first ∨ last ≤ start := by
  obtain ⟨-, hdigits, hpos, hspace, -⟩ := hnumber
  obtain ⟨hletter, -, hrun, -⟩ := href
  have houtside := hdigits.eq_false hletter (by decide)
  have hbefore := hrun.eq_false hspace (by decide)
  have hfirst : start - 1 ≠ first := by
    rintro rfl
    exact absurd (hspace.symm.trans hletter) (by decide)
  omega

/-- A line number gets in the way of nothing that a later rule proposes. -/
theorem IsLineNumber.apart_candidate (hnumber : IsLineNumber code start stop) {rule : Rule}
    (hrule : rule ∈ Rule.standard.tail) {candidate : Nat × Nat} (hcandidate : candidate ∈ rule.candidates code) :
    stop ≤ candidate.1 ∨ candidate.2 ≤ start := by
  obtain ⟨first, last⟩ := candidate
  simp only [Rule.standard, List.tail_cons, List.mem_cons, List.not_mem_nil, or_false] at hrule
  rcases hrule with rfl | rfl | rfl | rfl | rfl | rfl
  · exact hnumber.apart_word (mem_mnemonic_candidates_iff.mp hcandidate).1
  · exact hnumber.apart_jumpTarget (mem_jumpTarget_candidates_iff.mp hcandidate)
  · exact (mem_label_candidates_iff.mp hcandidate).apart_lineNumber hnumber
  · obtain ⟨rfl, hbyte⟩ := mem_byteAfterBar_candidates_iff.mp hcandidate
    exact hnumber.apart_byteAfterBar hbyte
  · obtain ⟨rfl, hbyte⟩ := mem_byteBeforeBar_candidates_iff.mp hcandidate
    exact hnumber.apart_byteBeforeBar hbyte
  · exact hnumber.apart_labelRef (mem_labelRef_candidates_iff.mp hcandidate)

end Apart

section Keeping

variable {category : Category} {distance : Nat} {lead kept : List Span}

/-- Regions that a moved proposal lies apart from have no say in whether it is kept. -/
theorem keep_moved {candidate : Nat × Nat}
    (hapart : ∀ span ∈ lead, span.Apart (category.region (moved distance candidate))) :
    keep category (lead ++ kept.map (·.shift distance)) (moved distance candidate) =
      lead ++ (keep category kept candidate).map (·.shift distance) := by
  have hlead : lead.any (·.overlaps (moved distance candidate).1 (moved distance candidate).2) = false := by
    rw [List.any_eq_false]
    intro span hspan
    rw [Bool.not_eq_true]
    exact Span.overlaps_eq_false_iff.mpr (hapart span hspan)
  have hkept : (kept.map (·.shift distance)).any
      (·.overlaps (moved distance candidate).1 (moved distance candidate).2) =
        kept.any (·.overlaps candidate.1 candidate.2) := by
    rw [List.any_map]
    congr 1
    funext span
    exact span.overlaps_moved distance candidate
  have hregion := category.region_moved distance candidate
  rw [keep, List.any_append, hlead, Bool.false_or, hkept, keep]
  split
  · rfl
  · rw [List.map_append, ← List.append_assoc]
    exact congrArg (_ ++ [·]) hregion

theorem foldl_keep_moved {candidates : List (Nat × Nat)}
    (hapart : ∀ candidate ∈ candidates, ∀ span ∈ lead, span.Apart (category.region (moved distance candidate))) :
    (candidates.map (moved distance)).foldl (keep category) (lead ++ kept.map (·.shift distance)) =
      lead ++ (candidates.foldl (keep category) kept).map (·.shift distance) := by
  induction candidates generalizing kept with
  | nil => rfl
  | cons candidate candidates ih =>
    obtain ⟨hfirst, hrest⟩ := List.forall_mem_cons.mp hapart
    rw [List.map_cons, List.foldl_cons, keep_moved hfirst, ih hrest, List.foldl_cons]

/-- Regions that all proposals lie apart from stay in front of what the rules keep. -/
theorem foldl_applyRule_moved {rules : List Rule} {text other : List Char}
    (hmoved : ∀ rule ∈ rules, rule.candidates other = (rule.candidates text).map (moved distance))
    (hapart : ∀ rule ∈ rules, ∀ candidate ∈ rule.candidates other, ∀ span ∈ lead,
      span.Apart (rule.category.region candidate)) :
    rules.foldl (applyRule other) (lead ++ kept.map (·.shift distance)) =
      lead ++ (rules.foldl (applyRule text) kept).map (·.shift distance) := by
  induction rules generalizing kept with
  | nil => rfl
  | cons rule rules ih =>
    obtain ⟨hfirst, hrest⟩ := List.forall_mem_cons.mp hmoved
    obtain ⟨hfree, hfrees⟩ := List.forall_mem_cons.mp hapart
    have hstep : applyRule other (lead ++ kept.map (·.shift distance)) rule =
        lead ++ (applyRule text kept rule).map (·.shift distance) := by
      rw [applyRule, hfirst]
      refine foldl_keep_moved fun candidate hcandidate => hfree (moved distance candidate) ?_
      rw [hfirst]
      exact List.mem_map_of_mem hcandidate
    rw [List.foldl_cons, hstep, ih hrest hfrees, List.foldl_cons]

end Keeping

/-- The region of the number with which a text starts. -/
def leadSpans (blanks text : List Char) : List Span := (leadNumber blanks text).map Category.lineNumber.region

section Blanks

variable {blanks : List Char}

theorem isLineNumber_of_mem_leadNumber (hblank : AllBlank blanks) {text : List Char} {number : Nat × Nat}
    (hnumber : number ∈ leadNumber blanks text) : IsLineNumber (blanks ++ text) number.1 number.2 := by
  apply mem_lineNumber_candidates_iff.mp
  rw [lineNumber_candidates_append_blanks hblank]
  exact List.mem_append_left _ hnumber

theorem applyRule_lineNumber_append_blanks (hblank : AllBlank blanks) (text : List Char) :
    applyRule (blanks ++ text) [] Rule.lineNumber =
      leadSpans blanks text ++ (applyRule text [] Rule.lineNumber).map (·.shift blanks.length) := by
  have hcandidates := lineNumber_candidates_append_blanks hblank text
  have hpairwise : (Rule.lineNumber.candidates (blanks ++ text)).Pairwise fun c d => c.2 ≤ d.1 := scanFrom_pairwise ..
  have hlead : (leadNumber blanks text).foldl (keep .lineNumber) [] =
      leadSpans blanks text ++ ([] : List Span).map (·.shift blanks.length) := by
    rw [List.map_nil, List.append_nil, leadSpans, leadNumber]
    cases lineNumberAt blanks.getLast? text <;> rfl
  rw [hcandidates] at hpairwise
  have hapart : ∀ candidate ∈ Rule.lineNumber.candidates text, ∀ span ∈ leadSpans blanks text,
      span.Apart (Category.lineNumber.region (moved blanks.length candidate)) := by
    intro candidate hcandidate span hspan
    obtain ⟨number, hnumber, rfl⟩ := List.mem_map.mp hspan
    have hbehind := (List.pairwise_append.mp hpairwise).2.2 number hnumber _ (List.mem_map_of_mem hcandidate)
    exact .inl (Int.ofNat_le.mpr hbehind)
  rw [applyRule, hcandidates, List.foldl_append, show Rule.lineNumber.category = .lineNumber from rfl, hlead]
  exact foldl_keep_moved hapart

/-- What the rules keep behind blanks. -/
theorem foldl_applyRule_append_blanks (hblank : AllBlank blanks) (text : List Char) :
    Rule.standard.foldl (applyRule (blanks ++ text)) [] =
      leadSpans blanks text ++ (Rule.standard.foldl (applyRule text) []).map (·.shift blanks.length) := by
  have hrules : Rule.standard = Rule.lineNumber :: Rule.standard.tail := rfl
  have hnumbers : applyRule (blanks ++ text) [] Rule.lineNumber =
      leadSpans blanks text ++ (applyRule text [] Rule.lineNumber).map (·.shift blanks.length) :=
    applyRule_lineNumber_append_blanks hblank text
  rw [hrules, List.foldl_cons, hnumbers, List.foldl_cons]
  apply foldl_applyRule_moved fun rule hrule => candidates_append_blanks hblank hrule text
  intro rule hrule candidate hcandidate span hspan
  obtain ⟨number, hnumber, rfl⟩ := List.mem_map.mp hspan
  have hapart := (isLineNumber_of_mem_leadNumber hblank hnumber).apart_candidate hrule hcandidate
  simp only [Span.Apart, Category.region]
  omega

theorem mergeSort_cons_of_le {first : Span} {spans : List Span} (hfirst : ∀ span ∈ spans, first.start ≤ span.start) :
    ((first :: spans).mergeSort fun a b => a.start ≤ b.start) =
      first :: spans.mergeSort fun a b => a.start ≤ b.start := by
  obtain ⟨before, after, hall, hrest, hbefore⟩ := @List.mergeSort_cons Span (fun a b => a.start ≤ b.start)
    (by simp only [decide_eq_true_eq]; omega) (by simp only [Bool.or_eq_true, decide_eq_true_eq]; omega) first spans
  have hnone : before = [] := by
    apply List.eq_nil_iff_forall_not_mem.mpr
    intro span hspan
    have hmem : span ∈ spans.mergeSort fun a b => a.start ≤ b.start := hrest ▸ List.mem_append_left after hspan
    have hle := hfirst span (List.mem_mergeSort.mp hmem)
    have hgt := hbefore span hspan
    simp only [Bool.not_eq_true', decide_eq_false_iff_not] at hgt
    exact hgt hle
  rw [hall, hrest, hnone]
  rfl

theorem ruleSpans_append_blanks (hblank : AllBlank blanks) (text : List Char) :
    ruleSpans Rule.standard (blanks ++ text) =
      leadSpans blanks text ++ (ruleSpans Rule.standard text).map (·.shift blanks.length) := by
  have hsame : ∀ a ∈ Rule.standard.foldl (applyRule text) [], ∀ b ∈ Rule.standard.foldl (applyRule text) [],
      decide (a.start ≤ b.start) = decide ((a.shift blanks.length).start ≤ (b.shift blanks.length).start) := by
    simp [Span.shift]
  rw [ruleSpans, foldl_applyRule_append_blanks hblank, ruleSpans,
    List.map_mergeSort (s := fun a b => decide (a.start ≤ b.start)) hsame, leadSpans, leadNumber]
  cases lineNumberAt blanks.getLast? text with
  | none => rfl
  | some n =>
    refine mergeSort_cons_of_le fun span hspan => ?_
    obtain ⟨other, hother, rfl⟩ := List.mem_map.mp hspan
    rcases proposed_of_mem_foldl_applyRule hother with hnone | hproposed
    · cases hnone
    · have hstart := ((standard_inRange text).bounds hproposed).1
      simp only [Category.region, Span.shift]
      omega

end Blanks

section Comment

variable {marker : Char} {blanks : List Char}

theorem commentStartFrom_append_blanks (hmarker : isBlank marker = false) (hblank : AllBlank blanks) (offset : Nat)
    (text : List Char) :
    commentStartFrom [marker] false offset (blanks ++ text) =
      commentStartFrom [marker] false (offset + blanks.length) text := by
  induction blanks generalizing offset with
  | nil => rfl
  | cons c blanks ih =>
    obtain ⟨hc, hrest⟩ := List.forall_mem_cons.mp hblank
    have hother : [marker].isPrefixOf (c :: (blanks ++ text)) = false := by
      have hne : marker ≠ c := by
        rintro rfl
        exact absurd hc (by simp [hmarker])
      simpa [List.isPrefixOf] using hne
    have hescape : (c == '\\') = false := by
      rcases isBlank_iff.mp hc with rfl | rfl <;> rfl
    rw [List.cons_append, commentStartFrom, hother, Bool.and_false, if_neg Bool.false_ne_true]
    simp only [hescape]
    rw [ih hrest, List.length_cons, Nat.add_right_comm, Nat.add_assoc]

theorem commentStartFrom_add (marker : List Char) (escaped : Bool) (offset distance : Nat) (text : List Char) :
    commentStartFrom marker escaped (offset + distance) text =
      (commentStartFrom marker escaped offset text).map (· + distance) := by
  induction text generalizing escaped offset with
  | nil =>
    rw [commentStartFrom, commentStartFrom]
    split <;> rfl
  | cons c text ih =>
    have hnext := ih (c == '\\') (offset + 1)
    rw [Nat.add_right_comm] at hnext
    rw [commentStartFrom, commentStartFrom]
    split
    · rfl
    · exact hnext

theorem commentStart?_append_blanks (hmarker : isBlank marker = false) (hblank : AllBlank blanks) (text : List Char) :
    commentStart? [marker] (blanks ++ text) = (commentStart? [marker] text).map (· + blanks.length) := by
  rw [commentStart?, commentStartFrom_append_blanks hmarker hblank, commentStartFrom_add, commentStart?]

theorem commentSpans_append_blanks (marker blanks text : List Char) (sourceInComments : Bool) (start : Nat) :
    commentSpans marker (blanks ++ text) sourceInComments (start + blanks.length) =
      (commentSpans marker text sourceInComments start).map (·.shift blanks.length) := by
  have hcomment : (blanks ++ text).drop (start + blanks.length) = text.drop start := by
    rw [Nat.add_comm, List.drop_length_add_append]
  have hbody : start + blanks.length + commentLead marker (text.drop start) < (blanks ++ text).length ↔
      start + commentLead marker (text.drop start) < text.length := by
    rw [List.length_append]
    omega
  simp only [commentSpans, hcomment, hbody]
  split <;> simp [Span.shift, Int.add_comm, Int.add_left_comm, Int.add_assoc]

/-- Blanks in front of a line move its regions along, and make a line number of the number with which it starts. -/
theorem classify_append_blanks (hmarker : isBlank marker = false) (hblank : AllBlank blanks)
    (sourceInComments : Bool) (text : List Char) :
    classify [marker] sourceInComments (blanks ++ text) =
      leadSpans blanks (code [marker] text) ++
        (classify [marker] sourceInComments text).map (·.shift blanks.length) := by
  rw [classify, classifyWith, commentStart?_append_blanks hmarker hblank, classify, classifyWith]
  cases hfound : commentStart? [marker] text with
  | none => rw [code_of_no_comment hfound, Option.map_none, ruleSpans_append_blanks hblank]
  | some start =>
    have htake : (blanks ++ text).take (start + blanks.length) = blanks ++ text.take start := by
      rw [Nat.add_comm, List.take_length_add_append]
    rw [code_of_commentStart hfound, Option.map_some]
    simp only [htake, ruleSpans_append_blanks hblank, commentSpans_append_blanks, List.map_append, List.append_assoc]

end Comment

/-- The regions of a line, counted from where the text behind its indentation starts. -/
def contentSpans (marker : Char) (sourceInComments : Bool) (indent content : List Char) : List Span :=
  (classify [marker] sourceInComments (indent ++ content)).map (·.shift (-indent.length))

/-- Regions without a line number at the start. -/
def withoutLead (spans : List Span) : List Span :=
  spans.filter fun span => !(span.category == .lineNumber && span.start == 0)

section Content

variable {marker : Char} {indent other : List Char} {sourceInComments : Bool}

theorem contentSpans_eq (hmarker : isBlank marker = false) (hindent : AllBlank indent) (content : List Char) :
    contentSpans marker sourceInComments indent content =
      ((lineNumberAt indent.getLast? (code [marker] content)).toList.map fun n : Nat => ⟨0, n, .lineNumber⟩) ++
        classify [marker] sourceInComments content := by
  have hback : ((Span.shift · (-indent.length)) ∘ (Span.shift · indent.length)) = id := by
    funext span
    rw [Function.comp_apply, Span.shift_shift, Int.add_right_neg, Span.shift_zero]
    rfl
  rw [contentSpans, classify_append_blanks hmarker hindent, List.map_append, List.map_map, hback, List.map_id,
    leadSpans, leadNumber, List.map_map, List.map_map]
  congr 2
  funext n
  simp only [Function.comp_apply, Category.region, Span.shift, Span.mk.injEq, and_true]
  omega

/-- No line number starts a line: it would need a space in front of it. -/
theorem withoutLead_classify (marker : Char) (sourceInComments : Bool) (text : List Char) :
    withoutLead (classify [marker] sourceInComments text) = classify [marker] sourceInComments text := by
  rw [withoutLead, List.filter_eq_self]
  intro span hspan
  by_contra hlead
  simp only [Bool.not_eq_true', Bool.not_eq_false, Bool.and_eq_true, beq_iff_eq] at hlead
  obtain ⟨hcategory, hstart⟩ := hlead
  rcases (mem_classify_leading_iff (by simp [hcategory])).mp hspan with
    ⟨start, stop, rfl, hnumber⟩ | ⟨_, _, rfl, _⟩ | ⟨_, _, rfl, _⟩ | ⟨_, _, rfl, _⟩
  · have hpositive := hnumber.2.2.1
    simp only at hstart
    omega
  · cases hcategory
  · cases hcategory
  · cases hcategory

theorem withoutLead_contentSpans (hmarker : isBlank marker = false) (hindent : AllBlank indent)
    (content : List Char) :
    withoutLead (contentSpans marker sourceInComments indent content) =
      classify [marker] sourceInComments content := by
  have hlead : withoutLead ((lineNumberAt indent.getLast? (code [marker] content)).toList.map
      fun n : Nat => ⟨0, n, .lineNumber⟩) = [] := by
    cases lineNumberAt indent.getLast? (code [marker] content) <;> rfl
  rw [contentSpans_eq hmarker hindent, withoutLead, List.filter_append, ← withoutLead, ← withoutLead, hlead,
    List.nil_append, withoutLead_classify]

theorem contentSpans_congr (hmarker : isBlank marker = false) (hindent : AllBlank indent) (hother : AllBlank other)
    (hspace : indent.getLast? = some ' ' ↔ other.getLast? = some ' ') (content : List Char) :
    contentSpans marker sourceInComments indent content = contentSpans marker sourceInComments other content := by
  have hnumber (text : List Char) : lineNumberAt indent.getLast? text = lineNumberAt other.getLast? text := by
    simp only [lineNumberAt, hspace]
  rw [contentSpans_eq hmarker hindent, contentSpans_eq hmarker hother, hnumber]

end Content

end ListingEditor.Listing
