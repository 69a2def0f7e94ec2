import ListingEditor.Proofs.Listing.Leading
import Mathlib.Data.Nat.Init

/-!
Operand bytes and references to labels. The scans for them miss no occurrence, so an occurrence goes untagged only
where a region of an earlier rule overlaps it. Of two bytes that share a bar, the one behind the bar gets it.
-/

namespace ListingEditor.Listing

/-- An operand byte behind a bar: the bar and two hexadecimal digits. -/
def IsByteAfterBar (code : List Char) (start : Nat) : Prop :=
  code[start]? = some '|' ∧ Run isHexDigit code (start + 1) (start + 3)

/-- An operand byte in front of a bar: two hexadecimal digits and the bar. -/
def IsByteBeforeBar (code : List Char) (start : Nat) : Prop :=
  Run isHexDigit code start (start + 2) ∧ code[start + 2]? = some '|'

/-- A reference to a numbered label: the letter and all the digits behind it, in front of a space. -/
def IsLabelRef (code : List Char) (start stop : Nat) : Prop :=
  code[start]? = some 'L' ∧ start + 1 < stop ∧ Run Text.isDigit code (start + 1) stop ∧ code[stop]? = some ' '

instance (kind : Char → Bool) (code : List Char) (start stop : Nat) : Decidable (Run kind code start stop) :=
  Nat.decidableLoHi start stop fun i => code[i]?.any kind = true

instance (code : List Char) (start : Nat) : Decidable (IsByteAfterBar code start) :=
  inferInstanceAs (Decidable (_ ∧ _))

instance (code : List Char) (start : Nat) : Decidable (IsByteBeforeBar code start) :=
  inferInstanceAs (Decidable (_ ∧ _))

theorem run_drop_iff {kind : Char → Bool} {code : List Char} {place start stop : Nat} :
    Run kind (code.drop place) start stop ↔ Run kind code (place + start) (place + stop) := by
  simp only [Run, List.getElem?_drop]
  constructor
  · intro hrun i hlo hhi
    have hhere := hrun (i - place) (by omega) (by omega)
    rwa [show place + (i - place) = i by omega] at hhere
  · intro hrun i hlo hhi
    exact hrun (place + i) (by omega) (by omega)

theorem Run.eq_false {kind : Char → Bool} {code : List Char} {start stop i : Nat} {c : Char}
    (hrun : Run kind code start stop) (hget : code[i]? = some c) (hkind : kind c = false) :
    i < start ∨ stop ≤ i := by
  by_contra hinside
  have hhere := hrun i (by omega) (by omega)
  rw [hget, Option.any_some, hkind] at hhere
  cases hhere

theorem byteAfterBarAt_eq_some_iff {previous : Option Char} {text : List Char} {n : Nat} :
    byteAfterBarAt previous text = some n ↔ n = 3 ∧ IsByteAfterBar text 0 := by
  unfold byteAfterBarAt IsByteAfterBar
  constructor
  · intro h
    split at h
    · rename_i a b rest
      split at h
      · rename_i hhex
        rw [Bool.and_eq_true] at hhex
        cases h
        refine ⟨rfl, rfl, fun i hlo hhi => ?_⟩
        obtain rfl | rfl : i = 1 ∨ i = 2 := by omega
        · exact hhex.1
        · exact hhex.2
      · cases h
    · cases h
  · rintro ⟨rfl, hbar, hhex⟩
    obtain ⟨a, ha, hahex⟩ := (Option.any_eq_true _ _).mp (hhex 1 (by omega) (by omega))
    obtain ⟨b, hb, hbhex⟩ := (Option.any_eq_true _ _).mp (hhex 2 (by omega) (by omega))
    match text, hbar, ha, hb with
    | _ :: _ :: _ :: _, rfl, rfl, rfl => simp [hahex, hbhex]

theorem byteBeforeBarAt_eq_some_iff {previous : Option Char} {text : List Char} {n : Nat} :
    byteBeforeBarAt previous text = some n ↔ n = 3 ∧ IsByteBeforeBar text 0 := by
  unfold byteBeforeBarAt IsByteBeforeBar
  constructor
  · intro h
    split at h
    · rename_i a b rest
      split at h
      · rename_i hhex
        rw [Bool.and_eq_true] at hhex
        cases h
        refine ⟨rfl, fun i hlo hhi => ?_, rfl⟩
        obtain rfl | rfl : i = 0 ∨ i = 1 := by omega
        · exact hhex.1
        · exact hhex.2
      · cases h
    · cases h
  · rintro ⟨rfl, hhex, hbar⟩
    obtain ⟨a, ha, hahex⟩ := (Option.any_eq_true _ _).mp (hhex 0 (by omega) (by omega))
    obtain ⟨b, hb, hbhex⟩ := (Option.any_eq_true _ _).mp (hhex 1 (by omega) (by omega))
    match text, ha, hb, hbar with
    | _ :: _ :: _ :: _, rfl, rfl, rfl => simp [hahex, hbhex]

theorem labelRefAt_eq_some_iff {previous : Option Char} {text : List Char} {n : Nat} :
    labelRefAt previous text = some (n + 1) ↔
      ∃ rest, text = 'L' :: rest ∧ 0 < n ∧ digitRun rest = n ∧ rest[n]? = some ' ' := by
  unfold labelRefAt
  constructor
  · intro h
    split at h
    · rename_i rest
      simp only [List.head?_drop] at h
      split at h
      · rename_i hhere
        obtain rfl : digitRun rest = n := by simpa using h
        exact ⟨rest, rfl, hhere.1, rfl, hhere.2⟩
      · cases h
    · cases h
  · rintro ⟨rest, rfl, hpos, rfl, hspace⟩
    simp only [List.head?_drop]
    rw [if_pos ⟨hpos, hspace⟩]

theorem drop_eq_cons_iff {code rest : List Char} {place : Nat} {c : Char} :
    code.drop place = c :: rest ↔ code[place]? = some c ∧ rest = code.drop (place + 1) := by
  constructor
  · intro hdrop
    rw [← List.head?_drop, ← List.drop_drop, hdrop]
    exact ⟨rfl, rfl⟩
  · rintro ⟨hget, rfl⟩
    obtain ⟨hinside, rfl⟩ := List.getElem?_eq_some_iff.mp hget
    exact List.drop_eq_getElem_cons hinside

/-- What starts inside an operand byte behind a bar has no bar in front of it. -/
theorem byteAfterBarAt_unnested : Recognizer.Unnested byteAfterBarAt := by
  intro previous text n i hrecognized hpos hlt
  obtain ⟨rfl, _, hhex⟩ := byteAfterBarAt_eq_some_iff.mp hrecognized
  by_contra hnot
  obtain ⟨m, hagain⟩ := Option.ne_none_iff_exists'.mp hnot
  obtain ⟨_, hbar, _⟩ := byteAfterBarAt_eq_some_iff.mp hagain
  rw [List.getElem?_drop, Nat.add_zero] at hbar
  have hplace := hhex.eq_false hbar (by decide)
  omega

/-- What starts inside an operand byte in front of a bar has the bar among its digits. -/
theorem byteBeforeBarAt_unnested : Recognizer.Unnested byteBeforeBarAt := by
  intro previous text n i hrecognized hpos hlt
  obtain ⟨rfl, _, hbar⟩ := byteBeforeBarAt_eq_some_iff.mp hrecognized
  by_contra hnot
  obtain ⟨m, hagain⟩ := Option.ne_none_iff_exists'.mp hnot
  obtain ⟨_, hhex, _⟩ := byteBeforeBarAt_eq_some_iff.mp hagain
  have hplace := (run_drop_iff.mp hhex).eq_false hbar (by decide)
  omega

theorem labelRefAt_unnested : Recognizer.Unnested labelRefAt := by
  intro previous text n i hrecognized hpos hlt
  obtain ⟨m, rfl⟩ := Nat.exists_eq_add_of_lt (labelRefAt_bounded _ _ _ hrecognized).1
  rw [Nat.zero_add] at hrecognized hlt
  obtain ⟨rest, rfl, _, hrun, _⟩ := labelRefAt_eq_some_iff.mp hrecognized
  by_contra hnot
  obtain ⟨k, hagain⟩ := Option.ne_none_iff_exists'.mp hnot
  obtain ⟨l, rfl⟩ := Nat.exists_eq_add_of_lt (labelRefAt_bounded _ _ _ hagain).1
  rw [Nat.zero_add] at hagain
  obtain ⟨again, hdrop, _⟩ := labelRefAt_eq_some_iff.mp hagain
  obtain ⟨j, rfl⟩ := Nat.exists_eq_add_of_lt hpos
  have hletter : rest[j]? = some 'L' := by simpa using (drop_eq_cons_iff.mp hdrop).1
  have hdigit := (Text.takeWhile_length_eq_iff.mp hrun).1 j (by omega)
  rw [hletter] at hdigit
  exact absurd hdigit (by decide)

theorem mem_byteAfterBar_candidates_iff {code : List Char} {start stop : Nat} :
    (start, stop) ∈ Rule.byteAfterBar.candidates code ↔ stop = start + 3 ∧ IsByteAfterBar code start := by
  refine (mem_scan_iff byteAfterBarAt_unnested).trans ?_
  rw [Recognizer.atPlace, byteAfterBarAt_eq_some_iff, IsByteAfterBar, run_drop_iff, List.getElem?_drop]
  constructor
  · rintro ⟨_, hle, hlength, hbyte⟩
    exact ⟨by omega, hbyte⟩
  · rintro ⟨rfl, hbyte⟩
    exact ⟨(List.getElem?_eq_some_iff.mp hbyte.1).1, by omega, by omega, hbyte⟩

theorem mem_byteBeforeBar_candidates_iff {code : List Char} {start stop : Nat} :
    (start, stop) ∈ Rule.byteBeforeBar.candidates code ↔ stop = start + 3 ∧ IsByteBeforeBar code start := by
  refine (mem_scan_iff byteBeforeBarAt_unnested).trans ?_
  rw [Recognizer.atPlace, byteBeforeBarAt_eq_some_iff, IsByteBeforeBar, run_drop_iff, List.getElem?_drop]
  constructor
  · rintro ⟨_, hle, hlength, hbyte⟩
    exact ⟨by omega, hbyte⟩
  · rintro ⟨rfl, hbyte⟩
    have hinside := (List.getElem?_eq_some_iff.mp hbyte.2).1
    exact ⟨by omega, by omega, by omega, hbyte⟩

theorem mem_labelRef_candidates_iff {code : List Char} {start stop : Nat} :
    (start, stop) ∈ Rule.labelRef.candidates code ↔ IsLabelRef code start stop := by
  refine (mem_scan_iff labelRefAt_unnested).trans ?_
  rw [Recognizer.atPlace]
  constructor
  · rintro ⟨_, hle, hrecognized⟩
    have hpos := (labelRefAt_bounded _ _ _ hrecognized).1
    rw [show stop - start = stop - (start + 1) + 1 by omega] at hrecognized
    obtain ⟨rest, hdrop, hsome, hrun, hspace⟩ := labelRefAt_eq_some_iff.mp hrecognized
    obtain ⟨hletter, rfl⟩ := drop_eq_cons_iff.mp hdrop
    rw [digitRun, takeWhile_drop_length_eq_iff] at hrun
    rw [List.getElem?_drop] at hspace
    rw [show start + 1 + (stop - (start + 1)) = stop by omega] at hrun hspace
    exact ⟨hletter, by omega, hrun.1, hspace⟩
  · rintro ⟨hletter, hlt, hrun, hspace⟩
    have hinside := (List.getElem?_eq_some_iff.mp hletter).1
    refine ⟨hinside, by omega, ?_⟩
    rw [show stop - start = stop - (start + 1) + 1 by omega, labelRefAt_eq_some_iff]
    refine ⟨code.drop (start + 1), drop_eq_cons_iff.mpr ⟨hletter, rfl⟩, by omega, ?_, ?_⟩
    · rw [digitRun, takeWhile_drop_length_eq_iff, show start + 1 + (stop - (start + 1)) = stop by omega]
      exact ⟨hrun, any_of_eq_some hspace (by decide)⟩
    · rwa [List.getElem?_drop, show start + 1 + (stop - (start + 1)) = stop by omega]

/-- The categories of the first four rules. -/
def Category.leading : List Category := [.lineNumber, .mnemonic, .jumpTarget, .label]

/-- No region of the given categories shares a character with the place from `start` to `stop`. -/
def Free (categories : List Category) (spans : List Span) (start stop : Nat) : Prop :=
  ∀ span ∈ spans, span.category ∈ categories → span.overlaps start stop = false

/-- What lies apart from the regions of some categories. -/
theorem forall_apart_iff_free {categories : List Category} {kept spans : List Span} {category : Category}
    {start stop : Nat} (hkept : ∀ span, span ∈ kept ↔ span ∈ spans ∧ span.category ∈ categories) :
    (∀ other ∈ kept, other.Apart (category.region (start, stop))) ↔ Free categories spans start stop := by
  simp only [hkept, ← Span.overlaps_eq_false_iff, and_imp]
  rfl

theorem mem_foldl_applyRule_iff_of_ne {text : List Char} {kept : List Span} {rules : List Rule} {span : Span}
    (hne : ∀ rule ∈ rules, span.category ≠ rule.category) :
    span ∈ rules.foldl (applyRule text) kept ↔ span ∈ kept := by
  induction rules generalizing kept with
  | nil => exact Iff.rfl
  | cons rule rules ih =>
    obtain ⟨hfirst, hrest⟩ := List.forall_mem_cons.mp hne
    rw [List.foldl_cons, ih hrest, mem_applyRule_iff_of_ne hfirst]

section

variable {marker text : List Char} {sourceInComments : Bool} {span : Span}

/-- What the first of the rules keep is the part of a classified line that has their categories. -/
theorem mem_foldl_applyRule_iff {front rear : List Rule} (hrules : Rule.standard = front ++ rear)
    (hne : ∀ category ∈ front.map (·.category), category ∉ rear.map (·.category)) (sourceInComments : Bool) :
    span ∈ front.foldl (applyRule (code marker text)) [] ↔
      span ∈ classify marker sourceInComments text ∧ span.category ∈ front.map (·.category) := by
  have hcategory (hfront : span.category ∈ front.map (·.category)) :
      span ∈ classify marker sourceInComments text ↔ span ∈ front.foldl (applyRule (code marker text)) [] := by
    obtain ⟨rule, hrule, hsame⟩ := List.mem_map.mp hfront
    have hstandard : rule ∈ Rule.standard := hrules ▸ List.mem_append_left rear hrule
    have htags := standard_category_ne hstandard
    rw [hsame] at htags
    rw [mem_classify_iff htags.1 htags.2, hrules, List.foldl_append]
    refine mem_foldl_applyRule_iff_of_ne fun later hlater hlate => hne _ hfront ?_
    exact hlate ▸ List.mem_map_of_mem hlater
  constructor
  · intro hspan
    rcases proposed_of_mem_foldl_applyRule hspan with hnone | ⟨rule, hrule, candidate, _, rfl⟩
    · cases hnone
    · have hfront : rule.category ∈ front.map (·.category) := List.mem_map_of_mem hrule
      exact ⟨(hcategory hfront).mpr hspan, hfront⟩
  · rintro ⟨hspan, hfront⟩
    exact (hcategory hfront).mp hspan

end

/-- The regions of the first four rules. -/
def leadingSpans (code : List Char) : List Span :=
  [Rule.lineNumber, Rule.mnemonic, Rule.jumpTarget, Rule.label].foldl (applyRule code) []

/-- The regions of the first four rules and of those for operand bytes. -/
def spansWithBytes (code : List Char) : List Span :=
  [Rule.byteAfterBar, Rule.byteBeforeBar].foldl (applyRule code) (leadingSpans code)

section

variable {code : List Char} {span : Span}

/-- What a rule for operand bytes adds. -/
theorem mem_applyRule_byte_iff {rule : Rule} {isByte : Nat → Prop} {kept : List Span}
    (hcategory : rule.category = .operandByte) (hpairwise : (rule.candidates code).Pairwise fun c d => c.2 ≤ d.1)
    (hbytes : ∀ start stop, (start, stop) ∈ rule.candidates code ↔ stop = start + 3 ∧ isByte start) :
    span ∈ applyRule code kept rule ↔ span ∈ kept ∨
      (∃ start : Nat, span = Category.operandByte.region (start, start + 3) ∧ isByte start) ∧
        ∀ other ∈ kept, other.Apart span := by
  rw [mem_applyRule_iff hpairwise, hcategory]
  refine or_congr_right (and_congr_left fun _ => ⟨?_, ?_⟩)
  · rintro ⟨⟨start, stop⟩, hcandidate, rfl⟩
    obtain ⟨rfl, hbyte⟩ := (hbytes start stop).mp hcandidate
    exact ⟨start, rfl, hbyte⟩
  · rintro ⟨start, rfl, hbyte⟩
    exact ⟨_, (hbytes start _).mpr ⟨rfl, hbyte⟩, rfl⟩

theorem mem_bytesAfterBar_iff :
    span ∈ applyRule code (leadingSpans code) Rule.byteAfterBar ↔ span ∈ leadingSpans code ∨
      (∃ start : Nat, span = Category.operandByte.region (start, start + 3) ∧ IsByteAfterBar code start) ∧
        ∀ other ∈ leadingSpans code, other.Apart span :=
  mem_applyRule_byte_iff rfl (scanFrom_pairwise ..) fun _ _ => mem_byteAfterBar_candidates_iff

theorem mem_spansWithBytes_iff :
    span ∈ spansWithBytes code ↔ span ∈ applyRule code (leadingSpans code) Rule.byteAfterBar ∨
      (∃ start : Nat, span = Category.operandByte.region (start, start + 3) ∧ IsByteBeforeBar code start) ∧
        ∀ other ∈ applyRule code (leadingSpans code) Rule.byteAfterBar, other.Apart span :=
  mem_applyRule_byte_iff rfl (scanFrom_pairwise ..) fun _ _ => mem_byteBeforeBar_candidates_iff

end

section

variable {marker text : List Char} {sourceInComments : Bool} {span : Span}

theorem forall_leading_apart_iff {category : Category} {start stop : Nat} :
    (∀ other ∈ leadingSpans (code marker text), other.Apart (category.region (start, stop))) ↔
      Free Category.leading (classify marker sourceInComments text) start stop := by
  have hrules : Rule.standard = [Rule.lineNumber, Rule.mnemonic, Rule.jumpTarget, Rule.label] ++
    [Rule.byteAfterBar, Rule.byteBeforeBar, Rule.labelRef] := rfl
  exact forall_apart_iff_free fun _ => mem_foldl_applyRule_iff hrules (by decide) sourceInComments

theorem category_of_mem_leadingSpans {code : List Char} (hspan : span ∈ leadingSpans code) :
    span.category ∈ Category.leading := by
  rcases proposed_of_mem_foldl_applyRule hspan with hnone | ⟨rule, hrule, candidate, -, rfl⟩
  · cases hnone
  · exact List.mem_map_of_mem (f := (·.category)) hrule

theorem mem_spansWithBytes_iff_mem_classify (sourceInComments : Bool) :
    span ∈ spansWithBytes (code marker text) ↔
      span ∈ classify marker sourceInComments text ∧ span.category ∈ Category.leading ++ [.operandByte] := by
  have hrules : Rule.standard = [Rule.lineNumber, Rule.mnemonic, Rule.jumpTarget, Rule.label, Rule.byteAfterBar,
    Rule.byteBeforeBar] ++ [Rule.labelRef] := rfl
  refine (mem_foldl_applyRule_iff hrules (by decide) sourceInComments).trans (and_congr_right fun _ => ?_)
  -- both rules for operand bytes have the same category
  have hcategories : [Rule.lineNumber, Rule.mnemonic, Rule.jumpTarget, Rule.label, Rule.byteAfterBar,
    Rule.byteBeforeBar].map (·.category) = Category.leading ++ [.operandByte] ++ [.operandByte] := rfl
  rw [hcategories, List.mem_append, or_iff_left_of_imp fun hlast => List.mem_append_right _ hlast]

theorem operandByte_mem_spansWithBytes_iff (sourceInComments : Bool) (hcategory : span.category = .operandByte) :
    span ∈ spansWithBytes (code marker text) ↔ span ∈ classify marker sourceInComments text := by
  rw [mem_spansWithBytes_iff_mem_classify sourceInComments, hcategory]
  exact and_iff_left (by decide)

theorem Category.region_inj {category : Category} {candidate other : Nat × Nat}
    (hregion : category.region candidate = category.region other) : candidate = other := by
  simp only [Category.region, Span.mk.injEq, Int.natCast_inj] at hregion
  exact Prod.ext hregion.1 hregion.2.1

theorem IsByteAfterBar.not_isByteBeforeBar {code : List Char} {start : Nat} (hbyte : IsByteAfterBar code start) :
    ¬ IsByteBeforeBar code start := by
  rintro ⟨hhex, -⟩
  have hplace := hhex.eq_false hbyte.1 (by decide)
  omega

/-- A byte behind a bar is tagged by its own rule or not at all. -/
theorem IsByteAfterBar.mem_bytesAfterBar_iff {start : Nat} (hbyte : IsByteAfterBar (code marker text) start)
    (sourceInComments : Bool) :
    Category.operandByte.region (start, start + 3) ∈
        applyRule (code marker text) (leadingSpans (code marker text)) Rule.byteAfterBar ↔
      Category.operandByte.region (start, start + 3) ∈ classify marker sourceInComments text := by
  rw [← operandByte_mem_spansWithBytes_iff sourceInComments rfl, mem_spansWithBytes_iff]
  refine (or_iff_left ?_).symm
  rintro ⟨⟨other, hregion, hbefore⟩, -⟩
  obtain rfl : start = other := congrArg Prod.fst (Category.region_inj hregion)
  exact hbyte.not_isByteBeforeBar hbefore

/-- What lies apart from the bytes behind bars that are tagged, and from what was tagged before them. -/
theorem forall_bytesAfterBar_apart_iff {start : Nat} :
    (∀ other ∈ applyRule (code marker text) (leadingSpans (code marker text)) Rule.byteAfterBar,
        other.Apart (Category.operandByte.region (start, start + 3))) ↔
      Free Category.leading (classify marker sourceInComments text) start (start + 3) ∧
        ∀ bar : Nat, IsByteAfterBar (code marker text) bar →
          Category.operandByte.region (bar, bar + 3) ∈ classify marker sourceInComments text →
          (Category.operandByte.region (bar, bar + 3)).overlaps start (start + 3 : Nat) = false := by
  rw [← forall_leading_apart_iff]
  constructor
  · intro hapart
    refine ⟨fun other hother => hapart other (mem_bytesAfterBar_iff.mpr (.inl hother)), fun bar hbar htagged => ?_⟩
    exact Span.overlaps_eq_false_iff.mpr (hapart _ ((hbar.mem_bytesAfterBar_iff sourceInComments).mpr htagged))
  · rintro ⟨hleading, hbytes⟩ other hother
    rcases mem_bytesAfterBar_iff.mp hother with hearlier | ⟨⟨bar, rfl, hbar⟩, -⟩
    · exact hleading other hearlier
    · exact Span.overlaps_eq_false_iff.mp (hbytes bar hbar ((hbar.mem_bytesAfterBar_iff sourceInComments).mp hother))

/-- A byte behind a bar is tagged unless a region of the first four rules overlaps it. -/
theorem IsByteAfterBar.mem_classify_iff {start : Nat} (hbyte : IsByteAfterBar (code marker text) start) :
    Category.operandByte.region (start, start + 3) ∈ classify marker sourceInComments text ↔
      Free Category.leading (classify marker sourceInComments text) start (start + 3) := by
  rw [← hbyte.mem_bytesAfterBar_iff, Listing.mem_bytesAfterBar_iff, or_iff_right, ← forall_leading_apart_iff]
  · exact and_iff_right ⟨start, rfl, hbyte⟩
  · intro hleading
    exact absurd (category_of_mem_leadingSpans hleading) (show Category.operandByte ∉ Category.leading by decide)

theorem operandByte_mem_classify_iff (hcategory : span.category = .operandByte) :
    span ∈ classify marker sourceInComments text ↔
      ∃ start : Nat, span = Category.operandByte.region (start, start + 3) ∧
        Free Category.leading (classify marker sourceInComments text) start (start + 3) ∧
        (IsByteAfterBar (code marker text) start ∨
          IsByteBeforeBar (code marker text) start ∧
            ∀ bar : Nat, IsByteAfterBar (code marker text) bar →
              Category.operandByte.region (bar, bar + 3) ∈ classify marker sourceInComments text →
              (Category.operandByte.region (bar, bar + 3)).overlaps start (start + 3 : Nat) = false) := by
  constructor
  · intro hspan
    have hkept := (operandByte_mem_spansWithBytes_iff sourceInComments hcategory).mpr hspan
    rcases mem_spansWithBytes_iff.mp hkept with hafter | ⟨⟨start, rfl, hbyte⟩, hapart⟩
    · rcases mem_bytesAfterBar_iff.mp hafter with hleading | ⟨⟨start, rfl, hbyte⟩, hapart⟩
      · have hearlier := category_of_mem_leadingSpans hleading
        rw [hcategory] at hearlier
        exact absurd hearlier (by decide)
      · exact ⟨start, rfl, forall_leading_apart_iff.mp hapart, .inl hbyte⟩
    · obtain ⟨hfree, hbars⟩ := forall_bytesAfterBar_apart_iff.mp hapart
      exact ⟨start, rfl, hfree, .inr ⟨hbyte, hbars⟩⟩
  · rintro ⟨start, rfl, hfree, hbyte | ⟨hbyte, hbars⟩⟩
    · exact hbyte.mem_classify_iff.mpr hfree
    · rw [← operandByte_mem_spansWithBytes_iff sourceInComments rfl, mem_spansWithBytes_iff]
      exact .inr ⟨⟨start, rfl, hbyte⟩, forall_bytesAfterBar_apart_iff.mpr ⟨hfree, hbars⟩⟩

theorem labelRef_mem_classify_iff (hcategory : span.category = .labelRef) :
    span ∈ classify marker sourceInComments text ↔
      ∃ start stop : Nat, span = Category.labelRef.region (start, stop) ∧ IsLabelRef (code marker text) start stop ∧
        Free (Category.leading ++ [.operandByte]) (classify marker sourceInComments text) start stop := by
  have hfree {start stop : Nat} :
      (∀ other ∈ spansWithBytes (code marker text), other.Apart (Category.labelRef.region (start, stop))) ↔
        Free (Category.leading ++ [.operandByte]) (classify marker sourceInComments text) start stop :=
    forall_apart_iff_free fun _ => mem_spansWithBytes_iff_mem_classify sourceInComments
  have hearlier : span ∉ spansWithBytes (code marker text) := by
    rw [mem_spansWithBytes_iff_mem_classify sourceInComments, hcategory]
    exact fun hspan => absurd hspan.2 (by decide)
  rw [mem_classify_iff (by simp [hcategory]) (by simp [hcategory])]
  change span ∈ applyRule (code marker text) (spansWithBytes (code marker text)) Rule.labelRef ↔ _
  rw [mem_applyRule_iff (scanFrom_pairwise ..), or_iff_right hearlier]
  constructor
  · rintro ⟨⟨⟨start, stop⟩, hcandidate, rfl⟩, hapart⟩
    exact ⟨start, stop, rfl, mem_labelRef_candidates_iff.mp hcandidate, hfree.mp hapart⟩
  · rintro ⟨start, stop, rfl, hreference, hapart⟩
    exact ⟨⟨_, mem_labelRef_candidates_iff.mpr hreference, rfl⟩, hfree.mpr hapart⟩

end

theorem classify_apart {marker : Char} {text : List Char} {sourceInComments : Bool} {a b : Span}
    (ha : a ∈ classify [marker] sourceInComments text) (hb : b ∈ classify [marker] sourceInComments text) :
    a = b ∨ a.Apart b := by
  have hpairwise : (classify [marker] sourceInComments text).Pairwise Span.Apart :=
    (classify_ordered marker sourceInComments text).pairwise.imp fun hab => Span.overlaps_eq_false_iff.mp hab.2
  have hsymm : Std.Symm Span.Apart := ⟨fun _ _ => Span.Apart.symm⟩
  exact or_iff_not_imp_left.mpr (hpairwise.forall ha hb)

/-- Of the two bytes that share a bar only the second is tagged, if no region of the first four rules overlaps it. -/
theorem operandByte_in_pair_iff {marker : Char} {text : List Char} {sourceInComments : Bool} {start : Nat} {span : Span}
    (hafter : IsByteAfterBar (code [marker] text) (start + 2))
    (hfree : Free Category.leading (classify [marker] sourceInComments text) (start + 2) (start + 5)) :
    (span ∈ classify [marker] sourceInComments text ∧ span.category = .operandByte ∧ start ≤ span.start ∧
        span.stop ≤ start + 5) ↔ span = Category.operandByte.region (start + 2, start + 5) := by
  have htagged := hafter.mem_classify_iff.mpr hfree
  constructor
  · rintro ⟨hspan, hcategory, hlower, hupper⟩
    obtain ⟨first, rfl, -⟩ := (operandByte_mem_classify_iff hcategory).mp hspan
    refine (classify_apart hspan htagged).resolve_right fun hapart => ?_
    simp only [Span.Apart, Category.region] at hapart hlower hupper
    omega
  · rintro rfl
    exact ⟨htagged, rfl, by simp only [Category.region]; omega, by simp only [Category.region]; omega⟩

/-- The exact meaning of operand bytes and references to labels. A byte behind a bar is tagged unless a region of the
first four rules overlaps it; a byte in front of a bar is tagged unless one of these or a tagged byte behind a bar
does; a reference to a label is tagged unless a region of any earlier rule does. So a bar belongs to one byte at most,
and where two bytes share a bar it is the second one that is tagged, if it is free. -/
theorem operand_span_iff (marker : Char) (sourceInComments : Bool) (text : List Char) :
    (∀ span : Span, span.category = .operandByte →
      (span ∈ classify [marker] sourceInComments text ↔
        ∃ start : Nat, span = Category.operandByte.region (start, start + 3) ∧
          Free Category.leading (classify [marker] sourceInComments text) start (start + 3) ∧
          (IsByteAfterBar (code [marker] text) start ∨
            IsByteBeforeBar (code [marker] text) start ∧
              ∀ bar : Nat, IsByteAfterBar (code [marker] text) bar →
                Category.operandByte.region (bar, bar + 3) ∈ classify [marker] sourceInComments text →
                (Category.operandByte.region (bar, bar + 3)).overlaps start (start + 3 : Nat) = false))) ∧
    (∀ span : Span, span.category = .labelRef →
      (span ∈ classify [marker] sourceInComments text ↔
        ∃ start stop : Nat, span = Category.labelRef.region (start, stop) ∧
          IsLabelRef (code [marker] text) start stop ∧
          Free (Category.leading ++ [.operandByte]) (classify [marker] sourceInComments text) start stop)) ∧
    (∀ a ∈ classify [marker] sourceInComments text, ∀ b ∈ classify [marker] sourceInComments text,
      a.category = .operandByte → b.category = .operandByte →
      ∀ bar : Nat, (code [marker] text)[bar]? = some '|' → a.start ≤ bar → bar < a.stop → b.start ≤ bar →
        bar < b.stop → a = b) ∧
    ∀ start : Nat, IsByteBeforeBar (code [marker] text) start → IsByteAfterBar (code [marker] text) (start + 2) →
      Free Category.leading (classify [marker] sourceInComments text) (start + 2) (start + 5) →
      ∀ span : Span, (span ∈ classify [marker] sourceInComments text ∧ span.category = .operandByte ∧
          start ≤ span.start ∧ span.stop ≤ start + 5) ↔
        span = Category.operandByte.region (start + 2, start + 5) := by
  refine ⟨fun _ => operandByte_mem_classify_iff, fun _ => labelRef_mem_classify_iff, ?_, ?_⟩
  · intro a ha b hb _ _ bar _ halower haupper hblower hbupper
    refine (classify_apart ha hb).resolve_right fun hapart => ?_
    simp only [Span.Apart] at hapart
    omega
  · intro start _ hafter hfree span
    exact operandByte_in_pair_iff hafter hfree

/-- Bytes that share their bars, up to the name of an opcode. -/
def byteChain : List Char := ['a', 'a', '|', 'b', 'b', '|', 'c', 'c', '|', 'C', 'A', 'C', 'H', 'E']

theorem operand_span_iff_byteChain :
    IsByteBeforeBar (code ['#'] byteChain) 3 ∧ IsByteAfterBar (code ['#'] byteChain) 5 ∧
      Free Category.leading (classify ['#'] false byteChain) 5 8 ∧
      ∀ span : Span, (span ∈ classify ['#'] false byteChain ∧ span.category = .operandByte ∧ (3 : Nat) ≤ span.start ∧
        span.stop ≤ (3 : Nat) + 5) ↔ span = Category.operandByte.region (5, 8) := by
  have hbefore : IsByteBeforeBar (code ['#'] byteChain) 3 := by decide
  have hafter : IsByteAfterBar (code ['#'] byteChain) 5 := by decide
  have hapart : ∀ other ∈ leadingSpans (code ['#'] byteChain), other.Apart (Category.operandByte.region (5, 8)) := by
    unfold Span.Apart
    decide +kernel
  have hfree : Free Category.leading (classify ['#'] false byteChain) 5 8 := forall_leading_apart_iff.mp hapart
  exact ⟨hbefore, hafter, hfree, (operand_span_iff '#' false byteChain).2.2.2 3 hbefore hafter hfree⟩

end ListingEditor.Listing
