import ListingEditor.Proofs.Listing.Meaning

/-!
The four leading categories. The rules for line numbers, opcode names and jump targets never get in each
other's way, and only an opcode name can keep a label from being tagged, so a region has one of these
categories exactly when the characters of the code say so.
-/

namespace ListingEditor.Listing

theorem mem_applyRule_iff_of_ne {text : List Char} {kept : List Span} {rule : Rule} {span : Span}
    (hne : span.category ≠ rule.category) : span ∈ applyRule text kept rule ↔ span ∈ kept := by
  constructor
  · intro hspan
    rcases mem_of_mem_foldl_keep hspan with hold | ⟨candidate, _, rfl⟩
    · exact hold
    · exact absurd rfl hne
  · exact mem_foldl_keep_of_mem

/-- What a rule adds whose own proposals stand one behind the other. -/
theorem mem_applyRule_iff {text : List Char} {kept : List Span} {rule : Rule} {span : Span}
    (hpairwise : (rule.candidates text).Pairwise fun c d => c.2 ≤ d.1) :
    span ∈ applyRule text kept rule ↔ span ∈ kept ∨
      (∃ candidate ∈ rule.candidates text, span = rule.category.region candidate) ∧
        ∀ other ∈ kept, other.Apart span :=
  mem_foldl_keep_iff (hpairwise.imp fun hle => .inl (Int.ofNat_le.mpr hle))

/-- A word with its suffix holds word characters and a plus sign. -/
theorem IsWordWithSuffix.run {code : List Char} {start stop : Nat}
    (hword : IsWordWithSuffix code start stop) :
    Run (fun c => Text.isWord c || c == '+') code start stop := by
  obtain ⟨_, _, middle, hmiddle, hrun, _, hsuffix⟩ := hword
  intro i hlo hhi
  have widen {kind : Char → Bool} (hkind : ∀ c, kind c = true → (Text.isWord c || c == '+') = true)
      (hhere : code[i]?.any kind = true) :
      code[i]?.any (fun c => Text.isWord c || c == '+') = true := by
    obtain ⟨c, hget, hc⟩ := (Option.any_eq_true _ _).mp hhere
    exact (Option.any_eq_true _ _).mpr ⟨c, hget, hkind c hc⟩
  by_cases hinside : i < middle
  · exact widen (fun c hc => by rw [hc, Bool.true_or]) (hrun i hlo hinside)
  · rcases hsuffix with ⟨hplus, hmore, hdigits, _⟩ | ⟨rfl, _⟩
    · by_cases hsign : i = middle
      · rw [hsign, hplus]
        simp
      · exact widen (fun c hc => by rw [Text.isWord_of_isDigit hc, Bool.true_or])
          (hdigits i (by omega) hhi)
    · omega

/-- The characters of a jump target, one by one. -/
theorem IsJumpTarget.chars {code : List Char} {start stop : Nat} (hjump : IsJumpTarget code start stop) :
    start + 5 < stop ∧ code[start]? = some '(' ∧ code[start + 1]? = some 't' ∧
      code[start + 2]? = some 'o' ∧ code[start + 3]? = some ' ' ∧
      Run Text.isDigit code (start + 4) (stop - 1) ∧ code[stop - 1]? = some ')' := by
  obtain ⟨hinside, digits, hne, hdigits, hslice⟩ := hjump
  have hlen := congrArg List.length hslice
  simp only [List.length_drop, List.length_take, List.length_append, List.length_cons,
    List.length_nil] at hlen
  have hpos := List.length_pos_iff.mpr hne
  have hget (i : Nat) (hi : start + i < stop) :
      code[start + i]? = ('(' :: 't' :: 'o' :: ' ' :: (digits ++ [')']))[i]? := by
    have hhere := congrArg (·[i]?) hslice
    simpa [List.getElem?_drop, List.getElem?_take, hi] using hhere
  refine ⟨by omega, hget 0 (by omega), hget 1 (by omega), hget 2 (by omega), hget 3 (by omega), ?_, ?_⟩
  · intro i hlo hhi
    have hhere := hget (i - start) (by omega)
    rw [show start + (i - start) = i by omega, show i - start = i - (start + 4) + 4 by omega] at hhere
    simp only [List.getElem?_cons_succ] at hhere
    rw [List.getElem?_append_left (by omega)] at hhere
    rw [hhere, List.getElem?_eq_getElem (by omega), Option.any_some]
    exact hdigits _ (List.getElem_mem _)
  · have hhere := hget (digits.length + 4) (by omega)
    rw [show start + (digits.length + 4) = stop - 1 by omega] at hhere
    simpa using hhere

/-- A line number holds nothing that a word could hold next to it, and no word starts with a digit. -/
theorem IsLineNumber.apart_word {code : List Char} {start stop first last : Nat}
    (hnumber : IsLineNumber code start stop) (hword : IsWordWithSuffix code first last) :
    stop ≤ first ∨ last ≤ start := by
  obtain ⟨hlt, hdigits, hpos, hbefore, _⟩ := hnumber
  by_contra hoverlap
  by_cases hlater : first < start
  · have hspace := hword.run (start - 1) (by omega) (by omega)
    rw [hbefore] at hspace
    exact absurd hspace (by decide)
  · have hdigit := hdigits first (by omega) (by omega)
    have hname := hword.1
    obtain ⟨c, hget, hc⟩ := (Option.any_eq_true _ _).mp hname
    rw [hget, Option.any_some, Text.isDigit_eq_false_of_isNameStart hc] at hdigit
    cases hdigit

/-- The digits of a jump target stand in front of a parenthesis, those of a line number in front of a
space. -/
theorem IsLineNumber.apart_jumpTarget {code : List Char} {start stop first last : Nat}
    (hnumber : IsLineNumber code start stop) (hjump : IsJumpTarget code first last) :
    stop ≤ first ∨ last ≤ start := by
  obtain ⟨hlt, hdigits, _, _, hbehind⟩ := hnumber
  obtain ⟨hlong, hopen, ht, ho, hspace, hrun, hclose⟩ := hjump.chars
  by_contra hoverlap
  have outside {i : Nat} {c : Char} (hget : code[i]? = some c) (hc : Text.isDigit c = false) :
      ¬ (start ≤ i ∧ i < stop) := by
    rintro ⟨hlo, hhi⟩
    have hdigit := hdigits i hlo hhi
    rw [hget, Option.any_some, hc] at hdigit
    cases hdigit
  have h0 := outside hopen (by decide)
  have h1 := outside ht (by decide)
  have h2 := outside ho (by decide)
  have h3 := outside hspace (by decide)
  have h4 := outside hclose (by decide)
  -- so the line number lies among the digits, and the character behind it is one or the parenthesis
  by_cases hend : stop = last - 1
  · rw [hend, hclose] at hbehind
    exact absurd hbehind (by decide)
  · have hdigit := hrun stop (by omega) (by omega)
    rw [hbehind] at hdigit
    exact absurd hdigit (by decide)

/-- The one word in a jump target names no opcode. -/
theorem IsOpcodeName.apart_jumpTarget {code : List Char} {start stop first last : Nat}
    (hname : IsOpcodeName code start stop) (hjump : IsJumpTarget code first last) :
    stop ≤ first ∨ last ≤ start := by
  obtain ⟨hword, hopcode⟩ := hname
  obtain ⟨hstart, hbefore, middle, hmiddle, _, _, hsuffix⟩ := id hword
  obtain ⟨hlong, hopen, ht, ho, hspace, hrun, hclose⟩ := hjump.chars
  by_contra hoverlap
  have hlt : start < stop := by
    rcases hsuffix with hsome | ⟨rfl, _⟩
    · have hmore := hsome.2.1
      omega
    · exact hmiddle
  have outside {i : Nat} {c : Char} (hget : code[i]? = some c)
      (hc : (Text.isWord c || c == '+') = false) : ¬ (start ≤ i ∧ i < stop) := by
    rintro ⟨hlo, hhi⟩
    have hhere := hword.run i hlo hhi
    rw [hget, Option.any_some, hc] at hhere
    cases hhere
  have h0 := outside hopen (by decide)
  have h3 := outside hspace (by decide)
  have h4 := outside hclose (by decide)
  obtain ⟨c, hget, hc⟩ := (Option.any_eq_true _ _).mp hstart
  by_cases hdigits : first + 3 < start
  · have hdigit := hrun start (by omega) (by omega)
    rw [hget, Option.any_some, Text.isDigit_eq_false_of_isNameStart hc] at hdigit
    cases hdigit
  by_cases hsecond : start = first + 2
  · have hinside := hbefore (by omega)
    rw [show start - 1 = first + 1 by omega, ht] at hinside
    exact absurd hinside (by decide)
  -- what is left is the word at its start, cut after one letter or two
  have hfirst : start = first + 1 := by omega
  have hslice : (code.take stop).drop start = ['t', 'o'].take (stop - start) := by
    obtain ⟨htlt, htget⟩ := List.getElem?_eq_some_iff.mp ht
    obtain ⟨holt, hoget⟩ := List.getElem?_eq_some_iff.mp ho
    rw [List.drop_take, hfirst, List.drop_eq_getElem_cons htlt, List.drop_eq_getElem_cons holt, htget,
      hoget]
    rcases (by omega : stop - (first + 1) = 1 ∨ stop - (first + 1) = 2) with hone | htwo
    · rw [hone]
      rfl
    · rw [htwo]
      rfl
  rw [hslice] at hopcode
  rcases (by omega : stop - start = 1 ∨ stop - start = 2) with hone | htwo
  · rw [hone] at hopcode
    exact absurd hopcode (by decide +kernel)
  · rw [htwo] at hopcode
    exact absurd hopcode (by decide +kernel)

theorem IsDeclaredLabel.apart_lineNumber {code : List Char} {start stop first last : Nat}
    (hlabel : IsDeclaredLabel code start stop) (hnumber : IsLineNumber code first last) :
    last ≤ start ∨ stop ≤ first := by
  obtain ⟨_, hlt, hrun, hcolon⟩ := hlabel
  obtain ⟨hne, hdigits, _, _, hbehind⟩ := hnumber
  by_contra hoverlap
  rcases Nat.lt_trichotomy last stop with hshort | rfl | hlong
  · have hhere := hrun last (by omega) hshort
    rw [hbehind] at hhere
    exact absurd hhere (by decide)
  · rw [hcolon] at hbehind
    exact absurd hbehind (by decide)
  · have hhere := hdigits stop (by omega) hlong
    rw [hcolon] at hhere
    exact absurd hhere (by decide)

theorem IsDeclaredLabel.apart_jumpTarget {code : List Char} {start stop first last : Nat}
    (hlabel : IsDeclaredLabel code start stop) (hjump : IsJumpTarget code first last) :
    last ≤ start ∨ stop ≤ first := by
  obtain ⟨hblanks, hlt, hrun, _⟩ := hlabel
  have hopen := hjump.chars.2.1
  by_contra hoverlap
  by_cases hblank : first < start
  · have hhere := hblanks first (Nat.zero_le _) hblank
    rw [hopen] at hhere
    exact absurd hhere (by decide)
  · have hhere := hrun first (by omega) (by omega)
    rw [hopen] at hhere
    exact absurd hhere (by decide)

/-- The rules for line numbers and opcode names, and those two with the rule for jump targets. -/
def numbersAndNames (code : List Char) : List Span :=
  [Rule.lineNumber, Rule.mnemonic].foldl (applyRule code) []

def numbersNamesAndJumps (code : List Char) : List Span :=
  applyRule code (numbersAndNames code) Rule.jumpTarget

theorem mem_numbers_iff {code : List Char} {span : Span} :
    span ∈ applyRule code [] Rule.lineNumber ↔
      ∃ start stop : Nat, span = ⟨start, stop, .lineNumber⟩ ∧ IsLineNumber code start stop := by
  rw [mem_applyRule_iff (scanFrom_pairwise ..)]
  constructor
  · rintro (hnone | ⟨⟨⟨start, stop⟩, hcandidate, rfl⟩, _⟩)
    · cases hnone
    · exact ⟨start, stop, rfl, mem_lineNumber_candidates_iff.mp hcandidate⟩
  · rintro ⟨start, stop, rfl, hnumber⟩
    exact .inr ⟨⟨(start, stop), mem_lineNumber_candidates_iff.mpr hnumber, rfl⟩, by simp⟩

/-- Line numbers do not get in the way of opcode names. -/
theorem mem_numbersAndNames_iff {code : List Char} {span : Span} :
    span ∈ numbersAndNames code ↔
      (∃ start stop : Nat, span = ⟨start, stop, .lineNumber⟩ ∧ IsLineNumber code start stop) ∨
        ∃ start stop : Nat, span = ⟨start, stop, .mnemonic⟩ ∧ IsOpcodeName code start stop := by
  change span ∈ applyRule code (applyRule code [] Rule.lineNumber) Rule.mnemonic ↔ _
  rw [mem_applyRule_iff ((scanFrom_pairwise ..).filter _), mem_numbers_iff]
  refine or_congr_right ⟨?_, ?_⟩
  · rintro ⟨⟨⟨start, stop⟩, hcandidate, rfl⟩, _⟩
    exact ⟨start, stop, rfl, mem_mnemonic_candidates_iff.mp hcandidate⟩
  · rintro ⟨start, stop, rfl, hname⟩
    refine ⟨⟨(start, stop), mem_mnemonic_candidates_iff.mpr hname, rfl⟩, ?_⟩
    intro other hother
    obtain ⟨first, last, rfl, hnumber⟩ := mem_numbers_iff.mp hother
    have hapart := hnumber.apart_word hname.1
    simp only [Span.Apart]
    omega

/-- Neither line numbers nor opcode names get in the way of jump targets. -/
theorem mem_numbersNamesAndJumps_iff {code : List Char} {span : Span} :
    span ∈ numbersNamesAndJumps code ↔ span ∈ numbersAndNames code ∨
      ∃ start stop : Nat, span = ⟨start, stop, .jumpTarget⟩ ∧ IsJumpTarget code start stop := by
  rw [numbersNamesAndJumps, mem_applyRule_iff (scanFrom_pairwise ..)]
  refine or_congr_right ⟨?_, ?_⟩
  · rintro ⟨⟨⟨start, stop⟩, hcandidate, rfl⟩, _⟩
    exact ⟨start, stop, rfl, mem_jumpTarget_candidates_iff.mp hcandidate⟩
  · rintro ⟨start, stop, rfl, hjump⟩
    refine ⟨⟨(start, stop), mem_jumpTarget_candidates_iff.mpr hjump, rfl⟩, ?_⟩
    intro other hother
    rcases mem_numbersAndNames_iff.mp hother with ⟨first, last, rfl, hnumber⟩ | ⟨first, last, rfl, hname⟩
    · have hapart := hnumber.apart_jumpTarget hjump
      simp only [Span.Apart]
      omega
    · have hapart := hname.apart_jumpTarget hjump
      simp only [Span.Apart]
      omega

/-- Of the earlier rules only the one for opcode names can keep a label from being tagged. -/
theorem mem_applyRule_label_iff {code : List Char} {span : Span} :
    span ∈ applyRule code (numbersNamesAndJumps code) Rule.label ↔
      span ∈ numbersNamesAndJumps code ∨
        ∃ start stop : Nat, span = ⟨start, stop, .label⟩ ∧ IsDeclaredLabel code start stop ∧
          ∀ first last, IsOpcodeName code first last → last ≤ start ∨ stop ≤ first := by
  have hsingle : (Rule.label.candidates code).Pairwise fun c d => c.2 ≤ d.1 := by
    change (label? code).toList.Pairwise _
    cases label? code <;> simp
  rw [mem_applyRule_iff hsingle]
  refine or_congr_right ⟨?_, ?_⟩
  · rintro ⟨⟨⟨start, stop⟩, hcandidate, rfl⟩, hfree⟩
    refine ⟨start, stop, rfl, mem_label_candidates_iff.mp hcandidate, fun first last hname => ?_⟩
    have hkept : (⟨first, last, .mnemonic⟩ : Span) ∈ numbersNamesAndJumps code :=
      mem_numbersNamesAndJumps_iff.mpr (.inl (mem_numbersAndNames_iff.mpr (.inr ⟨_, _, rfl, hname⟩)))
    have hapart := hfree _ hkept
    simp only [Span.Apart, Category.region] at hapart
    omega
  · rintro ⟨start, stop, rfl, hlabel, hnames⟩
    refine ⟨⟨(start, stop), mem_label_candidates_iff.mpr hlabel, rfl⟩, ?_⟩
    intro other hother
    simp only [Span.Apart]
    rcases mem_numbersNamesAndJumps_iff.mp hother with hearlier | ⟨first, last, rfl, hjump⟩
    · rcases mem_numbersAndNames_iff.mp hearlier with ⟨first, last, rfl, hnumber⟩ | ⟨first, last, rfl, hname⟩
      · have hapart := hlabel.apart_lineNumber hnumber
        simp only
        omega
      · have hapart := hnames first last hname
        simp only
        omega
    · have hapart := hlabel.apart_jumpTarget hjump
      simp only
      omega

/-- A comment adds regions of its own two categories only. -/
theorem mem_classify_iff {marker text : List Char} {sourceInComments : Bool} {span : Span}
    (hcomment : span.category ≠ .comment) (hsource : span.category ≠ .source) :
    span ∈ classify marker sourceInComments text ↔
      span ∈ Rule.standard.foldl (applyRule (code marker text)) [] := by
  unfold classify classifyWith
  split
  · rename_i k hfound
    have htail : span ∉ commentSpans marker text sourceInComments k := by
      intro hspan
      unfold commentSpans at hspan
      simp only at hspan
      split at hspan
      · simp only [List.mem_cons, List.not_mem_nil, or_false] at hspan
        rcases hspan with rfl | rfl
        · exact hcomment rfl
        · exact hsource rfl
      · rw [List.mem_singleton.mp hspan] at hcomment
        exact hcomment rfl
    rw [List.mem_append, or_iff_left htail, ruleSpans, List.mem_mergeSort, code_of_commentStart hfound]
  · rename_i hnone
    rw [ruleSpans, List.mem_mergeSort, code_of_no_comment hnone]

/-- The rules behind the first four tag operand bytes and references to labels only. -/
theorem mem_classify_iff_of_leading {marker text : List Char} {sourceInComments : Bool} {span : Span}
    (hleading : span.category ∈
      ([.lineNumber, .mnemonic, .jumpTarget, .label] : List Category)) :
    span ∈ classify marker sourceInComments text ↔
      span ∈ applyRule (code marker text) (numbersNamesAndJumps (code marker text)) Rule.label := by
  have hne {category : Category} (hother : category ∉
      ([.lineNumber, .mnemonic, .jumpTarget, .label] : List Category)) : span.category ≠ category := by
    rintro rfl
    exact hother hleading
  rw [mem_classify_iff (hne (by decide)) (hne (by decide))]
  simp only [Rule.standard, List.foldl_cons, List.foldl_nil]
  rw [mem_applyRule_iff_of_ne (hne (by decide)), mem_applyRule_iff_of_ne (hne (by decide)),
    mem_applyRule_iff_of_ne (hne (by decide))]
  rfl

theorem mem_classify_leading_iff {marker text : List Char} {sourceInComments : Bool} {span : Span}
    (hleading : span.category ∈
      ([.lineNumber, .mnemonic, .jumpTarget, .label] : List Category)) :
    span ∈ classify marker sourceInComments text ↔
      (∃ start stop : Nat, span = ⟨start, stop, .lineNumber⟩ ∧
          IsLineNumber (code marker text) start stop) ∨
        (∃ start stop : Nat, span = ⟨start, stop, .mnemonic⟩ ∧
          IsOpcodeName (code marker text) start stop) ∨
        (∃ start stop : Nat, span = ⟨start, stop, .jumpTarget⟩ ∧
          IsJumpTarget (code marker text) start stop) ∨
        ∃ start stop : Nat, span = ⟨start, stop, .label⟩ ∧
          IsDeclaredLabel (code marker text) start stop ∧
          ∀ first last, IsOpcodeName (code marker text) first last → last ≤ start ∨ stop ≤ first := by
  rw [mem_classify_iff_of_leading hleading, mem_applyRule_label_iff, mem_numbersNamesAndJumps_iff,
    mem_numbersAndNames_iff, or_assoc, or_assoc]

theorem lineNumber_mem_classify_iff {marker text : List Char} {sourceInComments : Bool}
    {start stop : Nat} :
    (⟨start, stop, .lineNumber⟩ : Span) ∈ classify marker sourceInComments text ↔
      IsLineNumber (code marker text) start stop := by
  rw [mem_classify_leading_iff (by simp)]
  simp only [Span.mk.injEq, Int.natCast_inj, and_true, and_assoc, exists_and_left, ↓existsAndEq, true_and,
    exists_eq_left', reduceCtorEq, and_false, false_and, exists_const, or_self, or_false]

theorem mnemonic_mem_classify_iff {marker text : List Char} {sourceInComments : Bool}
    {start stop : Nat} :
    (⟨start, stop, .mnemonic⟩ : Span) ∈ classify marker sourceInComments text ↔
      IsOpcodeName (code marker text) start stop := by
  rw [mem_classify_leading_iff (by simp)]
  simp only [Span.mk.injEq, Int.natCast_inj, reduceCtorEq, and_false, false_and, exists_const, and_true,
    and_assoc, exists_and_left, ↓existsAndEq, true_and, exists_eq_left', or_self, or_false, false_or]

theorem jumpTarget_mem_classify_iff {marker text : List Char} {sourceInComments : Bool}
    {start stop : Nat} :
    (⟨start, stop, .jumpTarget⟩ : Span) ∈ classify marker sourceInComments text ↔
      IsJumpTarget (code marker text) start stop := by
  rw [mem_classify_leading_iff (by simp)]
  simp only [Span.mk.injEq, Int.natCast_inj, reduceCtorEq, and_false, false_and, exists_const, and_true,
    and_assoc, exists_and_left, ↓existsAndEq, true_and, exists_eq_left', or_false, false_or]

theorem label_mem_classify_iff {marker text : List Char} {sourceInComments : Bool}
    {start stop : Nat} :
    (⟨start, stop, .label⟩ : Span) ∈ classify marker sourceInComments text ↔
      IsDeclaredLabel (code marker text) start stop ∧
        ∀ other ∈ classify marker sourceInComments text, other.category = .mnemonic →
          other.overlaps start stop = false := by
  rw [mem_classify_leading_iff (by simp)]
  have hoverlaps : (∀ other ∈ classify marker sourceInComments text, other.category = .mnemonic →
        other.overlaps start stop = false) ↔
      ∀ first last, IsOpcodeName (code marker text) first last → last ≤ start ∨ stop ≤ first := by
    constructor
    · intro hfree first last hname
      have hapart := hfree ⟨first, last, .mnemonic⟩ (mnemonic_mem_classify_iff.mpr hname) rfl
      simp only [Span.overlaps, Bool.and_eq_false_iff, decide_eq_false_iff_not] at hapart
      omega
    · intro hnames other hother hcategory
      rw [mem_classify_leading_iff (by simp [hcategory])] at hother
      rcases hother with ⟨_, _, rfl, _⟩ | ⟨first, last, rfl, hname⟩ | ⟨_, _, rfl, _⟩ | ⟨_, _, rfl, _⟩
      · cases hcategory
      · have hapart := hnames first last hname
        simp only [Span.overlaps, Bool.and_eq_false_iff, decide_eq_false_iff_not]
        omega
      · cases hcategory
      · cases hcategory
  rw [hoverlaps]
  simp only [Span.mk.injEq, Int.natCast_inj, reduceCtorEq, and_false, false_and, exists_const, and_true,
    and_assoc, exists_and_left, ↓existsAndEq, true_and, exists_eq_left', false_or]

/-- The exact meaning of the four leading categories. Whatever else a line holds, its line numbers, opcode
names and jump targets are all tagged, and a declared label is tagged unless an opcode name overlaps
it. -/
theorem leading_span_iff (marker : Char) (sourceInComments : Bool) (text : List Char)
    (start stop : Nat) :
    ((⟨start, stop, .lineNumber⟩ : Span) ∈ classify [marker] sourceInComments text ↔
        IsLineNumber (code [marker] text) start stop) ∧
      ((⟨start, stop, .mnemonic⟩ : Span) ∈ classify [marker] sourceInComments text ↔
        IsOpcodeName (code [marker] text) start stop) ∧
      ((⟨start, stop, .jumpTarget⟩ : Span) ∈ classify [marker] sourceInComments text ↔
        IsJumpTarget (code [marker] text) start stop) ∧
      ((⟨start, stop, .label⟩ : Span) ∈ classify [marker] sourceInComments text ↔
        IsDeclaredLabel (code [marker] text) start stop ∧
          ∀ other ∈ classify [marker] sourceInComments text, other.category = .mnemonic →
            other.overlaps start stop = false) :=
  ⟨lineNumber_mem_classify_iff, mnemonic_mem_classify_iff, jumpTarget_mem_classify_iff,
    label_mem_classify_iff⟩

end ListingEditor.Listing
