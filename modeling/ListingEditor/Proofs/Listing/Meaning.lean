import ListingEditor.Proofs.Listing.Recognizer

/-!
What the regions of a listing mean, said of the characters of the code alone: line numbers, opcode names with
their suffixes, jump targets and declared labels. The scans for them find exactly these.
-/

namespace ListingEditor.Listing

/-- Every place from `start` up to `stop` holds a character of the kind. -/
def Run (kind : Char → Bool) (code : List Char) (start stop : Nat) : Prop :=
  ∀ i, start ≤ i → i < stop → code[i]?.any kind = true

/-- A line number: digits, with a space on either side. -/
def IsLineNumber (code : List Char) (start stop : Nat) : Prop :=
  start < stop ∧ Run Text.isDigit code start stop ∧
    0 < start ∧ code[start - 1]? = some ' ' ∧ code[stop]? = some ' '

/-- The numeric suffix of a word that ends at `middle`: a plus sign and all the digits that follow, if there
are any and no word character comes behind them. -/
def IsSuffix (code : List Char) (middle stop : Nat) : Prop :=
  code[middle]? = some '+' ∧ middle + 1 < stop ∧ Run Text.isDigit code (middle + 1) stop ∧
    code[stop]?.any Text.isDigit = false ∧ code[stop]?.any Text.isWord = false

/-- A whole word that starts like a name, with its suffix if it has one. -/
def IsWordWithSuffix (code : List Char) (start stop : Nat) : Prop :=
  code[start]?.any isNameStart = true ∧ (0 < start → code[start - 1]?.any Text.isWord = false) ∧
    ∃ middle, start < middle ∧ Run Text.isWord code start middle ∧
      code[middle]?.any Text.isWord = false ∧
      (IsSuffix code middle stop ∨ stop = middle ∧ ∀ other, ¬ IsSuffix code middle other)

/-- A whole word, with its suffix if it has one, that names an opcode. -/
def IsOpcodeName (code : List Char) (start stop : Nat) : Prop :=
  IsWordWithSuffix code start stop ∧ Opcode.isMnemonic ((code.take stop).drop start) = true

/-- The target of a jump: digits behind the word `to`, in parentheses. -/
def IsJumpTarget (code : List Char) (start stop : Nat) : Prop :=
  stop ≤ code.length ∧ ∃ digits, digits ≠ [] ∧ (∀ c ∈ digits, Text.isDigit c = true) ∧
    (code.take stop).drop start = ['(', 't', 'o', ' '] ++ digits ++ [')']

/-- A declared label: the first word of the code, in front of a colon. -/
def IsDeclaredLabel (code : List Char) (start stop : Nat) : Prop :=
  Run Text.isBlank code 0 start ∧ start < stop ∧ Run isLabelChar code start stop ∧
    code[stop]? = some ':'

theorem takeWhile_drop_length_eq_iff {kind : Char → Bool} {code : List Char} {start n : Nat} :
    ((code.drop start).takeWhile kind).length = n ↔
      Run kind code start (start + n) ∧ code[start + n]?.any kind = false := by
  rw [Text.takeWhile_length_eq_iff]
  simp only [List.getElem?_drop]
  refine and_congr_left fun _ => ⟨fun hrun i hlo hhi => ?_, fun hrun i hi => ?_⟩
  · have hhere := hrun (i - start) (by omega)
    rwa [show start + (i - start) = i by omega] at hhere
  · exact hrun (start + i) (by omega) (by omega)

theorem any_of_eq_some {c : Char} {found : Option Char} {kind : Char → Bool} (hfound : found = some c)
    (hkind : kind c = false) : found.any kind = false := by
  rw [hfound, Option.any_some, hkind]

theorem charBefore_eq_space_iff {code : List Char} {start : Nat} :
    charBefore none code start = some ' ' ↔ 0 < start ∧ code[start - 1]? = some ' ' := by
  cases start <;> simp [charBefore]

theorem charBefore_any_eq_false_iff {kind : Char → Bool} {code : List Char} {start : Nat} :
    (charBefore none code start).any kind = false ↔
      (0 < start → code[start - 1]?.any kind = false) := by
  cases start <;> simp [charBefore]

theorem lineNumberAt_unnested : Recognizer.Unnested lineNumberAt := by
  intro previous text n i hrecognized hpos hlt
  obtain ⟨_, _, hrun, _⟩ := lineNumberAt_eq_some_iff.mp hrecognized
  cases i with
  | zero => omega
  | succ i =>
    have hdigit := (Text.takeWhile_length_eq_iff.mp hrun).1 i (by omega)
    by_contra hnot
    obtain ⟨m, hagain⟩ := Option.ne_none_iff_exists'.mp hnot
    have hspace : text[i]? = some ' ' := (lineNumberAt_eq_some_iff.mp hagain).1
    rw [hspace] at hdigit
    exact absurd hdigit (by decide)

theorem mem_lineNumber_candidates_iff {code : List Char} {start stop : Nat} :
    (start, stop) ∈ Rule.lineNumber.candidates code ↔ IsLineNumber code start stop := by
  refine (mem_scan_iff lineNumberAt_unnested).trans ?_
  rw [Recognizer.atPlace, lineNumberAt_eq_some_iff, digitRun, takeWhile_drop_length_eq_iff,
    charBefore_eq_space_iff, List.getElem?_drop]
  constructor
  · rintro ⟨_, hle, hbefore, hlt, hrun, hbehind⟩
    rw [show start + (stop - start) = stop by omega] at hrun hbehind
    exact ⟨by omega, hrun.1, hbefore.1, hbefore.2, hbehind⟩
  · rintro ⟨hlt, hrun, hpos, hbefore, hbehind⟩
    have hinside := (List.getElem?_eq_some_iff.mp hbehind).1
    rw [show start + (stop - start) = stop by omega]
    exact ⟨by omega, by omega, ⟨hpos, hbefore⟩, by omega,
      ⟨hrun, any_of_eq_some hbehind (by decide)⟩, hbehind⟩

/-- The suffix of a word, as its length. -/
theorem suffixLength_drop_eq_iff {code : List Char} {middle stop : Nat} (hlt : middle < stop) :
    suffixLength (code.drop middle) = stop - middle ↔ IsSuffix code middle stop := by
  rw [show stop - middle = stop - (middle + 1) + 1 by omega, suffixLength_eq_succ_iff]
  have hstop (hle : middle + 1 ≤ stop) : middle + 1 + (stop - (middle + 1)) = stop := by omega
  constructor
  · rintro ⟨rest, hdrop, hpos, hrun, hbehind⟩
    have hrest : rest = code.drop (middle + 1) := by
      rw [← List.drop_drop, hdrop, List.drop_one, List.tail_cons]
    rw [hrest, digitRun, takeWhile_drop_length_eq_iff, hstop hlt] at hrun
    rw [hrest, List.getElem?_drop, hstop hlt] at hbehind
    have hplus : code[middle]? = some '+' := by
      rw [← List.head?_drop, hdrop, List.head?_cons]
    exact ⟨hplus, by omega, hrun.1, hrun.2, hbehind⟩
  · rintro ⟨hplus, hmore, hrun, hdigit, hbehind⟩
    refine ⟨code.drop (middle + 1), ?_, by omega, ?_, ?_⟩
    · obtain ⟨hinside, hget⟩ := List.getElem?_eq_some_iff.mp hplus
      rw [List.drop_eq_getElem_cons hinside, hget]
    · rw [digitRun, takeWhile_drop_length_eq_iff, hstop hlt]
      exact ⟨hrun, hdigit⟩
    · rw [List.getElem?_drop, hstop hlt]
      exact hbehind

theorem wordAt_unnested : Recognizer.Unnested wordAt := by
  intro previous text n i hrecognized hpos hlt
  obtain ⟨_, _, hn⟩ := wordAt_eq_some_iff.mp hrecognized
  obtain ⟨hrun, hend⟩ := Text.takeWhile_length_eq_iff.mp
    (Eq.refl (text.takeWhile Text.isWord).length)
  generalize (text.takeWhile Text.isWord).length = middle at hn hrun hend
  by_contra hnot
  obtain ⟨m, hagain⟩ := Option.ne_none_iff_exists'.mp hnot
  obtain ⟨hname, hbefore, _⟩ := wordAt_eq_some_iff.mp hagain
  rw [List.getElem?_drop, Nat.add_zero] at hname
  by_cases hinside : i ≤ middle
  · -- the character before this place belongs to the word
    cases i with
    | zero => omega
    | succ i =>
      have hword := hrun i (by omega)
      rw [charBefore] at hbefore
      rw [hbefore] at hword
      cases hword
  · -- the place lies among the digits of the suffix
    have hsuffix : IsSuffix text middle n :=
      (suffixLength_drop_eq_iff (by omega)).mp (by omega)
    have hdigit := hsuffix.2.2.1 i (by omega) (by omega)
    cases hget : text[i]? with
    | none => simp [hget] at hname
    | some c =>
      rw [hget, Option.any_some] at hname hdigit
      rw [Text.isDigit_eq_false_of_isNameStart hname] at hdigit
      cases hdigit

theorem mem_scan_wordAt_iff {code : List Char} {start stop : Nat} :
    (start, stop) ∈ scan wordAt code ↔ IsWordWithSuffix code start stop := by
  rw [mem_scan_iff wordAt_unnested, Recognizer.atPlace, wordAt_eq_some_iff,
    charBefore_any_eq_false_iff, List.getElem?_drop, Nat.add_zero]
  constructor
  · rintro ⟨_, hle, hname, hbefore, hlength⟩
    obtain ⟨hrun, hend⟩ := takeWhile_drop_length_eq_iff.mp
      (Eq.refl ((code.drop start).takeWhile Text.isWord).length)
    generalize ((code.drop start).takeWhile Text.isWord).length = n at hlength hrun hend
    rw [List.drop_drop] at hlength
    have hpos : 0 < n := by
      by_contra hnot
      have hzero : n = 0 := by omega
      rw [hzero, Nat.add_zero] at hend
      cases hget : code[start]? with
      | none => simp [hget] at hname
      | some c =>
        rw [hget, Option.any_some] at hname hend
        rw [Text.isWord_of_isNameStart hname] at hend
        cases hend
    refine ⟨hname, hbefore, start + n, by omega, hrun, hend, ?_⟩
    by_cases hsuffix : start + n < stop
    · exact .inl ((suffixLength_drop_eq_iff hsuffix).mp (by omega))
    · refine .inr ⟨by omega, fun other hother => ?_⟩
      have hmore := hother.2.1
      have hsome := (suffixLength_drop_eq_iff (by omega)).mpr hother
      omega
  · rintro ⟨hname, hbefore, middle, hmiddle, hrun, hend, hsuffix⟩
    have hlength : ((code.drop start).takeWhile Text.isWord).length = middle - start := by
      rw [takeWhile_drop_length_eq_iff, show start + (middle - start) = middle by omega]
      exact ⟨hrun, hend⟩
    have hinside : start < code.length := by
      by_contra hnot
      rw [List.getElem?_eq_none (by omega)] at hname
      cases hname
    rw [hlength, List.drop_drop, show start + (middle - start) = middle by omega]
    rcases hsuffix with hsome | ⟨rfl, hnone⟩
    · have hmore := hsome.2.1
      have hlen := (suffixLength_drop_eq_iff (by omega)).mpr hsome
      exact ⟨hinside, by omega, hname, hbefore, by omega⟩
    · have hzero : suffixLength (code.drop stop) = 0 := by
        by_contra hnot
        exact hnone (stop + suffixLength (code.drop stop))
          ((suffixLength_drop_eq_iff (by omega)).mp (by omega))
      exact ⟨hinside, by omega, hname, hbefore, by omega⟩

theorem mem_mnemonic_candidates_iff {code : List Char} {start stop : Nat} :
    (start, stop) ∈ Rule.mnemonic.candidates code ↔ IsOpcodeName code start stop := by
  change (start, stop) ∈ mnemonicCandidates code ↔ _
  rw [mnemonicCandidates, List.mem_filter, mem_scan_wordAt_iff, IsOpcodeName]

theorem digitRun_append_close {digits : List Char} (rear : List Char)
    (hdigits : ∀ c ∈ digits, Text.isDigit c = true) :
    digitRun (digits ++ ')' :: rear) = digits.length := by
  rw [digitRun, List.takeWhile_append_of_pos hdigits, List.takeWhile_cons,
    if_neg (by decide), List.append_nil]

theorem jumpTargetAt_unnested : Recognizer.Unnested jumpTargetAt := by
  intro previous text n i hrecognized hpos hlt
  obtain ⟨rest, rfl, _, hclose, rfl⟩ := jumpTargetAt_eq_some_iff.mp hrecognized
  have hrun := (Text.takeWhile_length_eq_iff.mp (Eq.refl (digitRun rest))).1
  by_contra hnot
  obtain ⟨m, hagain⟩ := Option.ne_none_iff_exists'.mp hnot
  obtain ⟨again, hdrop, _⟩ := jumpTargetAt_eq_some_iff.mp hagain
  have hopen : ('(' :: 't' :: 'o' :: ' ' :: rest)[i]? = some '(' := by
    rw [← List.head?_drop, hdrop, List.head?_cons]
  match i, hpos with
  | 1, _ | 2, _ | 3, _ => simp at hopen
  | j + 4, _ =>
    have hopen : rest[j]? = some '(' := by simpa using hopen
    by_cases hdigit : j < digitRun rest
    · have hhere := hrun j hdigit
      rw [hopen] at hhere
      exact absurd hhere (by decide)
    · rw [show j = digitRun rest by omega, hclose] at hopen
      exact absurd hopen (by decide)

theorem mem_jumpTarget_candidates_iff {code : List Char} {start stop : Nat} :
    (start, stop) ∈ Rule.jumpTarget.candidates code ↔ IsJumpTarget code start stop := by
  refine (mem_scan_iff jumpTargetAt_unnested).trans ?_
  rw [Recognizer.atPlace, jumpTargetAt_eq_some_iff]
  constructor
  · rintro ⟨hinside, hle, rest, hdrop, hpos, hclose, hlength⟩
    obtain ⟨hlt, hget⟩ := List.getElem?_eq_some_iff.mp hclose
    have hlen := congrArg List.length hdrop
    simp only [List.length_drop, List.length_cons] at hlen
    refine ⟨by omega, rest.take (digitRun rest), ?_, ?_, ?_⟩
    · intro hempty
      have hnone := congrArg List.length hempty
      rw [List.length_take, List.length_nil] at hnone
      omega
    · rw [digitRun, ← List.prefix_iff_eq_take.mp (List.takeWhile_prefix _)]
      exact List.all_eq_true.mp List.all_takeWhile
    · have htake : rest.take (digitRun rest + 1) = rest.take (digitRun rest) ++ [')'] := by
        rw [List.take_add_one, hclose, Option.toList_some]
      rw [List.drop_take, hdrop, hlength]
      simp only [List.take_succ_cons, htake, List.cons_append, List.nil_append]
  · rintro ⟨hinside, digits, hne, hdigits, hslice⟩
    have hlen := congrArg List.length hslice
    simp only [List.length_drop, List.length_take, List.length_append, List.length_cons,
      List.length_nil] at hlen
    have hpos := List.length_pos_iff.mpr hne
    have hdrop : code.drop start = '(' :: 't' :: 'o' :: ' ' :: (digits ++ ')' :: code.drop stop) := by
      rw [← List.take_append_drop (stop - start) (code.drop start), ← List.drop_take, hslice,
        List.drop_drop, show start + (stop - start) = stop by omega]
      simp
    have hrun := digitRun_append_close (code.drop stop) hdigits
    refine ⟨by omega, by omega, _, hdrop, by omega, ?_, by omega⟩
    rw [hrun, List.getElem?_append_right (Nat.le_refl _), Nat.sub_self, List.getElem?_cons_zero]

theorem isBlank_eq_false_of_isLabelChar {c : Char} (hlabel : isLabelChar c = true) :
    Text.isBlank c = false := by
  by_contra hblank
  simp only [Bool.not_eq_false, Text.isBlank, Bool.or_eq_true, beq_iff_eq] at hblank
  rcases hblank with rfl | rfl <;> exact absurd hlabel (by decide)

theorem mem_label_candidates_iff {code : List Char} {start stop : Nat} :
    (start, stop) ∈ Rule.label.candidates code ↔ IsDeclaredLabel code start stop := by
  refine Option.mem_toList.trans ?_
  refine Option.mem_def.trans ?_
  rw [label?_eq_some_iff, takeWhile_drop_length_eq_iff, Text.takeWhile_length_eq_iff]
  constructor
  · rintro ⟨⟨hblanks, _⟩, hlt, ⟨hrun, _⟩, hcolon⟩
    rw [show start + (stop - start) = stop by omega] at hrun
    exact ⟨fun i _ hi => hblanks i hi, hlt, hrun, hcolon⟩
  · rintro ⟨hblanks, hlt, hrun, hcolon⟩
    rw [show start + (stop - start) = stop by omega]
    refine ⟨⟨fun i hi => hblanks i (Nat.zero_le i) hi, ?_⟩, hlt,
      ⟨hrun, any_of_eq_some hcolon (by decide)⟩, hcolon⟩
    have hfirst := hrun start (Nat.le_refl _) hlt
    cases hget : code[start]? with
    | none => rfl
    | some c =>
      rw [hget, Option.any_some] at hfirst
      exact isBlank_eq_false_of_isLabelChar hfirst

end ListingEditor.Listing
