import ListingEditor.Listing.RuleChoice
import ListingEditor.Proofs.Listing.Meaning
import ListingEditor.Proofs.Pattern.Greedy

/-!
The standard rules and their shapes. Where the shape of a rule is a search pattern, a search for it finds what the rule
finds: the recognizers read the text as the patterns do. The shapes of line numbers and of references to labels look
around what they match, which a search pattern cannot.
-/

namespace ListingEditor

namespace Pattern

/-- The sets of characters that the shapes of the standard rules name. -/
def digits : CharClass := ⟨false, [.kind .digit false]⟩

def wordChars : CharClass := ⟨false, [.kind .word false]⟩

def nameStarts : CharClass := ⟨false, [.range 'A' 'Z', .range 'a' 'z', .single '_']⟩

def blankChars : CharClass := ⟨false, [.single ' ', .single '\t']⟩

def labelChars : CharClass := ⟨false, [.kind .word false, .single '.', .single '$']⟩

def hexDigits : CharClass := ⟨false, [.range '0' '9', .range 'a' 'f', .range 'A' 'F']⟩

theorem digits_holds : digits.holds false = Text.isDigit := by
  funext c
  simp [CharClass.holds, digits, ClassItem.holds, Kind.holds]

theorem wordChars_holds : wordChars.holds false = Text.isWord := by
  funext c
  simp [CharClass.holds, wordChars, ClassItem.holds, Kind.holds]

theorem nameStarts_holds : nameStarts.holds false = Listing.isNameStart := by
  funext c
  have hupper : decide ('A' ≤ c ∧ c ≤ 'Z') = (decide ('A' ≤ c) && decide (c ≤ 'Z')) := Bool.decide_and _ _
  have hstart : Listing.isNameStart c =
      ((decide ('A' ≤ c ∧ c ≤ 'Z') || (decide ('a' ≤ c) && decide (c ≤ 'z'))) || c == '_') := rfl
  simp [CharClass.holds, nameStarts, ClassItem.holds, hstart, hupper, Bool.or_assoc]

theorem blankChars_holds : blankChars.holds false = Text.isBlank := by
  funext c
  simp [CharClass.holds, blankChars, ClassItem.holds, Text.isBlank]

theorem labelChars_holds : labelChars.holds false = Listing.isLabelChar := by
  funext c
  simp [CharClass.holds, labelChars, ClassItem.holds, Kind.holds, Listing.isLabelChar, Bool.or_assoc]

theorem hexDigits_holds : hexDigits.holds false = Listing.isHexDigit := by
  funext c
  have hdigit : c.isDigit = (decide ('0' ≤ c) && decide (c ≤ '9')) := rfl
  simp [CharClass.holds, hexDigits, ClassItem.holds, Listing.isHexDigit, hdigit, Bool.or_assoc]

end Pattern

namespace Listing

open Pattern (Cursor Node Settled Found literal)

/-- A pattern that matches wherever a recognizer recognizes something, and as much of the text. -/
def Recognizer.Describes (recognize : Recognizer) (p : Pattern) : Prop :=
  ∀ previous offset text,
    (p.matchAt? false previous offset text).map (·.stop) = (recognize previous text).map (offset + ·)

section Describes

variable {recognize : Recognizer} (hbounded : recognize.Bounded) {p : Pattern} (hdescribes : recognize.Describes p)
include hbounded hdescribes

/-- The matches of a pattern in the rest of a text are what the recognizer that it describes finds there. -/
theorem findAllFrom_extents (skip : Nat) (previous : Option Char) (offset : Nat) (text : List Char) :
    (p.findAllFrom skip previous offset text).map (fun found => (found.start, found.stop)) =
      scanFrom recognize skip previous offset text := by
  induction text generalizing skip previous offset with
  | nil =>
    have hnothing : recognize previous [] = none := by
      cases hrecognized : recognize previous [] with
      | none => rfl
      | some n =>
        obtain ⟨hpositive, hle⟩ := hbounded _ _ _ hrecognized
        exact absurd hle (Nat.not_le_of_lt hpositive)
    have hnone := hdescribes previous offset []
    rw [hnothing, Option.map_none, Option.map_eq_none_iff] at hnone
    rw [Pattern.findAllFrom, Pattern.matchesAt_of_none hnone, ite_self]
    rfl
  | cons c text ih =>
    rw [Pattern.findAllFrom, scanFrom]
    split
    · have hhere := hdescribes previous offset (c :: text)
      cases hrecognized : recognize previous (c :: text) with
      | none =>
        rw [hrecognized, Option.map_none, Option.map_eq_none_iff] at hhere
        simp only [Pattern.matchesAt_of_none hhere, List.getLast?_nil, Option.map_none, Option.getD_none, Nat.sub_self,
          Nat.zero_sub, List.nil_append, ih]
      | some n =>
        rw [hrecognized, Option.map_some] at hhere
        obtain ⟨found, hfound, hstop⟩ := Option.map_eq_some_iff.mp hhere
        have hpositive := (hbounded _ _ _ hrecognized).1
        have hrest : offset + n - offset - 1 = n - 1 := by omega
        simp only [Pattern.matchesAt_of_some hfound (by omega), List.getLast?_singleton, Option.map_some,
          Option.getD_some, hrest, List.singleton_append, List.map_cons, Pattern.start_of_matchAt? hfound, hstop, ih]
    · exact ih ..

/-- A search for the pattern that describes a recognizer finds what a scan by it does. -/
theorem ofPattern_candidates (category : Category) (text : List Char) :
    (Rule.ofPattern p 0 category).candidates text = scan recognize text := by
  have hextents : (p.findAll text).map (fun found => (found.start, found.stop)) = scan recognize text :=
    findAllFrom_extents hbounded hdescribes 0 none 0 text
  have hkept (found : Found) (hmem : found ∈ p.findAll text) :
      ((found.extent? 0).filter fun extent => extent.1 < extent.2) = some (found.start, found.stop) := by
    have hscanned : (found.start, found.stop) ∈ scan recognize text := hextents ▸ List.mem_map_of_mem hmem
    have hlt := (scan_inRange hbounded hscanned).1
    exact Option.filter_some_pos (decide_eq_true hlt)
  change ((p.findAll text).filterMap fun found => (found.extent? 0).filter fun extent => extent.1 < extent.2) = _
  rw [List.filterMap_congr hkept, List.filterMap_eq_map', hextents]

end Describes

/-- The shapes of the standard rules as patterns. -/
def jumpTargetPattern : Pattern :=
  { source := Rule.jumpTarget.shape
    node := .sequence (literal ['(', 't', 'o', ' '] ++
      [.loop (.one Pattern.digits) 1 none .greedy, .one (.single ')')])
    groupCount := 0
    anyCase := false }

theorem ofString_jumpTarget : Pattern.ofString Rule.jumpTarget.shape false = .ok jumpTargetPattern := rfl

theorem run_digits_close (s : Cursor) :
    (Node.sequence [.loop (.one Pattern.digits) 1 none .greedy, .one (.single ')')]).run false s some =
      if 0 < digitRun s.rest ∧ (s.rest.drop (digitRun s.rest)).head? = some ')' then
        some ((s.past (s.rest.takeWhile Text.isDigit) (s.rest.drop (digitRun s.rest))).past [')']
          (s.rest.drop (digitRun s.rest)).tail)
      else none := by
  have hother : Pattern.digits.holds false ')' = false := by decide
  have hnote (t : Cursor) : (id t).rest = t.rest := rfl
  have hrun := Pattern.run_plus_last hother hnote s rfl
  rw [Pattern.digits_holds] at hrun
  exact hrun

theorem jumpTargetAt_describes : jumpTargetAt.Describes jumpTargetPattern := by
  intro previous offset text
  rw [Pattern.matchAt?_stop, jumpTargetPattern, Pattern.run_literal]
  by_cases hprefix : ['(', 't', 'o', ' '].isPrefixOf text = true
  · obtain ⟨rest, rfl⟩ := List.isPrefixOf_iff_prefix.mp hprefix
    rw [if_pos hprefix, run_digits_close]
    change Option.map _ (if 0 < digitRun rest ∧ (rest.drop (digitRun rest)).head? = some ')' then _ else none) =
      Option.map _ (if 0 < digitRun rest ∧ (rest.drop (digitRun rest)).head? = some ')' then _ else none)
    split
    · change some (offset + 4 + digitRun rest + 1) = some (offset + (digitRun rest + 5))
      congr 1
      omega
    · rfl
  · rw [if_neg hprefix]
    unfold jumpTargetAt
    split
    · exact absurd rfl hprefix
    · rfl

def byteAfterBarPattern : Pattern :=
  { source := Rule.byteAfterBar.shape
    node := .sequence (literal ['|'] ++ [.loop (.one Pattern.hexDigits) 2 (some 2) .greedy])
    groupCount := 0
    anyCase := false }

def byteBeforeBarPattern : Pattern :=
  { source := Rule.byteBeforeBar.shape
    node := .sequence (.loop (.one Pattern.hexDigits) 2 (some 2) .greedy :: literal ['|'])
    groupCount := 0
    anyCase := false }

theorem ofString_byteAfterBar : Pattern.ofString Rule.byteAfterBar.shape false = .ok byteAfterBarPattern := rfl

theorem ofString_byteBeforeBar : Pattern.ofString Rule.byteBeforeBar.shape false = .ok byteBeforeBarPattern := rfl

/-- Two hexadecimal digits. -/
theorem run_hexPair (s : Cursor) (k : Cursor → Option Cursor) :
    (Node.loop (.one Pattern.hexDigits) 2 (some 2) .greedy).run false s k =
      match s.rest with
      | a :: b :: rest => if isHexDigit a && isHexDigit b then k (s.past [a, b] rest) else none
      | _ => none := by
  rw [Pattern.run_twice]
  match hrest : s.rest with
  | [] => exact Pattern.run_one_nil hrest
  | [a] => rw [Pattern.run_one_cons hrest, Pattern.run_one_nil rfl, ite_self]
  | a :: b :: rest =>
    rw [Pattern.run_one_cons hrest, Pattern.run_one_cons rfl, Pattern.hexDigits_holds, ← ite_and]
    simp only [Bool.and_eq_true]
    rfl

theorem byteAfterBarAt_describes : byteAfterBarAt.Describes byteAfterBarPattern := by
  intro previous offset text
  rw [Pattern.matchAt?_stop, byteAfterBarPattern, Pattern.run_literal]
  by_cases hprefix : ['|'].isPrefixOf text = true
  · obtain ⟨rest, rfl⟩ := List.isPrefixOf_iff_prefix.mp hprefix
    rw [if_pos hprefix]
    change Option.map _ ((Node.loop (.one Pattern.hexDigits) 2 (some 2) .greedy).run false
      (Cursor.past _ ['|'] rest) some) = _
    rw [run_hexPair]
    match rest with
    | [] => rfl
    | [_] => rfl
    | a :: b :: rest =>
      change Option.map _ (if isHexDigit a && isHexDigit b then _ else none) =
        Option.map _ (if isHexDigit a && isHexDigit b then some 3 else none)
      split <;> rfl
  · rw [if_neg hprefix]
    unfold byteAfterBarAt
    split
    · exact absurd rfl hprefix
    · rfl

theorem byteBeforeBarAt_describes : byteBeforeBarAt.Describes byteBeforeBarPattern := by
  intro previous offset text
  rw [Pattern.matchAt?_stop]
  change Option.map _ ((Node.loop (.one Pattern.hexDigits) 2 (some 2) .greedy).run false
    ⟨previous, offset, text, []⟩ fun t => (Node.sequence (literal ['|'])).run false t some) = _
  rw [run_hexPair]
  match text with
  | [] => rfl
  | [_] => rfl
  | [a, b] =>
    simp only [Pattern.run_last]
    change Option.map _ (if isHexDigit a && isHexDigit b then none else none) = none
    rw [ite_self]
    rfl
  | a :: b :: c :: rest =>
    simp only [Pattern.run_last]
    by_cases hbar : c = '|'
    · subst hbar
      change Option.map _ (if isHexDigit a && isHexDigit b then _ else none) =
        Option.map _ (if isHexDigit a && isHexDigit b then some 3 else none)
      split <;> rfl
    · have hother : ¬ some c = some '|' := fun hsame => hbar (Option.some.inj hsame)
      have hnone : byteBeforeBarAt previous (a :: b :: c :: rest) = none := by
        unfold byteBeforeBarAt
        split
        · rename_i hsame
          cases hsame
          exact absurd rfl hbar
        · rfl
      change Option.map _ (if isHexDigit a && isHexDigit b then (if some c = some '|' then _ else none) else none) = _
      rw [if_neg hother, ite_self, hnone]
      rfl

/-- The numeric suffix of a word. -/
def suffixNode : Node := .sequence (literal ['+'] ++ [.loop (.one Pattern.digits) 1 none .greedy])

/-- The end of a word, in front of which there may be a suffix. -/
def wordEndNode : Node := .sequence [.loop suffixNode 0 (some 1) .greedy, .wordEdge false]

/-- The shape of the rules for the names of opcodes, which is that of all words. -/
def wordPattern : Pattern :=
  { source := Rule.mnemonic.shape
    node := .seq (.wordEdge false) (.seq (.one Pattern.nameStarts)
      (.seq (.loop (.one Pattern.wordChars) 0 none .greedy) wordEndNode))
    groupCount := 0
    anyCase := false }

theorem ofString_mnemonic : Pattern.ofString Rule.mnemonic.shape false = .ok wordPattern := rfl

theorem run_wordEdge {s : Cursor} (hprevious : s.previous.any Text.isWord = true) :
    (Node.sequence [.wordEdge false]).run false s some = if s.rest.head?.any Text.isWord then none else some s := by
  change (if s.atWordEdge false then some s else none) = _
  rw [Pattern.atWordEdge_of_word hprevious]
  cases s.rest.head?.any Text.isWord <;> rfl

theorem run_digits_wordEdge (s : Cursor) :
    (Node.sequence [.loop (.one Pattern.digits) 1 none .greedy]).run false s
        (fun t => (Node.sequence [.wordEdge false]).run false t some) =
      if 0 < digitRun s.rest ∧ !(s.rest.drop (digitRun s.rest)).head?.any Text.isWord then
        some (s.past (s.rest.takeWhile Text.isDigit) (s.rest.drop (digitRun s.rest)))
      else none := by
  -- inside the digits a word is not at its end
  have hsettled (c : Char) (rest : List Char) (hdigit : Pattern.digits.holds false c = true) :
      Settled (Pattern.digits.holds false) (s.next c rest) fun t =>
        (Node.sequence [.wordEdge false]).run false t some := by
    rw [Pattern.digits_holds] at *
    intro front d rear _ hfront hd
    have hprevious : (s.next c rest).previous.any Text.isWord = true := Text.isWord_of_isDigit hdigit
    have hword := Pattern.any_previous_past (fun _ => hprevious) (fun e he => Text.isWord_of_isDigit (hfront e he))
    exact (run_wordEdge (hword _)).trans (if_pos (Text.isWord_of_isDigit hd))
  change (Node.loop (.one Pattern.digits) 1 none .greedy).run false s
    (fun t => (Node.sequence [.wordEdge false]).run false t some) = _
  rw [Pattern.run_plus fun c rest _ => hsettled c rest, Pattern.digits_holds, ← Text.drop_length_takeWhile]
  by_cases hnone : s.rest.takeWhile Text.isDigit = []
  · have hzero : digitRun s.rest = 0 := congrArg List.length hnone
    rw [if_pos hnone, hzero, if_neg fun hboth => Nat.lt_irrefl 0 hboth.1]
  · have hpositive : 0 < digitRun s.rest := List.length_pos_iff.mpr hnone
    have hdigits (c : Char) (hmem : c ∈ s.rest.takeWhile Text.isDigit) : Text.isWord c = true :=
      Text.isWord_of_isDigit (List.all_eq_true.mp List.all_takeWhile c hmem)
    have hprevious := Pattern.any_previous_past (s := s) (fun hempty => absurd hempty hnone) hdigits
    rw [if_neg hnone, run_wordEdge (hprevious _)]
    change (if (s.rest.drop (digitRun s.rest)).head?.any Text.isWord then none else some _) = _
    cases hword : (s.rest.drop (digitRun s.rest)).head?.any Text.isWord with
    | true => rw [if_pos rfl, if_neg fun hboth => Bool.false_ne_true hboth.2]
    | false =>
      rw [if_neg Bool.false_ne_true, if_pos ⟨hpositive, rfl⟩]
      rfl

/-- Behind the letters of a word there is its suffix, if it has one. -/
theorem run_wordEnd {s : Cursor} (hprevious : s.previous.any Text.isWord = true)
    (hword : s.rest.head?.any Text.isWord = false) :
    (wordEndNode.run false s some).map (·.offset) = some (s.offset + suffixLength s.rest) := by
  change Option.map _ ((Node.loop suffixNode 0 (some 1) .greedy).run false s fun t =>
    (Node.sequence [.wordEdge false]).run false t some) = _
  rw [Pattern.run_optional, run_wordEdge hprevious, hword, if_neg Bool.false_ne_true, suffixNode, Pattern.run_literal]
  by_cases hprefix : ['+'].isPrefixOf s.rest = true
  · obtain ⟨rest, hrest⟩ := List.isPrefixOf_iff_prefix.mp hprefix
    rw [if_pos hprefix, run_digits_wordEdge, ← hrest]
    change Option.map _ (Option.or (if 0 < digitRun rest ∧ !(rest.drop (digitRun rest)).head?.any Text.isWord then
      _ else none) _) = some (s.offset + if 0 < digitRun rest ∧ !(rest.drop (digitRun rest)).head?.any Text.isWord then
      digitRun rest + 1 else 0)
    split
    · change some (s.offset + 1 + digitRun rest) = some (s.offset + (digitRun rest + 1))
      congr 1
      omega
    · rfl
  · have hnone : suffixLength s.rest = 0 := by
      unfold suffixLength
      split
      · rename_i hrest
        exact absurd (by rw [hrest]; rfl) hprefix
      · rfl
    rw [if_neg hprefix, hnone]
    rfl

/-- Among the letters of a word there is no end of it. -/
theorem run_wordEnd_of_word {s : Cursor} {c : Char} {rest : List Char} (hprevious : s.previous.any Text.isWord = true)
    (hrest : s.rest = c :: rest) (hword : Text.isWord c = true) : wordEndNode.run false s some = none := by
  have hother : ¬ ['+'].isPrefixOf s.rest = true := by
    intro hprefix
    obtain ⟨rear, hrear⟩ := List.isPrefixOf_iff_prefix.mp hprefix
    rw [hrest] at hrear
    cases hrear
    exact absurd hword (by decide)
  change (Node.loop suffixNode 0 (some 1) .greedy).run false s
    (fun t => (Node.sequence [.wordEdge false]).run false t some) = _
  rw [Pattern.run_optional, run_wordEdge hprevious, suffixNode, Pattern.run_literal, if_neg hother, hrest]
  exact if_pos hword

theorem run_wordRest {s : Cursor} (hprevious : s.previous.any Text.isWord = true) :
    ((Node.seq (.loop (.one Pattern.wordChars) 0 none .greedy) wordEndNode).run false s some).map (·.offset) =
      some (s.offset + (s.rest.takeWhile Text.isWord).length + suffixLength (s.rest.dropWhile Text.isWord)) := by
  have hsettled : Settled (Pattern.wordChars.holds false) s fun t => wordEndNode.run false t some := by
    rw [Pattern.wordChars_holds]
    intro front c rear _ hfront hword
    exact run_wordEnd_of_word (Pattern.any_previous_past (fun _ => hprevious) hfront _) rfl hword
  have hfront (c : Char) (hmem : c ∈ s.rest.takeWhile Text.isWord) : Text.isWord c = true :=
    List.all_eq_true.mp List.all_takeWhile c hmem
  rw [Node.run, Pattern.run_star hsettled, Pattern.wordChars_holds]
  exact run_wordEnd (Pattern.any_previous_past (fun _ => hprevious) hfront _) (Text.head?_dropWhile_any _ _)

theorem wordAt_describes : wordAt.Describes wordPattern := by
  intro previous offset text
  rw [Pattern.matchAt?_stop]
  change Option.map _ (if Cursor.atWordEdge ⟨previous, offset, text, []⟩ false then
    (Node.one Pattern.nameStarts).run false ⟨previous, offset, text, []⟩ fun t =>
      (Node.seq (.loop (.one Pattern.wordChars) 0 none .greedy) wordEndNode).run false t some else none) = _
  cases text with
  | nil =>
    rw [Pattern.run_one_nil rfl, ite_self]
    rfl
  | cons c text =>
    rw [Pattern.run_one_cons rfl, Pattern.nameStarts_holds, wordAt]
    by_cases hname : isNameStart c = true
    · have hword : Text.isWord c = true := Text.isWord_of_isNameStart hname
      have hedge : Cursor.atWordEdge ⟨previous, offset, c :: text, []⟩ false = !previous.any Text.isWord := by
        simp [Cursor.atWordEdge, hword]
      have hrest := run_wordRest (s := Cursor.next ⟨previous, offset, c :: text, []⟩ c text) hword
      have hbehind : (c :: text).drop ((c :: text).takeWhile Text.isWord).length = text.dropWhile Text.isWord := by
        rw [Text.drop_length_takeWhile, List.dropWhile_cons_of_pos hword]
      rw [hedge, if_pos hname, hname, Bool.true_and]
      cases previous.any Text.isWord with
      | true => rfl
      | false =>
        simp only [Bool.not_false, if_true, Option.map_some]
        rw [hbehind, List.takeWhile_cons_of_pos hword, List.length_cons]
        refine hrest.trans (congrArg some ?_)
        change offset + 1 + (text.takeWhile Text.isWord).length + suffixLength (text.dropWhile Text.isWord) = _
        omega
    · have hnone : isNameStart c = false := eq_false_of_ne_true hname
      rw [if_neg hname, ite_self, hnone]
      rfl

/-- The name of a label and the colon behind it. -/
def labelNameNode : Node :=
  .sequence (.group 2 (.sequence [.loop (.one Pattern.labelChars) 1 none .greedy]) :: literal [':'])

def labelPattern : Pattern :=
  { source := Rule.label.shape
    node := .seq .textStart (.seq (.group 1 (.sequence [.loop (.one Pattern.blankChars) 0 none .greedy])) labelNameNode)
    groupCount := 2
    anyCase := false }

theorem ofString_label : Pattern.ofString Rule.label.shape false = .ok labelPattern := rfl

theorem run_labelName (s : Cursor) {n : Nat} (hn : (s.rest.takeWhile isLabelChar).length = n) :
    (labelNameNode.run false s some).map (fun t => (t.offset, t.groups)) =
      if 0 < n ∧ (s.rest.drop n).head? = some ':' then
        some (s.offset + n + 1, (2, s.offset, s.offset + n) :: s.groups)
      else none := by
  have hother : Pattern.labelChars.holds false ':' = false := by decide
  have hnote (t : Cursor) : { t with groups := (2, s.offset, t.offset) :: t.groups }.rest = t.rest := rfl
  rw [← Pattern.labelChars_holds] at hn
  refine (congrArg (Option.map _) (Pattern.run_plus_last hother hnote s hn)).trans ?_
  rw [← hn]
  split <;> rfl

theorem matchAt?_label (text : List Char) :
    labelPattern.matchAt? false none 0 text =
      (label? text).map fun (start, stop) => ⟨0, stop + 1, [(2, start, stop), (1, 0, start)]⟩ := by
  let name : Cursor → Option Cursor := fun t =>
    labelNameNode.run false { t with groups := (1, 0, t.offset) :: t.groups } some
  -- a name starts behind all blanks, as it has none itself
  have hsettled : Settled (Pattern.blankChars.holds false) ⟨none, 0, text, []⟩ name := by
    rw [Pattern.blankChars_holds]
    intro front c rear _ _ hblank
    have hother : ¬ isLabelChar c = true := fun hlabel =>
      absurd hblank (Bool.eq_false_iff.mp (isBlank_eq_false_of_isLabelChar hlabel))
    have hnone : ((c :: rear).takeWhile isLabelChar).length = 0 := by
      rw [List.takeWhile_cons_of_neg hother, List.length_nil]
    refine Option.map_eq_none_iff.mp ((run_labelName _ hnone).trans (if_neg fun hboth => ?_))
    exact Nat.lt_irrefl 0 hboth.1
  have hname := run_labelName ⟨(text.takeWhile Text.isBlank).getLast?.or none, (text.takeWhile Text.isBlank).length,
    text.drop (text.takeWhile Text.isBlank).length, [(1, 0, (text.takeWhile Text.isBlank).length)]⟩ rfl
  have hfound := congrArg (Option.map fun (stop, groups) => (⟨0, stop, groups⟩ : Found)) hname
  rw [Option.map_map, List.drop_drop] at hfound
  change Option.map _ ((Node.loop (.one Pattern.blankChars) 0 none .greedy).run false ⟨none, 0, text, []⟩ name) = _
  rw [Pattern.run_star hsettled, Pattern.blankChars_holds, ← Text.drop_length_takeWhile, label?]
  simp only [name, Cursor.past, Nat.zero_add]
  refine hfound.trans ?_
  split <;> rfl

theorem label_candidates (text : List Char) :
    (Rule.ofPattern labelPattern 2 .label).candidates text = (label? text).toList := by
  change (labelPattern.findAll text).filterMap _ = _
  rw [Pattern.findAll_anchored fun _ _ _ => rfl]
  have hmatch := matchAt?_label text
  cases hlabel : label? text with
  | none =>
    rw [hlabel] at hmatch
    rw [Pattern.matchesAt_of_none hmatch]
    rfl
  | some extent =>
    obtain ⟨start, stop⟩ := extent
    have hlt : start < stop := (label?_eq_some_iff.mp hlabel).2.1
    rw [hlabel] at hmatch
    rw [Pattern.matchesAt_of_some hmatch (Nat.succ_pos stop)]
    have hkept : (some (start, stop)).filter (fun extent => decide (extent.1 < extent.2)) = some (start, stop) :=
      Option.filter_some_pos (decide_eq_true hlt)
    exact List.filterMap_cons_some hkept

theorem resolve_search {source : String} {p : Pattern} (hread : Pattern.ofString source false = .ok p) {group : Nat}
    (hgroup : group ≤ p.groupCount) (category : Category) :
    (RuleChoice.search source false group category).resolve =
      .ok ⟨Rule.ofPattern p group category, fun _ => false⟩ := by
  have hhas : hasGroup p group = true := by
    simpa [hasGroup] using hgroup
  simp only [RuleChoice.resolve, hread, hhas, Bool.not_true, Bool.false_and]
  rfl

theorem resolve_shape {rule : Rule} {p : Pattern} (hread : Pattern.ofString rule.shape false = .ok p) {group : Nat}
    (hgroup : group ≤ p.groupCount) (hsource : p.source = rule.shape)
    (hcandidates : ∀ text, (Rule.ofPattern p group rule.category).candidates text = rule.candidates text) :
    (RuleChoice.search rule.shape false group rule.category).resolve = .ok ⟨rule, fun _ => false⟩ := by
  have hrule : Rule.ofPattern p group rule.category = rule := by
    calc Rule.ofPattern p group rule.category
        = ⟨p.source, rule.category, (Rule.ofPattern p group rule.category).candidates⟩ := rfl
      _ = rule := by rw [hsource, funext hcandidates]
  rw [resolve_search hread hgroup, hrule]

/-- To search for the shape of a rule is to use the rule. -/
theorem resolve_search_shape :
    ∀ choice ∈ [(Rule.jumpTarget, 0), (Rule.label, 2), (Rule.byteAfterBar, 0), (Rule.byteBeforeBar, 0)],
      (RuleChoice.search choice.1.shape false choice.2 choice.1.category).resolve = .ok ⟨choice.1, fun _ => false⟩ := by
  intro choice hmem
  simp only [List.mem_cons, List.not_mem_nil, or_false] at hmem
  rcases hmem with rfl | rfl | rfl | rfl
  · exact resolve_shape ofString_jumpTarget (Nat.le_refl 0) rfl
      (ofPattern_candidates jumpTargetAt_bounded jumpTargetAt_describes _)
  · exact resolve_shape ofString_label (Nat.le_refl 2) rfl label_candidates
  · exact resolve_shape ofString_byteAfterBar (Nat.le_refl 0) rfl
      (ofPattern_candidates byteAfterBarAt_bounded byteAfterBarAt_describes _)
  · exact resolve_shape ofString_byteBeforeBar (Nat.le_refl 0) rfl
      (ofPattern_candidates byteBeforeBarAt_bounded byteBeforeBarAt_describes _)

/-- To search for the shape of the names of opcodes finds all words. The names are those of them that are in the table
of opcodes. -/
theorem resolve_search_mnemonicAs (category : Category) :
    ∃ words, (RuleChoice.search (Rule.mnemonicAs category).shape false 0 category).resolve =
        .ok ⟨words, fun _ => false⟩ ∧
      ∀ text, (Rule.mnemonicAs category).candidates text = (words.candidates text).filter fun (start, stop) =>
        Opcode.isMnemonic ((text.take stop).drop start) := by
  refine ⟨_, resolve_search ofString_mnemonic (Nat.le_refl 0) category, fun text => ?_⟩
  rw [ofPattern_candidates wordAt_bounded wordAt_describes]
  rfl

end Listing

end ListingEditor
