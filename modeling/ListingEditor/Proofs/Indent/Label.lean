import ListingEditor.Listing.LineInfo
import ListingEditor.Proofs.Indent.Line
import ListingEditor.Proofs.Listing.Leading

/-!
Labels. The word that a colon completes is the label that its line then declares: the colon key, the column of a line
and the account of its parts take the same words for labels.
-/

namespace ListingEditor

open Text (AllBlank SplitsBreak isBlank)
open Buffer (Cut Indented Rows Unbroken rowText)
open Listing (LineInfo isLabelChar)

namespace Indent

/-- A word that can name a label. -/
structure LabelName (word : List Char) : Prop where
  ne_nil : word ≠ []
  chars : ∀ c ∈ word, isLabelChar c = true

/-- A text that is blanks and a label's name. -/
structure BareLabel (text blanks word : List Char) : Prop where
  parts : text = blanks ++ word
  blank : AllBlank blanks
  name : LabelName word

section

variable {word : List Char}

theorem LabelName.unbroken (hname : LabelName word) : Unbroken word := by
  intro c hc
  rw [← Bool.not_eq_true]
  intro hreturn
  simp only [Text.isReturn, Bool.or_eq_true, beq_iff_eq] at hreturn
  obtain rfl | rfl := hreturn
  · exact absurd (hname.chars _ hc) (by decide)
  · exact absurd (hname.chars _ hc) (by decide)

theorem LabelName.head?_ne_feed (hname : LabelName word) (rest : List Char) : (word ++ rest).head? ≠ some '\n' := by
  rw [List.head?_append_of_ne_nil _ hname.ne_nil]
  exact hname.unbroken.head?_ne_feed

theorem LabelName.takeWhile_isBlank (hname : LabelName word) (rest : List Char) :
    (word ++ rest).takeWhile isBlank = [] := by
  obtain ⟨c, word, rfl⟩ := List.exists_cons_of_ne_nil hname.ne_nil
  have hc := Listing.isBlank_eq_false_of_isLabelChar (hname.chars c List.mem_cons_self)
  rw [List.cons_append, List.takeWhile_cons_of_neg (by simp [hc])]

theorem LabelName.dropWhile_isBlank (hname : LabelName word) (rest : List Char) :
    (word ++ rest).dropWhile isBlank = word ++ rest := by
  have hparts := List.takeWhile_append_dropWhile (p := isBlank) (l := word ++ rest)
  rwa [hname.takeWhile_isBlank] at hparts

theorem LabelName.dropWhile_blanks (hname : LabelName word) {blanks : List Char} (hblanks : AllBlank blanks) :
    (blanks ++ word).dropWhile isBlank = word := by
  have hword := hname.dropWhile_isBlank []
  rwa [List.append_nil, ← List.dropWhile_append_of_pos hblanks] at hword

theorem isBareLabel_iff {text : List Char} : isBareLabel text = true ↔ ∃ blanks word, BareLabel text blanks word := by
  simp only [isBareLabel, Bool.and_eq_true, Bool.not_eq_true', List.isEmpty_eq_false_iff, List.all_eq_true]
  constructor
  · rintro ⟨hne, hchars⟩
    exact ⟨_, _, List.takeWhile_append_dropWhile.symm, Text.takeWhile_allBlank text, hne, hchars⟩
  · rintro ⟨blanks, word, rfl, hblanks, hname⟩
    rw [hname.dropWhile_blanks hblanks]
    exact ⟨hname.ne_nil, hname.chars⟩

theorem LabelName.label?_eq (hname : LabelName word) (rest : List Char) :
    Listing.label? (word ++ ':' :: rest) = some (0, word.length) := by
  rw [Listing.label?_eq_some_iff, hname.takeWhile_isBlank, List.drop_zero, List.takeWhile_append_of_pos hname.chars,
    List.takeWhile_cons_of_neg (by decide), List.append_nil, List.getElem?_append_right (Nat.le_refl _), Nat.sub_self]
  exact ⟨rfl, List.length_pos_of_ne_nil hname.ne_nil, rfl, rfl⟩

theorem Columns.column_label (columns : Columns) (hname : LabelName word) (rest : List Char) :
    columns.column (word ++ ':' :: rest) = 0 := by
  rw [column, placement, hname.dropWhile_isBlank, hname.label?_eq]
  rfl

/-- The first word of a line is no number, for a number has a space before it. -/
theorem LabelName.numberSpan?_eq (hname : LabelName word) (marker rest : List Char) :
    let info := LineInfo.ofLine marker (word ++ rest)
    LineInfo.numberSpan? info.indent info.spans = none := by
  intro info
  rw [LineInfo.numberSpan?, List.find?_eq_none]
  intro span hspan hfirst
  simp only [Bool.and_eq_true, beq_iff_eq] at hfirst
  have hmargin : info.indent = 0 := congrArg List.length (hname.takeWhile_isBlank rest)
  rcases (Listing.mem_classify_leading_iff (by simp [hfirst.1])).mp hspan with
    ⟨start, stop, rfl, hnumber⟩ | ⟨start, stop, rfl, -⟩ | ⟨start, stop, rfl, -⟩ | ⟨start, stop, rfl, -⟩
  · have hbehind : 0 < start := hnumber.2.2.1
    have hstart : (start : Int) = info.indent := hfirst.2
    omega
  all_goals cases hfirst.1

theorem LabelName.read_eq (hname : LabelName word) (marker rest : List Char) :
    ∃ info, LineInfo.read marker (word ++ ':' :: rest) = .ok info ∧ info.label = some word := by
  refine ⟨LineInfo.ofLine marker (word ++ ':' :: rest), ?_, ?_⟩
  · rw [LineInfo.read]
    dsimp only
    rw [hname.numberSpan?_eq]
  · rw [LineInfo.ofLine]
    dsimp only
    rw [hname.label?_eq, Option.map_some, List.take_left, List.drop_zero]

end

end Indent

/-- No blanks reach the margin, unless a tab has no width. -/
theorem Buffer.indentString_zero {b : Buffer}
    (htabs : b.useTabs = true → ∀ width, b.tabWidth = some width → 1 ≤ width) {blanks : List Char}
    (hok : b.indentString 0 = .ok blanks) : blanks = [] := by
  by_cases huse : b.useTabs = true
  · cases hwidth : b.tabWidth with
    | none =>
      simp only [indentString, huse, tabRun, hwidth] at hok
      cases hok
    | some width =>
      have hpositive := htabs huse width hwidth
      obtain ⟨count, rfl⟩ := Int.eq_ofNat_of_zero_le (show 0 ≤ width by omega)
      have hblanks := Buffer.indentString_eq hwidth (by omega) (show b.indentString (0 : Nat) = .ok blanks from hok)
      rw [hblanks, if_pos huse, Nat.zero_div, Nat.zero_mod]
      rfl
  · simp only [indentString, huse] at hok
    cases hok
    rfl

namespace Indenter

variable {b : Buffer}

/-- Blanks and a label's name before the caret: the blanks are removed, and a colon comes to stand behind the name. -/
theorem completeLabel_effect (owner : String) {front blanks word rear : List Char}
    (htext : b.text = front ++ (blanks ++ word) ++ rear) (hcaret : b.caret = (front ++ (blanks ++ word)).length)
    (hblanks : AllBlank blanks) (hname : Indent.LabelName word) :
    ∃ b', (completeLabel owner front.length b.caret (blanks ++ word)).effect b = (.ok (), b') ∧
      b'.text = front ++ word ++ [':'] ++ rear ∧ b'.caret = (front ++ word ++ [':']).length ∧
      b'.anchor = (front ++ word ++ [':']).length ∧ b'.layout = b.layout := by
  have hcount : (blanks ++ word).length - word.length = blanks.length := by
    rw [List.length_append]
    omega
  rw [completeLabel, hname.dropWhile_blanks hblanks, hcount, Step.effect_bind_report]
  by_cases hsome : 0 < blanks.length
  · rw [if_pos hsome]
    have hparts : b.beginUndo.text = front ++ blanks ++ (word ++ rear) := by
      change b.text = _
      rw [htext]
      simp only [List.append_assoc]
    have hplace : b.caret - blanks.length = (front ++ word).length := by
      simp only [hcaret, List.length_append]
      omega
    let c := b.beginUndo.replaceRange front.length (front.length + blanks.length) []
    have hedit : c.text = front ++ word ++ rear := by
      have hmiddle := b.beginUndo.replaceRange_middle [] hparts
      rwa [List.append_nil, ← List.append_assoc, Int.natCast_add] at hmiddle
    have hmoved : (c.goto (front ++ word).length).caret = (front ++ word).length := by
      rw [Buffer.goto_eq_select hedit]
      rfl
    have hlayout : c.layout = b.layout := b.beginUndo.replaceRange_layout ..
    rw [hplace]
    obtain ⟨htext', hcaret', hanchor'⟩ :=
      Buffer.typeText_around (b := c.goto (front ++ word).length) hedit hmoved [':']
    exact ⟨((c.goto (front ++ word).length).typeText [':']).endUndo, Command.grouped_effect rfl, htext', hcaret',
      hanchor', hlayout⟩
  · rw [if_neg hsome]
    obtain rfl : blanks = [] := by simpa using hsome
    obtain ⟨htext', hcaret', hanchor'⟩ := Buffer.typeText_around (b := b.beginUndo) htext hcaret [':']
    exact ⟨_, Command.grouped_effect rfl, htext', hcaret', hanchor', rfl⟩

section

variable {front rear : List (List Char)} {before blanks word after : List Char}

/-- A word that a colon completes goes to the margin, and its row stays a row. -/
theorem rows_completed (hcut : b.Cut front (blanks ++ word) after rear) (hblanks : AllBlank blanks)
    (hname : Indent.LabelName word) : Rows (front ++ (word ++ [':'] ++ after) :: rear) := by
  have hcolon : Unbroken [':'] := by decide
  have hnew : Rows ((word ++ [':'] ++ after) :: rear) :=
    (hcut.rows.of_append (List.cons_ne_nil _ _)).exchange_lead (hblanks.unbroken.append hname.unbroken)
      (hname.unbroken.append hcolon)
  refine hcut.rows.exchange_rear (List.cons_ne_nil _ _) hnew fun hsplits => ?_
  have hhead := hsplits.2
  rw [List.flatten_cons, List.append_assoc, List.append_assoc] at hhead
  exact hname.head?_ne_feed _ hhead

/-- A line that has just become a label's, with the caret behind the colon. -/
structure Labelled (b : Buffer) (front : List (List Char)) (word after : List Char) (rear : List (List Char)) :
    Prop where
  name : Indent.LabelName word
  line : b.Indented front [] (word ++ [':'] ++ after) rear
  caret : b.caret = (front.flatten ++ word ++ [':']).length
  anchor : b.anchor = b.caret
  current : b.currentLine = front.length

theorem electricChar_of_label (columns : Indent.Columns) (hcut : b.Cut front before after rear)
    (hlabel : Indent.BareLabel before blanks word) :
    ∃ b', (electricChar (.listing columns) [':']).effect b = (.ok true, b') ∧ Labelled b' front word after rear ∧
      b'.layout = b.layout := by
  have hbare : Indent.isBareLabel before = true := Indent.isBareLabel_iff.mpr ⟨blanks, word, hlabel⟩
  obtain ⟨rfl, hblanks, hname⟩ := hlabel
  obtain ⟨b', heffect, htext, hcaret, hanchor, hlayout⟩ :=
    completeLabel_effect (Indenter.listing columns).owner hcut.text_eq hcut.caret hblanks hname
  have hrows := rows_completed hcut hblanks hname
  have htext' : b'.text = (front ++ (word ++ [':'] ++ after) :: rear).flatten := by
    rw [htext, List.flatten_append, List.flatten_cons]
    simp only [List.append_assoc]
  have hcontent : (word ++ [':'] ++ after).takeWhile isBlank = [] := by
    rw [List.append_assoc, hname.takeWhile_isBlank]
  have hcolumn : (word ++ [':']).length ≤ (rowText (word ++ [':'] ++ after)).length := by
    rw [Buffer.rowText_append (hname.unbroken.append (by decide))]
    exact (List.prefix_append ..).length_le
  refine ⟨b', ?_, ⟨hname, ⟨hrows, htext', nofun, hcontent⟩, hcaret, hanchor.trans hcaret.symm, ?_⟩, hlayout⟩
  · rw [electricChar_effect columns hcut.lineStart_eq, hcut.range_eq, if_pos hbare, Step.effect_bind_of_ok heffect,
      Step.effect_pure]
  · rw [Buffer.currentLine, hcaret, List.append_assoc, List.length_append]
    exact hrows.lineOf_column htext' hcolumn

theorem electricChar_of_not_label (columns : Indent.Columns) (hcut : b.Cut front before after rear)
    (hnone : ¬ ∃ blanks word, Indent.BareLabel before blanks word) :
    (electricChar (.listing columns) [':']).effect b = (.ok false, b) := by
  rw [electricChar_effect columns hcut.lineStart_eq, hcut.range_eq, if_neg (mt Indent.isBareLabel_iff.mp hnone),
    Step.effect_pure]

theorem Labelled.rowText_eq (hlabelled : Labelled b front word after rear) :
    rowText (word ++ [':'] ++ after) = word ++ ':' :: rowText after := by
  rw [Buffer.rowText_append (hlabelled.name.unbroken.append (by decide)), List.append_assoc, List.singleton_append]

theorem Labelled.lineTexts_eq (hlabelled : Labelled b front word after rear) :
    b.lineTexts = front.map rowText ++ (word ++ ':' :: rowText after) :: rear.map rowText := by
  rw [hlabelled.line.rows.lineTexts_eq hlabelled.line.text, List.map_append, List.map_cons, List.nil_append,
    hlabelled.rowText_eq]

theorem Labelled.text_eq (hlabelled : Labelled b front word after rear) :
    b.text = front.flatten ++ word ++ ':' :: (after ++ rear.flatten) := by
  rw [hlabelled.line.text_eq]
  simp only [List.append_assoc, List.nil_append, List.cons_append]

/-- The tab key leaves a label alone that has just been completed. -/
theorem Labelled.tabKey_effect (columns : Indent.Columns) (hlabelled : Labelled b front word after rear)
    (htabs : b.useTabs = true → ∀ width, b.tabWidth = some width → 1 ≤ width) :
    let tabbed := (tabKey (.listing columns)).effect b
    tabbed.2.text = b.text ∧ tabbed.2.caret = b.caret ∧ ∀ e, tabbed.1 = .error e → b.indentString 0 = .error e := by
  intro tabbed
  have hline := hlabelled.line
  have hcolumn : columns.column (rowText (word ++ [':'] ++ after)) = 0 :=
    hlabelled.rowText_eq ▸ columns.column_label hlabelled.name _
  cases hblanks : b.indentString 0 with
  | error e =>
    have heffect : tabbed = (.error e, b.beginUndo.endUndo) :=
      tabKey_indented_of_error hline hlabelled.current (hcolumn.symm ▸ hblanks)
    rw [heffect]
    exact ⟨rfl, rfl, fun _ hsame => Except.error.inj hsame ▸ rfl⟩
  | ok blanks =>
    obtain rfl := Buffer.indentString_zero htabs hblanks
    have hfeed : (word ++ [':'] ++ after).head? ≠ some '\n' := by
      rw [List.append_assoc]
      exact hlabelled.name.head?_ne_feed _
    obtain ⟨b', heffect, hkept, -, hplace⟩ :=
      tabKey_indented_of_feed hline hlabelled.current (hcolumn.symm ▸ hblanks) fun _ => hfeed
    have htext : b'.text = b.text := hkept.text.trans hline.text.symm
    have hstays : b'.caret = b.caret := by
      have hcaret := hlabelled.caret
      have hlength := congrArg List.length hlabelled.text_eq
      simp only [List.length_append, List.length_cons, List.length_nil] at hcaret hlength
      rw [List.length_nil, Nat.add_zero, caretAfter_of_old_le (by omega) (by omega) (by omega), htext] at hplace
      omega
    have heffect' : tabbed = (.ok (), b') := heffect
    rw [heffect']
    exact ⟨htext, hstays, nofun⟩

end

/-- Completing a label. The colon key takes care of the colon exactly if blanks and a label's name are all that stands
before the caret on its line; otherwise, and for every other character, it changes nothing at all. If it does, the name
goes to the margin and the colon comes to stand behind it, with the caret behind the colon, and no other line changes.
The line then belongs at the margin, it declares just that label, and the tab key leaves it alone, unless tabs have no
width. -/
theorem electricChar_label (columns : Indent.Columns) {b : Buffer} (hcaret : 0 ≤ b.caret ∧ b.caret ≤ b.text.length) :
    (∃ above line below start, b.lineTexts = above ++ line :: below ∧ b.currentLine = above.length ∧
      b.lineStart b.currentLine = .ok start ∧
      let before := b.range start b.caret
      ∃ completes b', (electricChar (.listing columns) [':']).effect b = (.ok completes, b') ∧
        (completes = true ↔ ∃ blanks word, Indent.BareLabel before blanks word) ∧ (completes = false → b' = b) ∧
        ∀ blanks word, Indent.BareLabel before blanks word → ∃ rest, line = before ++ rest ∧
          let completed := word ++ ':' :: rest
          b'.lineTexts = above ++ completed :: below ∧
          b'.text = b.text.take start ++ word ++ ':' :: b.text.drop b.caret.toNat ∧
          b'.caret = start + word.length + 1 ∧ b'.anchor = b'.caret ∧ columns.column completed = 0 ∧
          (∀ marker, ∃ info, LineInfo.read marker completed = .ok info ∧ info.label = some word) ∧
          ((b.useTabs = true → ∀ width, b.tabWidth = some width → 1 ≤ width) →
            let tabbed := (tabKey (.listing columns)).effect b'
            tabbed.2.text = b'.text ∧ tabbed.2.caret = b'.caret ∧
              ∀ e, tabbed.1 = .error e → b.indentString 0 = .error e)) ∧
      ∀ c ≠ [':'], (electricChar (.listing columns) c).effect b = (.ok false, b) := by
  obtain ⟨front, before, after, rear, hcut⟩ := Buffer.exists_cut hcaret
  have hcurrent : b.currentLine = (front.map rowText).length := by rw [hcut.current, List.length_map]
  refine ⟨⟨_, _, _, _, hcut.lineTexts_eq, hcurrent, hcut.lineStart_eq, ?_⟩, fun c hc => ?_⟩
  · rw [hcut.range_eq]
    dsimp only
    by_cases hlabel : ∃ blanks word, Indent.BareLabel before blanks word
    · obtain ⟨b', heffect⟩ : ∃ b', (electricChar (.listing columns) [':']).effect b = (.ok true, b') := by
        obtain ⟨blanks, word, hbare⟩ := hlabel
        exact (electricChar_of_label columns hcut hbare).imp fun _ hpressed => hpressed.1
      refine ⟨true, b', heffect, iff_of_true rfl hlabel, nofun, fun blanks word hbare => ?_⟩
      -- the outcome does not depend on how the text before the caret is taken apart
      obtain ⟨b'', heffect', hlabelled, hlayout⟩ := electricChar_of_label columns hcut hbare
      obtain rfl : b'' = b' := congrArg Prod.snd (heffect'.symm.trans heffect)
      have hunbroken : Unbroken before := hbare.parts ▸ hbare.blank.unbroken.append hbare.name.unbroken
      refine ⟨rowText after, Buffer.rowText_append hunbroken after, hlabelled.lineTexts_eq, ?_, ?_, hlabelled.anchor,
        columns.column_label hbare.name _, fun marker => hbare.name.read_eq marker _, fun htabs => ?_⟩
      · rw [hlabelled.text_eq, hcut.text_eq, hcut.caret, Int.toNat_natCast, List.drop_left, List.append_assoc _ before,
          List.take_left]
      · rw [hlabelled.caret, List.length_append, List.length_append]
        rfl
      · obtain ⟨htab, huse, -⟩ := Buffer.layout_eq_iff.mp hlayout
        rw [← Buffer.indentString_of_layout hlayout]
        exact hlabelled.tabKey_effect columns (by rwa [huse, htab])
    · refine ⟨false, b, electricChar_of_not_label columns hcut hlabel, iff_of_false nofun hlabel, fun _ => rfl, ?_⟩
      exact fun blanks word hbare => absurd ⟨blanks, word, hbare⟩ hlabel
  · rw [electricChar, if_pos hc, Step.effect_pure]

/-- A word behind a tab, with the caret at its end, among lines that end in different ways. -/
def indentedWord : Buffer :=
  { Buffer.ofText "a:\r\n\tx.$1 y\rb".toList (some 4) true 2 1024 with caret := 9, anchor := 0 }

theorem electricChar_label_indentedWord :
    Indent.BareLabel (indentedWord.range (4 : Nat) indentedWord.caret) ['\t'] "x.$1".toList ∧
      ∃ b', (electricChar (.listing ⟨['#'], 16, 8⟩) [':']).effect indentedWord = (.ok true, b') ∧
        b'.lineTexts = ["a:".toList, "x.$1: y".toList, "b".toList] ∧ b'.caret = 9 ∧
        ((tabKey (.listing ⟨['#'], 16, 8⟩)).effect b').2.text = b'.text := by
  have hbare : Indent.BareLabel (indentedWord.range (4 : Nat) indentedWord.caret) ['\t'] "x.$1".toList :=
    ⟨by decide, by decide, by decide, List.all_eq_true.mp (by decide)⟩
  obtain ⟨⟨above, line, below, start, hlines, hcurrent, hstart, completes, b', heffect, hcompletes, -, hlabel⟩, -⟩ :=
    electricChar_label ⟨['#'], 16, 8⟩ (b := indentedWord) (by decide)
  have hfour : indentedWord.lineStart indentedWord.currentLine = .ok 4 := by decide
  have hthree : indentedWord.lineTexts = ["a:".toList] ++ "\tx.$1 y".toList :: ["b".toList] := by decide
  have hcount : above.length = 1 := by
    have hone : indentedWord.currentLine = 1 := by decide
    omega
  obtain rfl : 4 = start := Except.ok.inj (hfour.symm.trans hstart)
  obtain ⟨rfl, hrest⟩ := List.append_inj (hlines.symm.trans hthree) hcount
  obtain ⟨rfl, rfl⟩ := List.cons.inj hrest
  obtain rfl := hcompletes.mpr ⟨_, _, hbare⟩
  obtain ⟨rest, hline, hlines', -, hcaret, -, -, -, htab⟩ := hlabel _ _ hbare
  obtain rfl : " y".toList = rest := by
    rw [hbare.parts] at hline
    exact List.append_cancel_left (show ['\t'] ++ "x.$1".toList ++ " y".toList = _ from hline)
  have hwide : indentedWord.useTabs = true → ∀ width, indentedWord.tabWidth = some width → 1 ≤ width := by
    rintro - width ⟨⟩
    decide
  exact ⟨hbare, b', heffect, hlines', hcaret, (htab hwide).1⟩

/-- A word in a buffer whose tabs have no width. -/
def widthlessTabs : Buffer := { Buffer.ofText "w".toList (some 0) true 2 1024 with caret := 1, anchor := 1 }

/-- Where tabs have no width, the tab key puts one in front of a label that has just been completed. -/
theorem electricChar_widthlessTabs :
    (0 ≤ widthlessTabs.caret ∧ widthlessTabs.caret ≤ widthlessTabs.text.length) ∧
      let pressed := (electricChar (.listing ⟨['#'], 32, 8⟩) [':']).effect widthlessTabs
      let tabbed := (tabKey (.listing ⟨['#'], 32, 8⟩)).effect pressed.2
      pressed.1 = .ok true ∧ pressed.2.text = "w:".toList ∧ pressed.2.caret = 2 ∧
        tabbed.1 = .ok () ∧ tabbed.2.text = "\tw:".toList ∧ tabbed.2.caret = 3 := by
  refine ⟨by decide, ?_⟩
  decide +kernel

end Indenter

end ListingEditor
