import ListingEditor.Proofs.Indent.Exchange

/-!
Reindenting a line gives it the column that belongs to it. Doing so once more changes nothing, for the column depends
only on the text behind the indentation; and so the tab key does nothing when it is pressed again.
-/

namespace ListingEditor

open Text (AllBlank isBlank)
open Buffer (Indented rowText)

/-- A line of a buffer taken apart: the text in front of it, its indentation, what it says, and the text from its end
on. -/
structure Buffer.LineParts (b : Buffer) (line : Nat) (front indent content rear : List Char) : Prop where
  text : b.text = front ++ indent ++ content ++ rear
  lineStart : b.lineStart line = .ok front.length
  lineText : b.lineText line = .ok (indent ++ content)
  indentEnd : b.indentEnd line = .ok (front ++ indent).length
  blank : AllBlank indent

theorem Buffer.Indented.parts {b : Buffer} {front rear : List (List Char)} {indent rest : List Char}
    (hline : b.Indented front indent rest rear) :
    b.LineParts front.length front.flatten indent (rowText rest)
      (rest.dropWhile (fun c => !Text.isReturn c) ++ rear.flatten) where
  text := by
    rw [← List.append_assoc, List.append_assoc (front.flatten ++ indent), rowText, List.takeWhile_append_dropWhile,
      List.append_assoc, hline.text_eq]
  lineStart := hline.lineStart_eq
  lineText := hline.lineText_eq
  indentEnd := by rw [hline.indentEnd_eq, List.length_append]
  blank := hline.blank

/-- There is one way to take a line apart. -/
theorem Buffer.LineParts.unique {b : Buffer} {line : Nat} {front indent content rear front' indent' content' rear' :
    List Char} (hparts : b.LineParts line front indent content rear)
    (hparts' : b.LineParts line front' indent' content' rear') :
    front = front' ∧ indent = indent' ∧ content = content' ∧ rear = rear' := by
  have hlength : front.length = front'.length := Except.ok.inj (hparts.lineStart.symm.trans hparts'.lineStart)
  have hindent : (front ++ indent).length = (front' ++ indent').length :=
    Except.ok.inj (hparts.indentEnd.symm.trans hparts'.indentEnd)
  have hline : indent ++ content = indent' ++ content' := Except.ok.inj (hparts.lineText.symm.trans hparts'.lineText)
  have htext := hparts.text.symm.trans hparts'.text
  rw [List.append_assoc front, List.append_assoc front', hline, List.append_assoc, List.append_assoc front'] at htext
  obtain ⟨hfront, hrest⟩ := List.append_inj htext hlength
  rw [List.length_append, List.length_append] at hindent
  obtain ⟨hblanks, hcontent⟩ := List.append_inj hline (by omega)
  exact ⟨hfront, hblanks, hcontent, List.append_cancel_left hrest⟩

/-- Blanks in front of a line do not count for its column. -/
theorem Indent.Columns.column_append_blanks {blanks : List Char} (hblank : AllBlank blanks) (columns : Columns)
    (text : List Char) : columns.column (blanks ++ text) = columns.column text := by
  rw [column, placement, List.dropWhile_append_of_pos hblank]
  rfl

namespace Indenter

section Effect

variable {columns : Indent.Columns} {b : Buffer} {front rear : List (List Char)} {indent rest : List Char}

theorem findColumn_indented (columns : Indent.Columns) (hline : b.Indented front indent rest rear) :
    findColumn (.listing columns) b front.length = .ok (some (columns.column (rowText rest))) := by
  rw [findColumn, hline.lineText_eq]
  exact congrArg (fun column => Except.ok (some column)) (columns.column_append_blanks hline.blank _)

theorem reindentLine_indented_of_error (hline : b.Indented front indent rest rear) {e : EditError}
    (hblanks : b.indentString (columns.column (rowText rest)) = .error e) :
    (reindentLine (.listing columns) front.length).effect b = (.error e, b) :=
  reindentLine_effect_of_error hline.lineStart_eq hline.indentEnd_eq (findColumn_indented columns hline) hblanks

/-- A line of blanks gets some, so that its line feed stays apart from a carriage return. -/
theorem head_ne_feed (hmarker : columns.marker ≠ []) (hcode : 1 ≤ columns.code) {blanks : List Char}
    (hblanks : b.indentString (columns.column (rowText rest)) = .ok blanks) (hnone : blanks = []) :
    rest.head? ≠ some '\n' := by
  intro hhead
  obtain ⟨tail, rfl⟩ := List.head?_eq_some_iff.mp hhead
  have hempty : rowText ('\n' :: tail) = [] := rfl
  have hnothing : AllBlank [] := nofun
  rw [hempty, Indent.Columns.column_of_allBlank hmarker hnothing] at hblanks
  exact (Buffer.indentString_blank hblanks).2 hcode hnone

theorem reindentLine_indented_of_feed (hline : b.Indented front indent rest rear) {blanks : List Char}
    (hblanks : b.indentString (columns.column (rowText rest)) = .ok blanks)
    (hfeed : blanks = [] → rest.head? ≠ some '\n') :
    let b' := b.replaceRange front.flatten.length (front.flatten.length + indent.length : Nat) blanks
    (reindentLine (.listing columns) front.length).effect b =
        (.ok (caretAfter front.flatten.length (front.flatten.length + indent.length : Nat)
          (front.flatten.length + blanks.length : Nat) b.caret), b') ∧
      b'.Indented front blanks rest rear := by
  intro b'
  have hnew : b'.Indented front blanks rest rear := hline.exchange (Buffer.indentString_blank hblanks).1 hfeed
  exact ⟨reindentLine_effect_of_ok hline.lineStart_eq hline.indentEnd_eq (findColumn_indented columns hline) hblanks
    hnew.indentEnd_eq, hnew⟩

theorem reindentLine_indented_of_ok (hsound : columns.Sound) (hline : b.Indented front indent rest rear)
    {blanks : List Char} (hblanks : b.indentString (columns.column (rowText rest)) = .ok blanks) :
    let b' := b.replaceRange front.flatten.length (front.flatten.length + indent.length : Nat) blanks
    (reindentLine (.listing columns) front.length).effect b =
        (.ok (caretAfter front.flatten.length (front.flatten.length + indent.length : Nat)
          (front.flatten.length + blanks.length : Nat) b.caret), b') ∧
      b'.Indented front blanks rest rear :=
  reindentLine_indented_of_feed hline hblanks (head_ne_feed hsound.marker hsound.code hblanks)

/-- A line that has been reindented is left alone when it is reindented once more. -/
theorem reindentLine_indented_again (hsound : columns.Sound) (hline : b.Indented front indent rest rear)
    {blanks : List Char} (hblanks : b.indentString (columns.column (rowText rest)) = .ok blanks) :
    let b' := b.replaceRange front.flatten.length (front.flatten.length + indent.length : Nat) blanks
    ∃ again b'', (reindentLine (.listing columns) front.length).effect b' = (.ok again, b'') ∧
      b''.text = b'.text ∧ b''.caret = b'.caret ∧ b''.anchor = b'.anchor ∧
      (b.styles.length = b.text.length → b'' = b') := by
  intro b'
  have hnew : b'.Indented front blanks rest rear := (reindentLine_indented_of_ok hsound hline hblanks).2
  have hsame : b'.indentString (columns.column (rowText rest)) = .ok blanks := by
    rw [Buffer.indentString_of_layout (b.replaceRange_layout ..), hblanks]
  obtain ⟨hagain, hkept⟩ := reindentLine_indented_of_ok hsound hnew hsame
  obtain ⟨hcaret, hanchor⟩ := b.replaceRange_again_position front.flatten indent blanks
  exact ⟨_, _, hagain, hkept.text.trans hnew.text.symm, hcaret, hanchor, fun hstyles =>
    Buffer.replaceRange_again hline.text_eq hstyles blanks⟩

/-- A caret behind the indentation keeps the text behind it. -/
theorem drop_caretAfter (hline : b.Indented front indent rest rear) {blanks : List Char}
    {b' : Buffer} (hnew : b'.Indented front blanks rest rear)
    (hcaret : (front.flatten.length + indent.length : Nat) ≤ b.caret) :
    let place := caretAfter front.flatten.length (front.flatten.length + indent.length : Nat)
      (front.flatten.length + blanks.length : Nat) b.caret
    0 ≤ place ∧ b'.text.drop place.toNat = b.text.drop b.caret.toNat := by
  intro place
  obtain ⟨distance, hdistance⟩ := Int.le.dest hcaret
  have hplace : place = ((front.flatten ++ blanks).length + distance : Nat) := by
    have hmoved : place = b.caret - (front.flatten.length + indent.length : Nat) +
        (front.flatten.length + blanks.length : Nat) := caretAfter_of_old_le (by omega) hcaret (by omega)
    rw [List.length_append]
    omega
  have hold : b.caret.toNat = (front.flatten ++ indent).length + distance := by
    rw [List.length_append]
    omega
  rw [hplace, Int.toNat_natCast, hold, hnew.text_eq, hline.text_eq, List.drop_length_add_append,
    List.drop_length_add_append]
  exact ⟨Int.natCast_nonneg _, rfl⟩

end Effect

section Tab

variable {columns : Indent.Columns} {b : Buffer} {front rear : List (List Char)} {indent rest : List Char}

theorem tabKey_indented_of_error (hline : b.Indented front indent rest rear) (hcurrent : b.currentLine = front.length)
    {e : EditError} (hblanks : b.indentString (columns.column (rowText rest)) = .error e) :
    (tabKey (.listing columns)).effect b = (.error e, b.beginUndo.endUndo) := by
  have hbegun : b.beginUndo.Indented front indent rest rear := hline.of_text rfl
  have hcurrent' : b.beginUndo.currentLine = front.length := hcurrent
  have herror : (reindentLine (.listing columns) front.length).effect b.beginUndo = (.error e, b.beginUndo) :=
    reindentLine_indented_of_error hbegun hblanks
  refine Command.grouped_effect ?_
  rw [Step.effect_bind_report]
  refine Step.effect_bind_of_error ?_
  rw [reindentCurrentLine, Step.effect_bind_look, hcurrent', herror]

theorem tabKey_indented_of_feed (hline : b.Indented front indent rest rear) (hcurrent : b.currentLine = front.length)
    {blanks : List Char} (hblanks : b.indentString (columns.column (rowText rest)) = .ok blanks)
    (hfeed : blanks = [] → rest.head? ≠ some '\n') :
    let place := caretAfter front.flatten.length (front.flatten.length + indent.length : Nat)
      (front.flatten.length + blanks.length : Nat) b.caret
    ∃ b', (tabKey (.listing columns)).effect b = (.ok (), b') ∧ b'.Indented front blanks rest rear ∧
      b'.layout = b.layout ∧ b'.caret = max 0 (min place b'.text.length) := by
  intro place
  have hbegun : b.beginUndo.Indented front indent rest rear := hline.of_text rfl
  have hcurrent' : b.beginUndo.currentLine = front.length := hcurrent
  obtain ⟨heffect, hnew⟩ := reindentLine_indented_of_feed hbegun hblanks hfeed
  have hlayout := b.beginUndo.replaceRange_layout front.flatten.length
    (front.flatten.length + indent.length : Nat) blanks
  generalize b.beginUndo.replaceRange front.flatten.length (front.flatten.length + indent.length : Nat) blanks = b'
    at heffect hnew hlayout
  refine ⟨(b'.goto place).endUndo, Command.grouped_effect ?_, hnew.of_text rfl, ?_, rfl⟩
  · rw [Step.effect_bind_report]
    refine (Step.effect_bind_of_ok ?_).trans rfl
    rw [reindentCurrentLine, Step.effect_bind_look, hcurrent', heffect]
    rfl
  · exact hlayout

/-- A caret comes to stand behind the new indentation of its line. -/
theorem exists_caretAfter (hline : b.Indented front indent rest rear) (hcurrent : b.currentLine = front.length)
    (hstart : front.flatten.length ≤ b.caret) (hstop : b.caret ≤ b.text.length) {blanks : List Char} {b' : Buffer}
    (hnew : b'.Indented front blanks rest rear) :
    ∃ place : Nat, caretAfter front.flatten.length (front.flatten.length + indent.length : Nat)
        (front.flatten.length + blanks.length : Nat) b.caret = place ∧
      front.flatten.length + blanks.length ≤ place ∧ place ≤ b'.text.length ∧ b'.lineOf place = front.length := by
  have hlength : b.text.length = front.flatten.length + indent.length + (rest.length + rear.flatten.length) := by
    rw [hline.text_eq]
    simp only [List.length_append]
  have hlength' : b'.text.length = front.flatten.length + blanks.length + (rest.length + rear.flatten.length) := by
    rw [hnew.text_eq]
    simp only [List.length_append]
  have hinside := hline.lt_of_lineOf_eq hcurrent
  -- what is left of the line behind the caret
  obtain ⟨distance, hplace, hfits, hbefore⟩ : ∃ distance : Nat,
      caretAfter front.flatten.length (front.flatten.length + indent.length : Nat)
        (front.flatten.length + blanks.length : Nat) b.caret = (front.flatten.length + blanks.length + distance : Nat) ∧
      distance ≤ rest.length + rear.flatten.length ∧ (rear = [] ∨ distance < rest.length) := by
    by_cases hold : b.caret ≤ (front.flatten.length + indent.length : Nat)
    · refine ⟨0, caretAfter_of_le_old hstart hold, Nat.zero_le _, ?_⟩
      by_cases hrear : rear = []
      · exact .inl hrear
      · exact .inr (List.length_pos_of_ne_nil (hline.rest_ne_nil hrear))
    · obtain ⟨distance, hdistance⟩ := Int.le.dest (Int.le_of_lt (Int.not_le.mp hold))
      refine ⟨distance, ?_, by omega, hinside.imp_right fun hlt => by omega⟩
      rw [caretAfter_of_old_le (by omega) (by omega) (by omega)]
      omega
  refine ⟨_, hplace, Nat.le_add_right .., by omega, ?_⟩
  exact hnew.lineOf_eq (by omega) (hbefore.imp_right fun hlt => by omega)

/-- Once the tab key has put the caret's line in order, it leaves the text and the caret alone. -/
theorem tabKey_again (hsound : columns.Sound) (hcaret : 0 ≤ b.caret ∧ b.caret ≤ b.text.length) :
    let once := (tabKey (.listing columns)).effect b
    let twice := (tabKey (.listing columns)).effect once.2
    twice.1 = once.1 ∧ twice.2.text = once.2.text ∧ twice.2.caret = once.2.caret := by
  intro once twice
  obtain ⟨line, start, hcurrent, hget, hstart, hle⟩ := b.lineStart_lineOf hcaret.1
  have hexists : line < b.lineCount := (List.getElem?_eq_some_iff.mp hget).1
  obtain ⟨front, indent, rest, rear, rfl, hline⟩ := Buffer.exists_indented hexists
  obtain rfl := Except.ok.inj (hstart.symm.trans hline.lineStart_eq)
  cases hblanks : b.indentString (columns.column (rowText rest)) with
  | error e =>
    have honce : once = (.error e, b.beginUndo.endUndo) := tabKey_indented_of_error hline hcurrent hblanks
    have hagain : b.beginUndo.endUndo.Indented front indent rest rear := hline.of_text rfl
    have htwice : twice = (.error e, once.2.beginUndo.endUndo) := by
      simp only [twice, honce]
      exact tabKey_indented_of_error hagain hcurrent hblanks
    rw [htwice, honce]
    exact ⟨rfl, rfl, rfl⟩
  | ok blanks =>
    have hfeed := head_ne_feed hsound.marker hsound.code hblanks
    obtain ⟨b', honce, hnew, hlayout, hplace⟩ := tabKey_indented_of_feed hline hcurrent hblanks hfeed
    obtain ⟨place, hmoved, hbehind, hinside, hof⟩ := exists_caretAfter hline hcurrent hle hcaret.2 hnew
    have hplaced : b'.caret = place := by
      rw [hplace, hmoved]
      omega
    have hcurrent' : b'.currentLine = front.length := by rw [Buffer.currentLine, hplaced, hof]
    have hblanks' : b'.indentString (columns.column (rowText rest)) = .ok blanks := by
      rw [Buffer.indentString_of_layout hlayout, hblanks]
    obtain ⟨b'', htwice, hkept, -, hplace'⟩ := tabKey_indented_of_feed hnew hcurrent' hblanks' hfeed
    have htext : b''.text = b'.text := hkept.text.trans hnew.text.symm
    rw [hplaced, caretAfter_of_old_le (by omega) (by omega) (by omega), htext] at hplace'
    have hstays : b''.caret = b'.caret := by omega
    have hsame : once = (.ok (), b') := honce
    have hsame' : twice = (.ok (), b'') := by
      simp only [twice, hsame]
      exact htwice
    rw [hsame', hsame]
    exact ⟨rfl, htext, hstays⟩

end Tab

/-- Reindenting a line. The blanks at its start are exchanged for those that reach the column that belongs to the line,
and nothing else changes. The line then stands at that column and belongs there, so that to reindent it once more
changes nothing. The caret stays if it is in front of the line, goes to the end of the indentation if it is in there,
and else keeps the text behind it. So the tab key does nothing to text and caret when it is pressed again. Where there
is no memory for the blanks, nothing is changed. -/
theorem reindentLine_line {columns : Indent.Columns} {b : Buffer} {width : Int} (hsound : columns.Sound)
    (hwidth : b.tabWidth = some width) (hpositive : 1 ≤ width) (hcaret : 0 ≤ b.caret ∧ b.caret ≤ b.text.length)
    {line : Nat} (hline : line < b.lineCount) :
    (∃ front indent content rear, b.LineParts line front indent content rear ∧
      let column := columns.column (indent ++ content)
      (columns.Fits b → ∃ blanks, b.indentString column = .ok blanks) ∧
      (∀ e, b.indentString column = .error e → (reindentLine (.listing columns) line).effect b = (.error e, b)) ∧
      ∀ blanks, b.indentString column = .ok blanks →
        ∃ place b', (reindentLine (.listing columns) line).effect b = (.ok place, b') ∧
          b'.LineParts line front blanks content rear ∧ b'.indentation line = .ok column ∧
          columns.column (blanks ++ content) = column ∧
          (∃ again b'', (reindentLine (.listing columns) line).effect b' = (.ok again, b'') ∧
            b''.text = b'.text ∧ b''.caret = b'.caret ∧ b''.anchor = b'.anchor ∧
            (b.styles.length = b.text.length → b'' = b')) ∧
          (b.caret < front.length → place = b.caret) ∧
          (front.length ≤ b.caret → b.caret ≤ (front ++ indent).length → place = (front ++ blanks).length) ∧
          ((front ++ indent).length ≤ b.caret →
            0 ≤ place ∧ b'.text.drop place.toNat = b.text.drop b.caret.toNat)) ∧
      (let once := (tabKey (.listing columns)).effect b
      let twice := (tabKey (.listing columns)).effect once.2
      twice.1 = once.1 ∧ twice.2.text = once.2.text ∧ twice.2.caret = once.2.caret) := by
  obtain ⟨front, indent, rest, rear, rfl, hindented⟩ := Buffer.exists_indented hline
  refine ⟨⟨_, indent, rowText rest, _, hindented.parts, ?_⟩, tabKey_again hsound hcaret⟩
  intro column
  have hcolumn : column = columns.column (rowText rest) := columns.column_append_blanks hindented.blank _
  obtain ⟨hlower, hupper⟩ := Indent.Columns.column_bounds hsound (rowText rest)
  rw [hcolumn]
  refine ⟨fun hfits => ?_, fun e herror => reindentLine_indented_of_error hindented herror, fun blanks hblanks => ?_⟩
  · have hcomment := hfits.comment
    have hcode := hfits.code
    exact Buffer.indentString_isOk hwidth hpositive ⟨hlower, by omega⟩ fun htabs => hfits.tabs htabs width hwidth
  · obtain ⟨heffect, hnew⟩ := reindentLine_indented_of_ok hsound hindented hblanks
    have hlayout := b.replaceRange_layout front.flatten.length (front.flatten.length + indent.length : Nat) blanks
    have hmeasured := Buffer.columnBehind_indentString hwidth hpositive hlower hblanks
    rw [← (Buffer.layout_eq_iff.mp hlayout).1, ← hnew.indentation_eq] at hmeasured
    refine ⟨_, _, heffect, hnew.parts, hmeasured, columns.column_append_blanks hnew.blank _,
      reindentLine_indented_again hsound hindented hblanks, caretAfter_of_lt, ?_, ?_⟩
    · intro hstart hold
      rw [List.length_append] at hold ⊢
      exact caretAfter_of_le_old hstart hold
    · intro hold
      rw [List.length_append] at hold
      exact drop_caretAfter hindented hnew hold

/-- An instruction among lines that end in different ways, with the caret inside its name. -/
def crowdedLine : Buffer :=
  { Buffer.ofText "a:\r\n \tnop\rb".toList (some 4) true 2 1024 with caret := 7, anchor := 0 }

theorem reindentLine_line_crowdedLine :
    crowdedLine.LineParts 1 "a:\r\n".toList " \t".toList "nop".toList "\rb".toList ∧
      ∃ place b', (reindentLine (.listing ⟨['#'], 16, 8⟩) 1).effect crowdedLine = (.ok place, b') ∧
        b'.LineParts 1 "a:\r\n".toList "\t\t".toList "nop".toList "\rb".toList ∧ b'.indentation 1 = .ok 8 ∧
        b'.text.drop place.toNat = "op\rb".toList := by
  have hsound : Indent.Columns.Sound ⟨['#'], 16, 8⟩ := ⟨by decide, by decide, by decide⟩
  have hgiven : crowdedLine.LineParts 1 "a:\r\n".toList " \t".toList "nop".toList "\rb".toList :=
    ⟨by decide, by decide, by decide, by decide, by decide⟩
  obtain ⟨⟨front, indent, content, rear, hparts, -, -, hreindented⟩, -⟩ :=
    reindentLine_line hsound (b := crowdedLine) rfl (by decide) (by decide) (show 1 < crowdedLine.lineCount by decide)
  obtain ⟨rfl, rfl, rfl, rfl⟩ := hparts.unique hgiven
  obtain ⟨place, b', heffect, hnew, hcolumn, -, -, -, -, hcaret⟩ := hreindented "\t\t".toList (by decide)
  exact ⟨hgiven, place, b', heffect, hnew, hcolumn, (hcaret (by decide)).2⟩

/-- A line in a buffer with tabs for whose width there is no memory. -/
def wideTabLine : Buffer :=
  { Buffer.ofText "  nop".toList (some 100000000000000000000) true 2 1024 with caret := 5, anchor := 5 }

/-- Reindenting a line can fail. -/
theorem reindentLine_wideTabLine :
    Indent.Columns.Sound ⟨['#'], 32, 8⟩ ∧ (∃ width, wideTabLine.tabWidth = some width ∧ 1 ≤ width) ∧
      (0 ≤ wideTabLine.caret ∧ wideTabLine.caret ≤ wideTabLine.text.length) ∧ 0 < wideTabLine.lineCount ∧
      Indent.Columns.column ⟨['#'], 32, 8⟩ "  nop".toList = 8 ∧ wideTabLine.indentation 0 = .ok 2 ∧
      (reindentLine (.listing ⟨['#'], 32, 8⟩) 0).effect wideTabLine = (.error .columnOutOfRange, wideTabLine) := by
  have hsound : Indent.Columns.Sound ⟨['#'], 32, 8⟩ := ⟨by decide, by decide, by decide⟩
  exact ⟨hsound, ⟨_, rfl, by decide⟩, by decide, by decide, by decide, by decide, by decide +kernel⟩

/-- A line of one blank between a carriage return and a line feed. -/
def blankBetweenReturns : Buffer := Buffer.ofText "a\r \n b".toList (some 8) false 2 1024

/-- With an empty marker a line of blanks belongs to the margin. Without its blank its line feed joins the carriage
return before it, so that another line takes its number, and stands at another column. -/
theorem reindentLine_emptyMarker :
    1 < blankBetweenReturns.lineCount ∧ Indent.Columns.column ⟨[], 32, 8⟩ " ".toList = 0 ∧
      let reindented := (reindentLine (.listing ⟨[], 32, 8⟩) 1).effect blankBetweenReturns
      reindented.2.text = "a\r\n b".toList ∧ reindented.2.lineCount + 1 = blankBetweenReturns.lineCount ∧
        reindented.2.indentation 1 = .ok 1 := by
  decide +kernel

end Indenter

end ListingEditor
