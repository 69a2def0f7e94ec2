import ListingEditor.Proofs.Indent.Reindent

/-!
What the commands of the return key, the tab key and the colon write. All else that they do is moving blanks
about.
-/

namespace ListingEditor

open Text (AllBlank nonblank)
open Buffer (Inserts)
open Command (Writes)

/-- The part of the caret's line before the caret. -/
theorem Buffer.Placed.exists_line {b : Buffer} (hplaced : b.Placed) :
    ∃ (line : Nat) (front before rear : List Char), b.currentLine = line ∧
      b.lineStart line = .ok front.length ∧ b.text = front ++ before ++ rear ∧
      b.caret = (front ++ before).length ∧ b.range front.length b.caret = before := by
  obtain ⟨line, start, hline, -, hstart, hle⟩ := b.lineStart_lineOf hplaced.caret.1
  obtain ⟨text, rear, htext, hcaret⟩ := hplaced.exists_around
  have hsplit : text.take start ++ text.drop start = text := List.take_append_drop ..
  have hlength : (text.take start).length = start := by
    rw [List.length_take]
    omega
  refine ⟨line, text.take start, text.drop start, rear, hline, ?_, ?_, ?_, ?_⟩
  · rw [hstart, hlength]
  · rw [hsplit, htext]
  · rw [hsplit, hcaret]
  · rw [hlength, hcaret, Buffer.range, Text.slice_natCast, htext, List.take_left]

theorem Buffer.typeText_around {b : Buffer} {front rear : List Char} (htext : b.text = front ++ rear)
    (hcaret : b.caret = front.length) (text : List Char) :
    (b.typeText text).text = front ++ text ++ rear ∧ (b.typeText text).caret = (front ++ text).length ∧
      (b.typeText text).anchor = (front ++ text).length := by
  have hbehind : b.caret + text.length = (front ++ text).length := by
    rw [hcaret, List.length_append]
    omega
  refine ⟨?_, hbehind, hbehind⟩
  change (b.insert b.caret text).text = _
  rw [hcaret, Buffer.insert_text, htext, List.take_left, List.drop_left]

theorem Buffer.Placed.inserts_typeText {b : Buffer} (hplaced : b.Placed) {text : List Char}
    (hfull : nonblank text = text) : Inserts text b (b.typeText text) := by
  obtain ⟨front, rear, htext, hcaret⟩ := hplaced.exists_around
  obtain ⟨htext', hcaret', hanchor'⟩ := Buffer.typeText_around htext hcaret text
  refine Buffer.inserts_of_around htext hcaret htext' hcaret' hanchor' ?_ rfl rfl
  rw [Text.nonblank_append, hfull]

namespace Indenter

variable {safe : Prop} {b : Buffer}

/-- The blanks at the end of the text before the caret are removed. -/
theorem deleteBlanksBeforeCaret_effect {start : Nat} {before : List Char}
    (hstart : b.lineStart b.currentLine = .ok start) (hrange : b.range start b.caret = before) :
    ∃ tail, before = Text.trimEnd Text.isBlank before ++ tail ∧ AllBlank tail ∧
      deleteBlanksBeforeCaret.effect b = (.ok (), if tail = [] then b
        else (b.replaceRange (b.caret - tail.length) b.caret []).goto (b.caret - tail.length)) := by
  obtain ⟨tail, hbefore, htail⟩ := Text.exists_eq_trimEnd_append Text.isBlank before
  refine ⟨tail, hbefore, htail, ?_⟩
  have hcount : before.length - (Text.trimEnd Text.isBlank before).length = tail.length := by
    have hlength := congrArg List.length hbefore
    rw [List.length_append] at hlength
    omega
  rw [deleteBlanksBeforeCaret, Step.effect_bind_look, Step.effect_bind_look,
    Step.effect_bind_ask_of_ok (f := fun c : Buffer => c.lineStart b.currentLine) hstart,
    Step.effect_bind_look, hrange]
  dsimp only
  rw [hcount]
  by_cases hnone : tail = []
  · rw [if_pos hnone, if_neg (by simp [hnone])]
    rfl
  · rw [if_neg hnone, if_pos (List.length_pos_of_ne_nil hnone)]
    rfl

theorem writes_deleteBlanksBeforeCaret (hplaced : b.Placed) :
    Writes safe [] deleteBlanksBeforeCaret b := by
  obtain ⟨line, front, before, rear, hline, hstart, htext, hcaret, hrange⟩ := hplaced.exists_line
  rw [← hline] at hstart
  obtain ⟨tail, hbefore, htail, heffect⟩ := deleteBlanksBeforeCaret_effect hstart hrange
  generalize Text.trimEnd Text.isBlank before = kept at hbefore
  by_cases hnone : tail = []
  · rw [if_pos hnone] at heffect
    exact (Command.writes_pure () hplaced).after_blanks heffect hplaced.inserts_nil
  · rw [if_neg hnone] at heffect
    refine Command.writes_of_ok heffect ?_
    subst hbefore
    rw [← List.append_assoc] at htext hcaret
    have hkept : (b.caret - tail.length : Int) = (front ++ kept).length := by
      simp only [hcaret, List.length_append]
      omega
    have hedit := b.replaceRange_middle [] htext
    rw [← List.length_append, ← hcaret, List.append_nil] at hedit
    rw [hkept]
    refine Buffer.inserts_goto htext hcaret hedit ?_ rfl (b.replaceRange_layout ..)
    rw [Text.nonblank_append _ tail, AllBlank.nonblank_eq_nil htail]
    simp

/-- A buffer on which the commands can work, and one on which they are sure to return if they are `safe`. -/
structure Ready (columns : Indent.Columns) (safe : Prop) (b : Buffer) : Prop where
  placed : b.Placed
  width : ∃ width, b.tabWidth = some width ∧ 1 ≤ width
  fits : safe → columns.Fits b

variable {columns : Indent.Columns}

theorem Ready.of_layout {b' : Buffer} (hready : Ready columns safe b) (hplaced : b'.Placed)
    (hlayout : b'.layout = b.layout) : Ready columns safe b' := by
  have htab := (Buffer.layout_eq_iff.mp hlayout).1
  exact ⟨hplaced, htab ▸ hready.width, fun hsafe => (hready.fits hsafe).of_layout hlayout⟩

/-- Reindenting a line and moving the caret along moves blanks about, if there is memory for them. -/
theorem reindentLine_goto (hsound : columns.Sound) (hready : Ready columns safe b) (line : Nat) :
    (∃ e, (reindentLine (.listing columns) line).effect b = (.error e, b) ∧ ¬ safe) ∨
      ∃ place b', (reindentLine (.listing columns) line).effect b = (.ok place, b') ∧
        Inserts [] b (b'.goto place) := by
  obtain ⟨width, hwidth, hpositive⟩ := hready.width
  obtain ⟨e, heffect, hfits⟩ | ⟨front, indent, blanks, rest, htext, hindent, hblanks, heffect⟩ :=
    reindentLine_effect hsound hwidth hpositive line
  · exact .inl ⟨e, heffect, fun hsafe => hfits (hready.fits hsafe)⟩
  · exact .inr ⟨_, _, heffect, inserts_reindented hready.placed htext hindent hblanks⟩

theorem writes_reindentLine (hsound : columns.Sound) (hready : Ready columns safe b) (line : Nat) :
    Writes safe [] (do let place ← reindentLine (.listing columns) line; Step.change (·.goto place)) b := by
  obtain ⟨e, heffect, hrisky⟩ | ⟨place, b', heffect, hinserts⟩ := reindentLine_goto hsound hready line
  · exact Command.writes_of_error hready.placed (Step.effect_bind_of_error heffect) hrisky
  · exact Command.writes_of_ok (Step.effect_bind_of_ok heffect) hinserts

theorem effect_reindentCurrentLine_bind {α : Type} (hplaced : b.Placed) (indenter : Indenter)
    (next : Int → Command α) :
    ∃ line : Nat, (indenter.reindentCurrentLine >>= next).effect b =
      (indenter.reindentLine line >>= next).effect b := by
  obtain ⟨line, front, before, rear, hline, -⟩ := hplaced.exists_line
  refine ⟨line, Step.effect_bind_congr next ?_⟩
  rw [reindentCurrentLine, Step.effect_bind_look, hline]

theorem writes_tabKey (hsound : columns.Sound) (hready : Ready columns safe b) :
    Writes safe [] (tabKey (.listing columns)) b := by
  apply Writes.grouped
  have hready' : Ready columns safe b.beginUndo :=
    hready.of_layout ⟨hready.placed.caret, hready.placed.anchor⟩ rfl
  obtain ⟨line, heffect⟩ := effect_reindentCurrentLine_bind hready'.placed (.listing columns)
    fun place => Step.change (·.goto place)
  exact (writes_reindentLine hsound hready' line).after_blanks heffect hready'.placed.inserts_nil

/-- What a line break does once the finished line is in order. -/
def startLine (indenter : Indenter) (newline : List Char) : Command Unit := do
  let line ← Step.look (·.currentLine)
  let caret ← Step.look (·.caret)
  Step.report ⟨"autoindent.py", "processReturn"⟩ indenter.owner
    ("format = " ++ String.ofList (Text.quote newline) ++ s!" pos={caret}")
  Step.change (·.replaceRange caret caret newline)
  Step.change (·.goto (caret + newline.length))
  let place ← indenter.reindentLine (line + 1)
  Step.change (·.goto place)

theorem startLine_reindents (indenter : Indenter) (newline : List Char) (b : Buffer) :
    (startLine indenter newline).effect b = (do
      let place ← indenter.reindentLine (b.currentLine + 1)
      Step.change (·.goto place) : Command Unit).effect
        ((b.replaceRange b.caret b.caret newline).goto (b.caret + newline.length)) := by
  rw [startLine, Step.effect_bind_look, Step.effect_bind_look, Step.effect_bind_report, Step.effect_bind_change,
    Step.effect_bind_change]

theorem breakLine_listing (columns : Indent.Columns) :
    breakLine (.listing columns) = (do
      let newline ← Step.look (·.newline)
      Command.grouped do
        let place ← reindentCurrentLine (.listing columns)
        Step.change (·.goto place)
        deleteBlanksBeforeCaret
        startLine (.listing columns) newline) := rfl

theorem nonblank_newline (b : Buffer) : nonblank b.newline = b.newline := by
  unfold Buffer.newline Buffer.lineEnding
  split
  · decide
  · split <;> decide

/-- A text put in at the caret, with the caret moved behind it. -/
theorem inserts_replaceRange_goto (hplaced : b.Placed) {text : List Char} (hfull : nonblank text = text) :
    Inserts text b ((b.replaceRange b.caret b.caret text).goto (b.caret + text.length)) := by
  obtain ⟨front, rear, htext, hcaret⟩ := hplaced.exists_around
  have hcaret' : b.caret + text.length = (front ++ text).length := by
    rw [hcaret, List.length_append]
    omega
  have hparts : b.text = front ++ [] ++ rear := by rw [List.append_nil, htext]
  have hedit := b.replaceRange_middle text hparts
  rw [List.length_nil, Nat.add_zero, ← hcaret] at hedit
  rw [hcaret']
  refine Buffer.inserts_goto htext hcaret hedit ?_ rfl (b.replaceRange_layout ..)
  rw [Text.nonblank_append, hfull]

theorem writes_startLine (hsound : columns.Sound) (hready : Ready columns safe b) {newline : List Char}
    (hfull : nonblank newline = newline) :
    Writes safe [newline] (startLine (.listing columns) newline) b := by
  obtain ⟨line, front, before, rear, hline, -⟩ := hready.placed.exists_line
  have hinserts := inserts_replaceRange_goto hready.placed hfull
  refine (writes_reindentLine hsound (hready.of_layout hinserts.placed hinserts.layout) (line + 1)).after
    ?_ hinserts
  rw [startLine_reindents, hline]
  rfl

/-- The return key writes one line end. -/
theorem writes_breakLine (hsound : columns.Sound) (hready : Ready columns safe b) :
    Writes safe [b.newline] (breakLine (.listing columns)) b := by
  have hready' : Ready columns safe b.beginUndo :=
    hready.of_layout ⟨hready.placed.caret, hready.placed.anchor⟩ rfl
  rw [breakLine_listing]
  refine Writes.after_blanks (Writes.grouped ?_) (Step.effect_bind_look ..) hready.placed.inserts_nil
  obtain ⟨line, hcurrent⟩ := effect_reindentCurrentLine_bind hready'.placed (.listing columns)
    fun place => do
      Step.change (·.goto place)
      deleteBlanksBeforeCaret
      startLine (.listing columns) b.newline
  obtain ⟨e, heffect, hrisky⟩ | ⟨place, b', heffect, hinserts⟩ := reindentLine_goto hsound hready' line
  · exact Command.writes_of_error hready'.placed (hcurrent.trans (Step.effect_bind_of_error heffect)) hrisky
  · have hmoved := hcurrent.trans ((Step.effect_bind_of_ok heffect).trans (Step.effect_bind_change ..))
    refine Writes.after_blanks ?_ hmoved hinserts
    refine (writes_deleteBlanksBeforeCaret hinserts.placed).bind fun _ c hblanks => ?_
    have hlayout := hblanks.layout.trans hinserts.layout
    exact writes_startLine hsound (hready'.of_layout hblanks.placed hlayout) (nonblank_newline b)

theorem writes_typeColon (hplaced : b.Placed) :
    Writes safe [[':']] (Step.change (·.typeText [':'])) b :=
  Command.writes_of_ok rfl (hplaced.inserts_typeText rfl)

/-- Making a label of the word before the caret writes a colon. -/
theorem writes_completeLabel (hplaced : b.Placed) {owner : String} {front before rear : List Char}
    (htext : b.text = front ++ before ++ rear) (hcaret : b.caret = (front ++ before).length) :
    Writes safe [[':']] (completeLabel owner front.length b.caret before) b := by
  have hplaced' : b.beginUndo.Placed := ⟨hplaced.caret, hplaced.anchor⟩
  have hbefore : before = before.takeWhile Text.isBlank ++ before.dropWhile Text.isBlank :=
    List.takeWhile_append_dropWhile.symm
  generalize hindent : before.takeWhile Text.isBlank = indent at hbefore
  generalize hword : before.dropWhile Text.isBlank = word at hbefore
  have hblank : AllBlank indent := hindent ▸ Text.takeWhile_allBlank before
  have hcount : before.length - word.length = indent.length := by
    rw [hbefore, List.length_append]
    omega
  rw [completeLabel, hword, hcount]
  refine Writes.after_blanks (Writes.grouped ?_) (Step.effect_bind_report ..) hplaced.inserts_nil
  by_cases hsome : 0 < indent.length
  · rw [if_pos hsome]
    have hparts : b.beginUndo.text = front ++ indent ++ (word ++ rear) := by
      change b.text = _
      rw [htext, hbefore]
      simp only [List.append_assoc]
    have hedit := b.beginUndo.replaceRange_middle [] hparts
    rw [List.append_nil, ← List.append_assoc, Int.natCast_add] at hedit
    have hplace : b.caret - indent.length = (front ++ word).length := by
      simp only [hcaret, hbefore, List.length_append]
      omega
    have hinserts : Inserts [] b.beginUndo ((b.beginUndo.replaceRange front.length
        (front.length + indent.length) []).goto (b.caret - indent.length)) := by
      rw [hplace]
      refine Buffer.inserts_goto htext hcaret hedit ?_ rfl (Buffer.replaceRange_layout ..)
      rw [hbefore]
      simp only [Text.nonblank_append, hblank.nonblank_eq_nil, List.append_nil, List.nil_append]
    exact (writes_typeColon hinserts.placed).after_blanks rfl hinserts
  · rw [if_neg hsome]
    exact writes_typeColon hplaced'

theorem electricChar_effect (columns : Indent.Columns) {start : Nat}
    (hstart : b.lineStart b.currentLine = .ok start) :
    (electricChar (.listing columns) [':']).effect b =
      (if Indent.isBareLabel (b.range start b.caret) then (do
          completeLabel (Indenter.listing columns).owner start b.caret (b.range start b.caret)
          pure true)
        else pure false : Command Bool).effect b := by
  rw [electricChar, if_neg (by simp), Step.effect_bind_look, Step.effect_bind_look,
    Step.effect_bind_ask_of_ok (f := fun c : Buffer => c.lineStart b.currentLine) hstart,
    Step.effect_bind_look]

/-- The colon writes itself. -/
theorem writes_colon (hplaced : b.Placed) :
    Writes safe [[':']] (do
      if ← electricChar (.listing columns) [':'] then pure ()
      else Step.change (·.typeText [':']) : Command Unit) b := by
  obtain ⟨line, front, before, rear, hline, hstart, htext, hcaret, hrange⟩ := hplaced.exists_line
  rw [← hline] at hstart
  have helectric := electricChar_effect columns hstart
  rw [hrange] at helectric
  by_cases hlabel : Indent.isBareLabel before = true
  · rw [if_pos hlabel] at helectric
    refine Writes.after_blanks ?_ ((Step.effect_bind_congr _ helectric).trans (Step.effect_bind_bind ..))
      hplaced.inserts_nil
    refine (writes_completeLabel hplaced htext hcaret).bind fun _ c hinserts => ?_
    exact (Command.writes_pure () hinserts.placed).after_blanks rfl hinserts.placed.inserts_nil
  · rw [if_neg hlabel] at helectric
    exact (writes_typeColon hplaced).after_blanks (Step.effect_bind_of_ok helectric) hplaced.inserts_nil

end Indenter

end ListingEditor
