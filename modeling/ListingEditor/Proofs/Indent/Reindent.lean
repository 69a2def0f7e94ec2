import ListingEditor.Indent.Indenter
import ListingEditor.Proofs.Buffer.Draft
import ListingEditor.Proofs.Buffer.Indentation

/-!
Reindenting a line exchanges blanks for blanks and puts the caret where it was among the rest of the text.
-/

namespace ListingEditor

open Text (AllBlank nonblank)
open Buffer (Inserts LineAt)

namespace Indent.Columns

/-- Columns that a session can have. -/
structure Sound (columns : Columns) : Prop where
  marker : columns.marker ≠ []
  comment : 0 ≤ columns.comment
  code : 1 ≤ columns.code

/-- Whether there is memory for the indentation of any line. -/
structure Fits (columns : Columns) (b : Buffer) : Prop where
  comment : columns.comment ≤ b.room
  code : columns.code ≤ b.room
  tabs : b.useTabs = true → ∀ width, b.tabWidth = some width → width ≤ b.room

variable {columns : Columns}

theorem Fits.of_layout {b b' : Buffer} (hfits : columns.Fits b) (hlayout : b'.layout = b.layout) :
    columns.Fits b' := by
  obtain ⟨htab, huse, -, -⟩ := Buffer.layout_eq_iff.mp hlayout
  have hroom := Buffer.room_of_layout hlayout
  exact ⟨by rw [hroom]; exact hfits.comment, by rw [hroom]; exact hfits.code,
    by rw [htab, huse, hroom]; exact hfits.tabs⟩

theorem column_bounds (hsound : columns.Sound) (text : List Char) :
    0 ≤ columns.column text ∧ columns.column text ≤ max columns.comment columns.code := by
  have hcomment := hsound.comment
  have hcode := hsound.code
  unfold column
  cases placement columns.marker text with
  | margin => simp only [Columns.of]; omega
  | comment => simp only [Columns.of]; omega
  | code => simp only [Columns.of]; omega

/-- A blank line is indented like code. -/
theorem column_of_allBlank (hmarker : columns.marker ≠ []) {text : List Char} (hblank : AllBlank text) :
    columns.column text = columns.code := by
  have hcontent : text.dropWhile Text.isBlank = [] := List.dropWhile_eq_nil_iff.mpr hblank
  have hlabel : (Listing.label? []).isSome = false := by decide
  have hplacement : placement columns.marker text = .code := by
    simp [placement, hcontent, hlabel, hmarker]
  rw [column, hplacement]
  rfl

end Indent.Columns

namespace Indenter

theorem caretAfter_of_lt {start old new caret : Int} (hlt : caret < start) :
    caretAfter start old new caret = caret := if_pos hlt

theorem caretAfter_of_le_old {start old new caret : Int} (hstart : start ≤ caret) (hold : caret ≤ old) :
    caretAfter start old new caret = new := by
  rw [caretAfter, if_neg (by omega)]
  split <;> omega

theorem caretAfter_of_old_le {start old new caret : Int} (hstart : start ≤ old) (hold : old ≤ caret)
    (hnew : start ≤ new) : caretAfter start old new caret = caret - old + new := by
  rw [caretAfter, if_neg (by omega), if_neg (by omega)]

section Caret

variable {b : Buffer} {front indent blanks rest : List Char}

theorem inserts_reindented_of_lt (hplaced : b.Placed) (htext : b.text = front ++ indent ++ rest)
    (hindent : AllBlank indent) (hblanks : AllBlank blanks) (hcaret : b.caret < front.length) :
    Inserts [] b ((b.replaceRange front.length (front.length + indent.length : Nat) blanks).goto b.caret) := by
  obtain ⟨place, hplace⟩ := Int.eq_ofNat_of_zero_le hplaced.caret.1
  have hlength : b.caret = (front.take place).length := by
    rw [List.length_take]
    omega
  have haround : b.text = front.take place ++ (front.drop place ++ indent ++ rest) := by
    rw [← List.append_assoc, ← List.append_assoc, List.take_append_drop, htext]
  have hedit : (b.replaceRange front.length (front.length + indent.length : Nat) blanks).text =
      front.take place ++ (front.drop place ++ blanks ++ rest) := by
    rw [b.replaceRange_middle blanks htext, ← List.append_assoc, ← List.append_assoc,
      List.take_append_drop]
  have hgoto := Buffer.inserts_goto haround hlength hedit (List.append_nil _).symm
    (by simp [hindent.nonblank_eq_nil, hblanks.nonblank_eq_nil]) (b.replaceRange_layout ..)
  rwa [← hlength] at hgoto

theorem inserts_reindented_of_le_old (htext : b.text = front ++ indent ++ rest)
    (hindent : AllBlank indent) (hblanks : AllBlank blanks) (hstart : front.length ≤ b.caret)
    (hold : b.caret ≤ (front.length + indent.length : Nat)) :
    Inserts [] b ((b.replaceRange front.length (front.length + indent.length : Nat) blanks).goto
      (front.length + blanks.length : Nat)) := by
  obtain ⟨place, hplace⟩ := Int.le.dest hstart
  have hparts : indent.take place ++ indent.drop place = indent := List.take_append_drop ..
  obtain ⟨hleft, hright⟩ : AllBlank (indent.take place) ∧ AllBlank (indent.drop place) := by
    apply AllBlank.of_append
    rwa [hparts]
  have hlength : b.caret = (front ++ indent.take place).length := by
    rw [List.length_append, List.length_take]
    omega
  have haround : b.text = front ++ indent.take place ++ (indent.drop place ++ rest) := by
    rw [← List.append_assoc, List.append_assoc front, hparts, htext]
  have hmoved : front.length + blanks.length = (front ++ blanks).length := List.length_append.symm
  rw [hmoved]
  refine Buffer.inserts_goto haround hlength (b.replaceRange_middle blanks htext) ?_ ?_
    (b.replaceRange_layout ..)
  · simp [hleft.nonblank_eq_nil, hblanks.nonblank_eq_nil]
  · simp [hright.nonblank_eq_nil]

theorem inserts_reindented_of_old_le (hplaced : b.Placed) (htext : b.text = front ++ indent ++ rest)
    (hindent : AllBlank indent) (hblanks : AllBlank blanks)
    (hold : (front.length + indent.length : Nat) ≤ b.caret) :
    Inserts [] b ((b.replaceRange front.length (front.length + indent.length : Nat) blanks).goto
      (b.caret - (front.length + indent.length : Nat) + (front.length + blanks.length : Nat))) := by
  obtain ⟨place, hplace⟩ := Int.le.dest hold
  have hinside : place ≤ rest.length := by
    have hupper := hplaced.caret.2
    simp only [htext, List.length_append] at hupper
    omega
  have hlength : b.caret = (front ++ indent ++ rest.take place).length := by
    simp only [List.length_append, List.length_take]
    omega
  have haround : b.text = front ++ indent ++ rest.take place ++ rest.drop place := by
    rw [List.append_assoc _ (rest.take place), List.take_append_drop, htext]
  have hedit : (b.replaceRange front.length (front.length + indent.length : Nat) blanks).text =
      front ++ blanks ++ rest.take place ++ rest.drop place := by
    rw [b.replaceRange_middle blanks htext, List.append_assoc _ (rest.take place), List.take_append_drop]
  have hmoved : b.caret - (front.length + indent.length : Nat) + (front.length + blanks.length : Nat) =
      (front ++ blanks ++ rest.take place).length := by
    simp only [List.length_append, List.length_take]
    omega
  rw [hmoved]
  exact Buffer.inserts_goto haround hlength hedit
    (by simp [hindent.nonblank_eq_nil, hblanks.nonblank_eq_nil]) rfl (b.replaceRange_layout ..)

/-- A caret keeps its place in the text when the indentation of a line is exchanged. -/
theorem inserts_reindented (hplaced : b.Placed) (htext : b.text = front ++ indent ++ rest)
    (hindent : AllBlank indent) (hblanks : AllBlank blanks) :
    Inserts [] b ((b.replaceRange front.length (front.length + indent.length : Nat) blanks).goto
      (caretAfter front.length (front.length + indent.length : Nat) (front.length + blanks.length : Nat)
        b.caret)) := by
  by_cases hfront : b.caret < front.length
  · rw [caretAfter_of_lt hfront]
    exact inserts_reindented_of_lt hplaced htext hindent hblanks hfront
  · by_cases hold : b.caret ≤ (front.length + indent.length : Nat)
    · rw [caretAfter_of_le_old (by omega) hold]
      exact inserts_reindented_of_le_old htext hindent hblanks (by omega) hold
    · rw [caretAfter_of_old_le (by omega) (by omega) (by omega)]
      exact inserts_reindented_of_old_le hplaced htext hindent hblanks (by omega)

end Caret

section Effect

variable {indenter : Indenter} {b : Buffer} {line column : Int} {start old new : Nat}

theorem reindentLine_effect_of_error {e : EditError} (hstart : b.lineStart line = .ok start)
    (hold : b.indentEnd line = .ok old) (hcolumn : indenter.findColumn b line = .ok (some column))
    (hblanks : b.indentString column = .error e) :
    (indenter.reindentLine line).effect b = (.error e, b) := by
  rw [reindentLine, Step.effect_bind_ask_of_ok (f := fun b : Buffer => b.lineStart line) hstart,
    Step.effect_bind_look, Step.effect_bind_ask_of_ok (f := fun b : Buffer => b.indentEnd line) hold,
    Step.effect_bind_report, Step.effect_bind_ask_of_ok (f := fun b => indenter.findColumn b line) hcolumn]
  exact Step.effect_bind_ask_of_error (f := fun b : Buffer => b.indentString column) hblanks

theorem reindentLine_effect_of_ok {blanks : List Char} (hstart : b.lineStart line = .ok start)
    (hold : b.indentEnd line = .ok old) (hcolumn : indenter.findColumn b line = .ok (some column))
    (hblanks : b.indentString column = .ok blanks)
    (hnew : (b.replaceRange start old blanks).indentEnd line = .ok new) :
    (indenter.reindentLine line).effect b =
      (.ok (caretAfter start old new b.caret), b.replaceRange start old blanks) := by
  rw [reindentLine, Step.effect_bind_ask_of_ok (f := fun b : Buffer => b.lineStart line) hstart,
    Step.effect_bind_look, Step.effect_bind_ask_of_ok (f := fun b : Buffer => b.indentEnd line) hold,
    Step.effect_bind_report, Step.effect_bind_ask_of_ok (f := fun b => indenter.findColumn b line) hcolumn]
  dsimp only
  rw [Step.effect_bind_ask_of_ok (f := fun b : Buffer => b.indentString column) hblanks,
    Step.effect_bind_report, Step.effect_bind_change,
    Step.effect_bind_ask_of_ok (f := fun b : Buffer => b.indentEnd line) hnew, Step.effect_bind_look,
    Step.effect_bind_report, Step.effect_pure]

end Effect

/-- Reindenting a line exchanges its indentation and tells where the caret belongs, or changes nothing because
there is no memory for the indentation. -/
theorem reindentLine_effect {columns : Indent.Columns} {b : Buffer} {width : Int}
    (hsound : columns.Sound) (hwidth : b.tabWidth = some width) (hpositive : 1 ≤ width) (line : Nat) :
    (∃ e, (reindentLine (.listing columns) line).effect b = (.error e, b) ∧ ¬ columns.Fits b) ∨
      ∃ front indent blanks rest, b.text = front ++ indent ++ rest ∧ AllBlank indent ∧ AllBlank blanks ∧
        (reindentLine (.listing columns) line).effect b =
          (.ok (caretAfter front.length (front.length + indent.length : Nat)
              (front.length + blanks.length : Nat) b.caret),
            b.replaceRange front.length (front.length + indent.length : Nat) blanks) := by
  obtain ⟨front, rear, htext, hat⟩ := Buffer.exists_lineAt b.text line
  have hstart := hat.lineStart htext
  have hold := Buffer.indentEnd_eq htext hstart
  have hcolumn : findColumn (.listing columns) b line =
      .ok (some (columns.column (rear.takeWhile fun c => !Text.isReturn c))) := by
    rw [findColumn, Buffer.lineText_eq htext hstart]
    rfl
  cases hblanks : b.indentString (columns.column (rear.takeWhile fun c => !Text.isReturn c)) with
  | error e =>
    refine .inl ⟨e, reindentLine_effect_of_error hstart hold hcolumn hblanks, fun hfits => ?_⟩
    obtain ⟨hlower, hupper⟩ := Indent.Columns.column_bounds hsound (rear.takeWhile fun c => !Text.isReturn c)
    have hcomment := hfits.comment
    have hcode := hfits.code
    obtain ⟨blanks, hok⟩ := Buffer.indentString_isOk hwidth hpositive ⟨hlower, by omega⟩
      fun htabs => hfits.tabs htabs width hwidth
    rw [hblanks] at hok
    cases hok
  | ok blanks =>
    obtain ⟨hblank, hsome⟩ := Buffer.indentString_blank hblanks
    generalize hindent : rear.takeWhile Text.isBlank = indent at hold
    obtain ⟨rest, rfl⟩ : ∃ rest, rear = indent ++ rest :=
      ⟨_, (hindent ▸ List.takeWhile_append_dropWhile).symm⟩
    have hallBlank : AllBlank indent := hindent ▸ Text.takeWhile_allBlank _
    rw [← List.append_assoc] at htext
    have hrest : rest.takeWhile Text.isBlank = [] := by
      rw [List.takeWhile_append_of_pos hallBlank] at hindent
      exact List.append_cancel_left (hindent.trans (List.append_nil indent).symm)
    -- a line of blanks gets some, so that its line feed stays apart from a carriage return
    have hfeed : blanks = [] → rest.head? ≠ some '\n' := by
      intro hempty hhead
      obtain ⟨tail, rfl⟩ := List.head?_eq_some_iff.mp hhead
      have hline : (indent ++ '\n' :: tail).takeWhile (fun c => !Text.isReturn c) = indent := by
        rw [List.takeWhile_append_of_pos, List.takeWhile_cons_of_neg (by decide), List.append_nil]
        intro c hc
        rw [Text.isReturn_eq_false_of_isBlank (hallBlank c hc)]
        rfl
      rw [hline, Indent.Columns.column_of_allBlank hsound.marker hallBlank] at hsome
      exact hsome hsound.code hempty
    have hnew := hat.indentEnd_reindent (b.replaceRange_middle blanks htext) hblank hrest hfeed
    exact .inr ⟨front, indent, blanks, rest, htext, hallBlank, hblank,
      reindentLine_effect_of_ok hstart hold hcolumn hblanks hnew⟩

end Indenter

end ListingEditor
