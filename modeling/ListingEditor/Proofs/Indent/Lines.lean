import ListingEditor.Proofs.Buffer.Uniform
import ListingEditor.Proofs.Indent.Reindent
import Mathlib.Data.List.DropRight

/-!
Reindenting in a buffer whose lines all end alike. One line gets the indentation that belongs to it, and the others
stay what they are.
-/

namespace ListingEditor

open Buffer (Uniform Unbroken leading)

theorem Text.AllBlank.unbroken {blanks : List Char} (hblank : Text.AllBlank blanks) : Unbroken blanks :=
  fun c hc => Text.isReturn_eq_false_of_isBlank (hblank c hc)

theorem Text.takeWhile_append_dropWhile_isBlank {blanks : List Char} (hblank : Text.AllBlank blanks)
    (line : List Char) :
    (blanks ++ line.dropWhile Text.isBlank).takeWhile Text.isBlank = blanks := by
  have hcontent : (line.dropWhile Text.isBlank).takeWhile Text.isBlank = [] := by
    rw [List.takeWhile_eq_nil_iff]
    intro hpositive
    exact List.dropWhile_get_zero_not _ line hpositive
  rw [List.takeWhile_append_of_pos hblank, hcontent, List.append_nil]

theorem Buffer.indentString_of_layout {b b' : Buffer} (hlayout : b'.layout = b.layout) (column : Int) :
    b'.indentString column = b.indentString column := by
  obtain ⟨htab, huse, -, -⟩ := Buffer.layout_eq_iff.mp hlayout
  have hblanks (count : Int) : b'.blanks count = b.blanks count := by
    rw [Buffer.blanks, Buffer.repeated, Buffer.countFault?_of_layout hlayout, Buffer.blanks, Buffer.repeated]
  simp only [Buffer.indentString, Buffer.tabRun, htab, huse, hblanks]

namespace Indent

/-- Only the text of a line behind its indentation says where the line belongs. -/
theorem Columns.column_append {blanks : List Char} (hblank : Text.AllBlank blanks) (columns : Columns)
    (line : List Char) : columns.column (blanks ++ line.dropWhile Text.isBlank) = columns.column line := by
  have hcontent : (blanks ++ line.dropWhile Text.isBlank).dropWhile Text.isBlank = line.dropWhile Text.isBlank := by
    rw [List.dropWhile_append_of_pos hblank, List.dropWhile_idempotent]
  rw [column, placement, hcontent]
  rfl

/-- A line with the indentation that belongs to it in a buffer, or why there is none. -/
def Columns.reindented (columns : Columns) (b : Buffer) (line : List Char) : Except EditError (List Char) :=
  (b.indentString (columns.column line)).map (· ++ line.dropWhile Text.isBlank)

variable {columns : Columns} {b : Buffer} {line new : List Char}

theorem Columns.reindented_of_layout {b' : Buffer} (hlayout : b'.layout = b.layout) :
    columns.reindented b' = columns.reindented b := by
  funext line
  rw [reindented, Buffer.indentString_of_layout hlayout, reindented]

theorem Columns.reindented_eq_ok (hnew : columns.reindented b line = .ok new) :
    ∃ blanks, b.indentString (columns.column line) = .ok blanks ∧ new = blanks ++ line.dropWhile Text.isBlank := by
  rw [reindented] at hnew
  cases hblanks : b.indentString (columns.column line) with
  | error e =>
    rw [hblanks] at hnew
    cases hnew
  | ok blanks =>
    rw [hblanks] at hnew
    exact ⟨blanks, rfl, (Except.ok.inj hnew).symm⟩

theorem Columns.reindented_eq_error {e : EditError} (herror : columns.reindented b line = .error e) :
    b.indentString (columns.column line) = .error e := by
  rw [reindented] at herror
  cases hblanks : b.indentString (columns.column line) with
  | error e' =>
    rw [hblanks] at herror
    exact congrArg _ (Except.error.inj herror)
  | ok blanks =>
    rw [hblanks] at herror
    cases herror

/-- A line that has the indentation that belongs to it keeps it. -/
theorem Columns.reindented_idempotent (hnew : columns.reindented b line = .ok new) :
    columns.reindented b new = .ok new := by
  obtain ⟨blanks, hblanks, rfl⟩ := reindented_eq_ok hnew
  have hblank := (Buffer.indentString_blank hblanks).1
  rw [reindented, column_append hblank, hblanks, List.dropWhile_append_of_pos hblank, List.dropWhile_idempotent]
  rfl

theorem Columns.reindented_ne_nil (hsound : columns.Sound) (hnew : columns.reindented b line = .ok new) :
    new ≠ [] := by
  obtain ⟨blanks, hblanks, rfl⟩ := reindented_eq_ok hnew
  intro hnone
  obtain ⟨hempty, hcontent⟩ := List.append_eq_nil_iff.mp hnone
  rw [column_of_allBlank hsound.marker (List.dropWhile_eq_nil_iff.mp hcontent)] at hblanks
  exact (Buffer.indentString_blank hblanks).2 hsound.code hempty

end Indent

namespace Indenter

section

variable {indenter : Indenter} {columns : Indent.Columns} {b : Buffer} {ending : List Char}
  {front rear : List (List Char)} {line : List Char}

/-- A line that is reindented keeps its text behind other blanks. -/
theorem reindentLine_uniform (huniform : b.Uniform ending (front ++ line :: rear)) {column : Int}
    (hcolumn : indenter.findColumn b front.length = .ok (some column)) {blanks : List Char}
    (hblanks : b.indentString column = .ok blanks) :
    ∃ b', (indenter.reindentLine front.length).effect b =
        (.ok (caretAfter (leading ending front).length
          ((leading ending front).length + (line.takeWhile Text.isBlank).length : Nat)
          ((leading ending front).length + blanks.length : Nat) b.caret), b') ∧
      b'.Uniform ending (front ++ (blanks ++ line.dropWhile Text.isBlank) :: rear) ∧ b'.layout = b.layout := by
  have hblank := (Buffer.indentString_blank hblanks).1
  have hsplit : line = [] ++ line.takeWhile Text.isBlank ++ line.dropWhile Text.isBlank :=
    List.takeWhile_append_dropWhile.symm
  have hparts := huniform
  rw [hsplit] at hparts
  have hedited := hparts.replaceRange hblank.unbroken
  rw [List.append_nil, List.nil_append] at hedited
  have hnew := hedited.indentEnd_eq
  rw [Text.takeWhile_append_dropWhile_isBlank hblank] at hnew
  exact ⟨_, reindentLine_effect_of_ok huniform.lineStart_eq huniform.indentEnd_eq hcolumn hblanks hnew, hedited,
    b.replaceRange_layout ..⟩

theorem findColumn_uniform (columns : Indent.Columns) (huniform : b.Uniform ending (front ++ line :: rear)) :
    findColumn (.listing columns) b front.length = .ok (some (columns.column line)) := by
  rw [findColumn, huniform.lineText_eq]
  rfl

theorem reindentLine_uniform_of_error (huniform : b.Uniform ending (front ++ line :: rear)) {e : EditError}
    (hblanks : b.indentString (columns.column line) = .error e) :
    (reindentLine (.listing columns) front.length).effect b = (.error e, b) :=
  reindentLine_effect_of_error huniform.lineStart_eq huniform.indentEnd_eq (findColumn_uniform columns huniform)
    hblanks

theorem reindentLine_uniform_of_ok (huniform : b.Uniform ending (front ++ line :: rear)) {blanks : List Char}
    (hblanks : b.indentString (columns.column line) = .ok blanks) :
    ∃ b', (reindentLine (.listing columns) front.length).effect b =
        (.ok (caretAfter (leading ending front).length
          ((leading ending front).length + (line.takeWhile Text.isBlank).length : Nat)
          ((leading ending front).length + blanks.length : Nat) b.caret), b') ∧
      b'.Uniform ending (front ++ (blanks ++ line.dropWhile Text.isBlank) :: rear) ∧ b'.layout = b.layout :=
  reindentLine_uniform huniform (findColumn_uniform columns huniform) hblanks

end

end Indenter

end ListingEditor
