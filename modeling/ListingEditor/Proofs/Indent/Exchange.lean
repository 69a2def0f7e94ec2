import ListingEditor.Proofs.Buffer.Editing
import ListingEditor.Proofs.Buffer.LineTexts
import ListingEditor.Proofs.Buffer.Measure
import ListingEditor.Proofs.Indent.Keys
import ListingEditor.Proofs.Indent.Lines

/-!
Reindenting one line of any text, whatever its lines end with. The blanks at the start of the line are exchanged and
nothing else, the line keeps its number, and to do it once more changes nothing.
-/

namespace ListingEditor

open Text (AllBlank SplitsBreak isBlank)
open Buffer (Rows Unbroken rowText)

instance (text : List Char) : Decidable (AllBlank text) := List.decidableBAll (isBlank · = true) text

theorem Text.takeWhile_dropWhile (kind : Char → Bool) (text : List Char) :
    (text.dropWhile kind).takeWhile kind = [] := by
  rw [List.takeWhile_eq_nil_iff]
  intro hpositive
  exact List.dropWhile_get_zero_not _ _ hpositive

namespace Buffer

/-- A line of a buffer, behind the rows in front of it: its indentation, and what comes then, up to the next line. -/
structure Indented (b : Buffer) (front : List (List Char)) (indent rest : List Char) (rear : List (List Char)) :
    Prop where
  rows : Rows (front ++ (indent ++ rest) :: rear)
  text : b.text = (front ++ (indent ++ rest) :: rear).flatten
  blank : AllBlank indent
  content : rest.takeWhile isBlank = []

theorem exists_indented {b : Buffer} {line : Nat} (hline : line < b.lineCount) :
    ∃ front indent rest rear, front.length = line ∧ b.Indented front indent rest rear := by
  obtain ⟨rows, hrows, htext⟩ := exists_rows b.text
  rw [lineCount, htext, hrows.lineStarts_eq, rowStarts_length] at hline
  have hparts : rows.take line ++ (rows[line].takeWhile isBlank ++ rows[line].dropWhile isBlank) ::
      rows.drop (line + 1) = rows := by
    rw [List.takeWhile_append_dropWhile, ← List.drop_eq_getElem_cons hline, List.take_append_drop]
  refine ⟨rows.take line, rows[line].takeWhile isBlank, rows[line].dropWhile isBlank, rows.drop (line + 1), ?_,
    hparts.symm ▸ hrows, hparts.symm ▸ htext, Text.takeWhile_allBlank _, Text.takeWhile_dropWhile _ _⟩
  rw [List.length_take]
  omega

section Indented

variable {b : Buffer} {front rear : List (List Char)} {indent rest : List Char}

theorem Indented.of_text {b' : Buffer} (hline : b.Indented front indent rest rear) (htext : b'.text = b.text) :
    b'.Indented front indent rest rear :=
  ⟨hline.rows, htext.trans hline.text, hline.blank, hline.content⟩

/-- The text in three parts: up to the line, its indentation, and what comes then. -/
theorem Indented.text_eq (hline : b.Indented front indent rest rear) :
    b.text = front.flatten ++ indent ++ (rest ++ rear.flatten) := by
  rw [hline.text, List.flatten_append, List.flatten_cons]
  simp only [List.append_assoc]

theorem Indented.lineStart_eq (hline : b.Indented front indent rest rear) :
    b.lineStart front.length = .ok front.flatten.length := hline.rows.lineStart_eq hline.text

theorem Indented.lineText_eq (hline : b.Indented front indent rest rear) :
    b.lineText front.length = .ok (indent ++ rowText rest) := by
  rw [hline.rows.lineText_eq hline.text, List.getElem?_append_right (Nat.le_refl _), Nat.sub_self,
    List.getElem?_cons_zero, Option.map_some, Option.getD_some, rowText_append hline.blank.unbroken]

theorem Indented.lineTexts_eq (hline : b.Indented front indent rest rear) :
    b.lineTexts = front.map rowText ++ (indent ++ rowText rest) :: rear.map rowText := by
  rw [hline.rows.lineTexts_eq hline.text, List.map_append, List.map_cons, rowText_append hline.blank.unbroken]

theorem Indented.rowText_takeWhile (hline : b.Indented front indent rest rear) :
    (rowText rest).takeWhile isBlank = [] := by
  have hcontent := hline.content
  cases rest with
  | nil => rfl
  | cons c rest =>
    have hc : ¬ isBlank c = true := by
      intro hblank
      rw [List.takeWhile_cons_of_pos hblank] at hcontent
      cases hcontent
    by_cases hreturn : Text.isReturn c = true
    · rw [rowText, List.takeWhile_cons_of_neg (by simp [hreturn]), List.takeWhile_nil]
    · rw [rowText, List.takeWhile_cons_of_pos (by simp [hreturn]), List.takeWhile_cons_of_neg hc]

theorem Indented.takeWhile_eq (hline : b.Indented front indent rest rear) :
    (indent ++ rowText rest).takeWhile isBlank = indent := by
  rw [List.takeWhile_append_of_pos hline.blank, hline.rowText_takeWhile, List.append_nil]

theorem Indented.indentEnd_eq (hline : b.Indented front indent rest rear) :
    b.indentEnd front.length = .ok (front.flatten.length + indent.length) := by
  have hstart := hline.lineStart_eq
  have htext := hline.lineText_eq
  rw [lineText, hstart] at htext
  rw [indentEnd, hstart]
  refine (congrArg (fun text => Except.ok (front.flatten.length + (text.takeWhile isBlank).length))
    (Except.ok.inj htext)).trans ?_
  rw [hline.takeWhile_eq]

/-- A row that another one follows goes on behind its indentation. -/
theorem Indented.rest_ne_nil (hline : b.Indented front indent rest rear) (hrear : rear ≠ []) : rest ≠ [] := by
  rintro rfl
  obtain ⟨body, ending, hrow, hbody, hending, -, -⟩ := (hline.rows.of_append (List.cons_ne_nil _ _)).uncons hrear
  have hindent := rowText_append hline.blank.unbroken []
  have hbodyText := rowText_append_ending hbody hending []
  rw [List.append_nil, ← hrow, hindent] at hbodyText
  have hwhole : indent ++ [] = body := hbodyText
  rw [hwhole, List.self_eq_append_right] at hrow
  exact hending.ne_nil hrow

theorem Indented.lineOf_eq (hline : b.Indented front indent rest rear) {place : Nat}
    (hstart : front.flatten.length ≤ place)
    (hstop : rear = [] ∨ place < front.flatten.length + indent.length + rest.length) :
    b.lineOf place = front.length := by
  refine hline.rows.lineOf_of_le hline.text hstart (hstop.imp_right fun hlt => ?_)
  rwa [List.length_append, ← Nat.add_assoc]

/-- The width of a line's indentation. -/
theorem Indented.indentation_eq (hline : b.Indented front indent rest rear) :
    b.indentation front.length = columnBehind b.tabWidth indent := by
  have hinside : front.length < b.lineCount := by
    rw [← length_lineTexts, hline.lineTexts_eq, List.length_append, List.length_map, List.length_cons]
    omega
  rw [indentation_of_lineText hinside hline.lineText_eq, hline.takeWhile_eq]

/-- Exchanging the indentation of a line leaves the rest as it is, unless a line feed would come to stand behind the
line before. -/
theorem Indented.exchange (hline : b.Indented front indent rest rear) {blanks : List Char} (hblanks : AllBlank blanks)
    (hfeed : blanks = [] → rest.head? ≠ some '\n') :
    (b.replaceRange front.flatten.length (front.flatten.length + indent.length : Nat) blanks).Indented
      front blanks rest rear := by
  have hnew : Rows ((blanks ++ rest) :: rear) :=
    (hline.rows.of_append (List.cons_ne_nil _ _)).exchange_lead hline.blank.unbroken hblanks.unbroken
  have hhead : ((blanks ++ rest) :: rear).flatten.head? ≠ some '\n' := by
    cases blanks with
    | cons c blanks =>
      intro hc
      obtain rfl : c = '\n' := Option.some.inj hc
      cases hblanks '\n' List.mem_cons_self
    | nil =>
      have hrest := hfeed rfl
      cases hempty : rest with
      | cons c rest =>
        rw [hempty] at hrest
        exact hrest
      | nil =>
        obtain rfl : rear = [] := by
          by_contra hrear
          exact hline.rest_ne_nil hrear hempty
        exact nofun
  have hsplit : ¬ SplitsBreak front.flatten ((blanks ++ rest) :: rear).flatten := fun hsplits => hhead hsplits.2
  refine ⟨hline.rows.exchange_rear (List.cons_ne_nil _ _) hnew hsplit, ?_, hblanks, hline.content⟩
  rw [b.replaceRange_middle blanks hline.text_eq, List.flatten_append, List.flatten_cons]
  simp only [List.append_assoc]

/-- A place that belongs to a line lies in front of the next one. -/
theorem Indented.lt_of_lineOf_eq (hline : b.Indented front indent rest rear) {place : Int}
    (hof : b.lineOf place = front.length) :
    rear = [] ∨ place < front.flatten.length + indent.length + rest.length := by
  refine (hline.rows.lt_of_lineOf_eq hline.text hof).imp_right fun hlt => ?_
  rw [List.length_append] at hlt
  omega

end Indented

section Again

variable {start stop : Nat}

theorem erase_caret (b : Buffer) (hle : start ≤ stop) :
    (b.erase start stop).caret = positionAfterErase start stop b.caret ∧
      (b.erase start stop).anchor = positionAfterErase start stop b.anchor := by
  unfold erase positionAfterErase
  split
  · have heq : stop = start := by omega
    subst heq
    constructor <;> split <;> omega
  · exact ⟨rfl, rfl⟩

/-- A position that an exchange has moved stays where it is when the new text is exchanged for itself. -/
theorem positionAfterInsert_again (start stop count : Nat) (p : Int) :
    let q := positionAfterInsert start count (positionAfterErase start stop p)
    positionAfterInsert start count (positionAfterErase start (start + count : Nat) q) = q := by
  simp only [positionAfterInsert, positionAfterErase]
  split <;> split <;> (try split) <;> omega

theorem replaceRange_caret (b : Buffer) (hle : start ≤ stop) (text : List Char) :
    (b.replaceRange start stop text).caret =
        positionAfterInsert start text.length (positionAfterErase start stop b.caret) ∧
      (b.replaceRange start stop text).anchor =
        positionAfterInsert start text.length (positionAfterErase start stop b.anchor) := by
  obtain ⟨hcaret, hanchor⟩ := b.erase_caret hle
  rw [← hcaret, ← hanchor]
  exact ⟨rfl, rfl⟩

theorem replaceRange_endStyled (b : Buffer) (start stop : Nat) (text : List Char) :
    (b.replaceRange start stop text).endStyled = min b.endStyled start := by
  change min (b.erase start stop).endStyled start = _
  unfold erase
  split
  · rfl
  · change min (min b.endStyled (start : Int)) start = _
    omega

theorem replaceRange_styles (b : Buffer) (hle : start ≤ stop) (hstart : start ≤ b.styles.length) (text : List Char) :
    (b.replaceRange start stop text).styles =
      b.styles.take start ++ List.replicate text.length 0 ++ b.styles.drop stop := by
  have hlength : (b.styles.take start).length = start := by
    rw [List.length_take]
    omega
  rw [replaceRange, insert_styles, erase_styles b hle, List.take_left' hlength, List.drop_left' hlength]

attribute [ext] Buffer

section

variable {b : Buffer} {front middle rest : List Char}

theorem replaceRange_again_position (b : Buffer) (front middle new : List Char) :
    let b' := b.replaceRange front.length (front.length + middle.length : Nat) new
    (b'.replaceRange front.length (front.length + new.length : Nat) new).caret = b'.caret ∧
      (b'.replaceRange front.length (front.length + new.length : Nat) new).anchor = b'.anchor := by
  intro b'
  obtain ⟨hcaret, hanchor⟩ := b.replaceRange_caret (Nat.le_add_right front.length middle.length) new
  obtain ⟨hagain, hagain'⟩ := b'.replaceRange_caret (Nat.le_add_right front.length new.length) new
  rw [hagain, hagain', hcaret, hanchor]
  exact ⟨positionAfterInsert_again .., positionAfterInsert_again ..⟩

/-- Exchanging a text for itself, where it has just been put in, changes nothing. -/
theorem replaceRange_again (htext : b.text = front ++ middle ++ rest) (hstyles : b.styles.length = b.text.length)
    (new : List Char) :
    let b' := b.replaceRange front.length (front.length + middle.length : Nat) new
    b'.replaceRange front.length (front.length + new.length : Nat) new = b' := by
  intro b'
  have hmiddle := Nat.le_add_right front.length middle.length
  have hnew := Nat.le_add_right front.length new.length
  have hfront : front.length ≤ b.styles.length := by
    rw [hstyles, htext, List.length_append, List.length_append]
    omega
  have hedited : b'.text = front ++ new ++ rest := b.replaceRange_middle new htext
  have hpainted : b'.styles =
      b.styles.take front.length ++ List.replicate new.length 0 ++ b.styles.drop (front.length + middle.length) :=
    b.replaceRange_styles hmiddle hfront new
  have htaken : (b.styles.take front.length).length = front.length := by
    rw [List.length_take]
    omega
  obtain ⟨hcaret, hanchor⟩ := b.replaceRange_again_position front middle new
  obtain ⟨htab, huse, hmode, hmemory⟩ := layout_eq_iff.mp
    (b'.replaceRange_layout front.length (front.length + new.length : Nat) new)
  apply Buffer.ext
  · rw [b'.replaceRange_middle new hedited, hedited]
  · exact hcaret
  · exact hanchor
  · have hinside : front.length ≤ b'.styles.length := by
      rw [hpainted, List.append_assoc, List.length_append]
      omega
    have hbefore : b'.styles.take front.length = b.styles.take front.length := by
      rw [hpainted, List.append_assoc, List.take_left' htaken]
    have hbehind : b'.styles.drop (front.length + new.length) = b.styles.drop (front.length + middle.length) := by
      rw [hpainted]
      exact List.drop_left' (by rw [List.length_append, htaken, List.length_replicate])
    rw [b'.replaceRange_styles hnew hinside, hbefore, hbehind, hpainted]
  · rw [b'.replaceRange_endStyled, b.replaceRange_endStyled]
    omega
  · exact htab
  · exact huse
  · exact hmode
  · exact hmemory
  · exact (b'.erase_undo ..).1
  · exact (b'.erase_undo ..).2

end

end Again

end Buffer

end ListingEditor
