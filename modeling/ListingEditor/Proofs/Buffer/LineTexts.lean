import ListingEditor.Proofs.Buffer.Rows

/-!
A buffer as the list of its lines. A place in a line, or at its end, belongs to that line, and the place in front of a
line to the line before. The caret cuts its line in two.
-/

namespace ListingEditor.Buffer

/-- The lines of a buffer, each without its return. -/
def lineTexts (b : Buffer) : List (List Char) :=
  (lineStarts b.text).map fun start : Nat => b.range start (b.endOfLineAt start)

theorem length_lineTexts (b : Buffer) : b.lineTexts.length = b.lineCount := List.length_map ..

theorem lineTexts_of_text {b b' : Buffer} (htext : b'.text = b.text) : b'.lineTexts = b.lineTexts := by
  simp only [lineTexts, range, endOfLineAt, htext]

theorem lineText_natCast (b : Buffer) (line : Nat) : b.lineText line = .ok (b.lineTexts[line]?.getD []) := by
  rw [lineText, lineStart_natCast, lineTexts, List.getElem?_map]
  cases (lineStarts b.text)[line]? with
  | some start => rfl
  | none => exact congrArg Except.ok (range_endOfLineAt (List.append_nil b.text).symm)

variable {b : Buffer}

theorem Rows.lineTexts_eq {rows : List (List Char)} (hrows : Rows rows) (htext : b.text = rows.flatten) :
    b.lineTexts = rows.map rowText := by
  have hlength : b.lineTexts.length = (rows.map rowText).length := by
    rw [length_lineTexts, lineCount, htext, hrows.lineStarts_eq, rowStarts_length, List.length_map]
  refine List.ext_getElem hlength fun line hline hrow => ?_
  have hsame := (b.lineText_natCast line).symm.trans (hrows.lineText_eq htext line)
  rw [← List.getElem?_map, List.getElem?_eq_getElem hline, List.getElem?_eq_getElem hrow] at hsame
  exact Except.ok.inj hsame

/-- A line of a buffer as a row. -/
theorem exists_row {line : Nat} (hline : line < b.lineCount) :
    ∃ front row rear, front.length = line ∧ Rows (front ++ row :: rear) ∧ b.text = (front ++ row :: rear).flatten := by
  obtain ⟨rows, hrows, htext⟩ := exists_rows b.text
  rw [lineCount, htext, hrows.lineStarts_eq, rowStarts_length] at hline
  have hparts : rows.take line ++ rows[line] :: rows.drop (line + 1) = rows := by
    rw [← List.drop_eq_getElem_cons hline, List.take_append_drop]
  refine ⟨rows.take line, rows[line], rows.drop (line + 1), ?_, hparts.symm ▸ hrows, hparts.symm ▸ htext⟩
  rw [List.length_take]
  omega

section

variable {front rear : List (List Char)} {row : List Char}

/-- A row that another one follows has a return. -/
theorem Rows.length_rowText_lt (hrows : Rows (row :: rear)) (hne : rear ≠ []) : (rowText row).length < row.length := by
  obtain ⟨body, ending, rfl, hbody, hending, -, -⟩ := hrows.uncons hne
  have htext := rowText_append_ending hbody hending []
  rw [List.append_nil] at htext
  rw [htext, List.length_append]
  exact Nat.lt_add_of_pos_right (List.length_pos_of_ne_nil hending.ne_nil)

theorem Rows.lineText_row (hrows : Rows (front ++ row :: rear)) (htext : b.text = (front ++ row :: rear).flatten) :
    b.lineText front.length = .ok (rowText row) := by
  rw [hrows.lineText_eq htext, List.getElem?_append_right (Nat.le_refl _), Nat.sub_self]
  rfl

theorem Rows.lineOf_column (hrows : Rows (front ++ row :: rear)) (htext : b.text = (front ++ row :: rear).flatten)
    {column : Nat} (hcolumn : column ≤ (rowText row).length) :
    b.lineOf (front.flatten.length + column : Nat) = front.length := by
  refine hrows.lineOf_of_le htext (Nat.le_add_right ..) ?_
  by_cases hlast : rear = []
  · exact .inl hlast
  · have hlt := (hrows.of_append (List.cons_ne_nil _ _)).length_rowText_lt hlast
    exact .inr (by omega)

theorem Rows.lineOf_start (hrows : Rows (front ++ row :: rear)) (htext : b.text = (front ++ row :: rear).flatten) :
    b.lineOf front.flatten.length = front.length := hrows.lineOf_column htext (Nat.zero_le _)

theorem Rows.lineOf_lt_iff (hrows : Rows (front ++ row :: rear)) (htext : b.text = (front ++ row :: rear).flatten)
    (place : Int) : b.lineOf place < front.length ↔ place < front.flatten.length := by
  constructor
  · intro hbefore
    by_contra hbehind
    have hle := b.lineOf_le_lineOf (Int.not_lt.mp hbehind)
    rw [hrows.lineOf_start htext] at hle
    omega
  · intro hbefore
    have hfront := (rowStarts 0 front).countP_le_length (p := fun start : Nat => (start : Int) ≤ place)
    have hnone : (rowStarts (0 + front.flatten.length) (row :: rear)).countP
        (fun start : Nat => (start : Int) ≤ place) = 0 := by
      rw [List.countP_eq_zero]
      intro start hmem
      have hbounds := le_of_mem_rowStarts hmem
      simp only [decide_eq_true_eq]
      omega
    rw [rowStarts_length] at hfront
    rw [lineOf, htext, hrows.lineStarts_eq, rowStarts_append, List.countP_append, hnone]
    omega

/-- A place that belongs to a row lies in front of the next one. -/
theorem Rows.lt_of_lineOf_eq (hrows : Rows (front ++ row :: rear)) (htext : b.text = (front ++ row :: rear).flatten)
    {place : Int} (hof : b.lineOf place = front.length) :
    rear = [] ∨ place < front.flatten.length + row.length := by
  cases rear with
  | nil => exact .inl rfl
  | cons next rear =>
    have hrows' : Rows ((front ++ [row]) ++ next :: rear) := by rwa [List.append_assoc]
    have htext' : b.text = ((front ++ [row]) ++ next :: rear).flatten := by rwa [List.append_assoc]
    have hbefore : b.lineOf place < (front ++ [row]).length := by
      rw [hof, List.length_append]
      exact Int.lt_succ _
    rw [hrows'.lineOf_lt_iff htext', List.flatten_append, List.flatten_singleton, List.length_append] at hbefore
    exact .inr hbefore

theorem Rows.lineOf_pred_start (hrows : Rows (front ++ row :: rear)) (htext : b.text = (front ++ row :: rear).flatten)
    (hne : front ≠ []) : b.lineOf ((front.flatten.length : Int) - 1) + 1 = front.length := by
  obtain ⟨init, previous, rfl⟩ := (List.eq_nil_or_concat front).resolve_left hne
  rw [List.concat_eq_append, List.append_assoc, List.singleton_append] at hrows htext
  have hpositive := (hrows.of_append (List.cons_ne_nil _ _)).length_rowText_lt (List.cons_ne_nil _ _)
  have hplace : (((init.concat previous).flatten.length : Int) - 1) =
      (init.flatten.length + (previous.length - 1) : Nat) := by
    rw [List.concat_eq_append, List.flatten_append, List.flatten_singleton, List.length_append]
    omega
  rw [hplace, hrows.lineOf_eq htext (Nat.le_add_right ..) (by omega), List.length_concat]
  rfl

end

theorem lineOf_lineEnd {line stop : Nat} (hline : line < b.lineCount) (hstop : b.lineEnd line = .ok stop) :
    b.lineOf stop = line := by
  obtain ⟨front, row, rear, rfl, hrows, htext⟩ := exists_row hline
  obtain rfl := Except.ok.inj (hstop.symm.trans (hrows.lineEnd_eq htext))
  exact hrows.lineOf_column htext (Nat.le_refl _)

/-- The caret's line, cut at the caret, among the rows around it. -/
structure Cut (b : Buffer) (front : List (List Char)) (before after : List Char) (rear : List (List Char)) : Prop where
  rows : Rows (front ++ (before ++ after) :: rear)
  text : b.text = (front ++ (before ++ after) :: rear).flatten
  caret : b.caret = (front.flatten ++ before).length
  current : b.currentLine = front.length

theorem exists_cut (hcaret : 0 ≤ b.caret ∧ b.caret ≤ b.text.length) :
    ∃ front before after rear, b.Cut front before after rear := by
  obtain ⟨line, start, hcurrent, hget, hstart, hle⟩ := b.lineStart_lineOf hcaret.1
  obtain ⟨front, row, rear, rfl, hrows, htext⟩ := exists_row (List.getElem?_eq_some_iff.mp hget).1
  obtain rfl := Except.ok.inj (hstart.symm.trans (hrows.lineStart_eq htext))
  obtain ⟨column, hcolumn⟩ := Int.le.dest hle
  have hinside : column ≤ row.length := by
    obtain rfl | hlt := hrows.lt_of_lineOf_eq htext hcurrent
    · have hlength := congrArg List.length htext
      rw [List.flatten_append, List.flatten_singleton, List.length_append] at hlength
      omega
    · omega
  have hparts : row.take column ++ row.drop column = row := List.take_append_drop ..
  refine ⟨front, row.take column, row.drop column, rear, hparts.symm ▸ hrows, hparts.symm ▸ htext, ?_, hcurrent⟩
  rw [List.length_append, List.length_take_of_le hinside]
  omega

section

variable {front rear : List (List Char)} {before after : List Char}

theorem Cut.text_eq (hcut : b.Cut front before after rear) :
    b.text = front.flatten ++ before ++ (after ++ rear.flatten) := by
  rw [hcut.text, List.flatten_append, List.flatten_cons]
  simp only [List.append_assoc]

theorem Cut.caret_bounds (hcut : b.Cut front before after rear) :
    front.flatten.length ≤ b.caret ∧ b.caret ≤ b.text.length := by
  have hlength := congrArg List.length hcut.text_eq
  rw [List.length_append] at hlength
  have hcaret := hcut.caret
  have hbefore : front.flatten.length ≤ (front.flatten ++ before).length := (List.prefix_append ..).length_le
  omega

theorem Cut.lineStart_eq (hcut : b.Cut front before after rear) :
    b.lineStart b.currentLine = .ok front.flatten.length := by
  rw [hcut.current, hcut.rows.lineStart_eq hcut.text]

theorem Cut.range_eq (hcut : b.Cut front before after rear) : b.range front.flatten.length b.caret = before := by
  rw [hcut.caret, List.length_append]
  exact b.range_middle hcut.text_eq

theorem Cut.lineTexts_eq (hcut : b.Cut front before after rear) :
    b.lineTexts = front.map rowText ++ rowText (before ++ after) :: rear.map rowText := by
  rw [hcut.rows.lineTexts_eq hcut.text, List.map_append, List.map_cons]

end

end ListingEditor.Buffer
