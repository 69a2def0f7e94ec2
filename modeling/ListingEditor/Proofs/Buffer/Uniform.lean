import ListingEditor.Proofs.Buffer.Rows

/-!
Buffers whose lines all end alike. Such a buffer is given by its lines, and an edit inside a line is one of that line.
-/

namespace ListingEditor.Buffer

open Text (SplitsBreak)

/-- The lines of a buffer, which have one ending between each two of them. -/
structure Uniform (b : Buffer) (ending : List Char) (lines : List (List Char)) : Prop where
  text : b.text = ending.intercalate lines
  nonempty : lines ≠ []
  isEnding : IsEnding ending
  unbroken : ∀ line ∈ lines, Unbroken line

/-- The text in front of a line. -/
def leading (ending : List Char) (lines : List (List Char)) : List Char := lines.flatMap (· ++ ending)

/-- The text behind a line. -/
def trailing (ending : List Char) (lines : List (List Char)) : List Char := lines.flatMap (ending ++ ·)

/-- The rows of lines that end alike. -/
def rowsOf (ending : List Char) : List (List Char) → List (List Char)
  | [] => []
  | [line] => [line]
  | line :: next :: lines => (line ++ ending) :: rowsOf ending (next :: lines)

variable {ending : List Char}

theorem leading_cons (line : List Char) (lines : List (List Char)) :
    leading ending (line :: lines) = line ++ ending ++ leading ending lines := List.flatMap_cons

theorem leading_concat (lines : List (List Char)) (line : List Char) :
    leading ending (lines ++ [line]) = leading ending lines ++ line ++ ending := by
  rw [leading, List.flatMap_append, List.flatMap_singleton, ← List.append_assoc, leading]

theorem trailing_cons (line : List Char) (lines : List (List Char)) :
    trailing ending (line :: lines) = ending ++ line ++ trailing ending lines := List.flatMap_cons

theorem intercalate_cons (line : List Char) (rear : List (List Char)) :
    ending.intercalate (line :: rear) = line ++ trailing ending rear := by
  induction rear generalizing line with
  | nil => rw [List.intercalate_singleton, trailing, List.flatMap_nil, List.append_nil]
  | cons next rear ih =>
    rw [List.intercalate_cons_cons, ih, trailing_cons]
    simp only [List.append_assoc]

/-- A line stands between the text in front of it and the text behind it. -/
theorem intercalate_split (front : List (List Char)) (line : List Char) (rear : List (List Char)) :
    ending.intercalate (front ++ line :: rear) = leading ending front ++ line ++ trailing ending rear := by
  induction front with
  | nil => exact intercalate_cons line rear
  | cons first front ih =>
    rw [List.cons_append, List.intercalate_cons_of_ne_nil (by simp), ih, leading_cons]
    simp only [List.append_assoc]

theorem rowsOf_flatten (lines : List (List Char)) : (rowsOf ending lines).flatten = ending.intercalate lines := by
  fun_induction rowsOf ending lines with
  | case1 => rfl
  | case2 line => rw [List.intercalate_singleton, List.flatten_cons, List.flatten_nil, List.append_nil]
  | case3 line next lines ih => rw [List.flatten_cons, ih, List.intercalate_cons_cons]

/-- An ending does not fuse with what stands behind it. -/
theorem IsEnding.not_splitsBreak (hending : IsEnding ending) {line : List Char} (hline : Unbroken line)
    (rear : List (List Char)) : ¬ SplitsBreak ending (ending.intercalate (line :: rear)) := by
  rw [intercalate_cons]
  rintro ⟨hlast, hhead⟩
  cases hending with
  | pair => simp at hlast
  | single hreturn =>
    rw [List.getLast?_singleton, Option.some.injEq] at hlast
    subst hlast
    cases line with
    | cons c line =>
      rw [List.cons_append, List.head?_cons, Option.some.injEq] at hhead
      subst hhead
      cases hline '\n' List.mem_cons_self
    | nil =>
      cases rear with
      | nil => cases hhead
      | cons next rear => cases hhead

theorem rows_rowsOf (hending : IsEnding ending) {lines : List (List Char)} (hne : lines ≠ [])
    (hunbroken : ∀ line ∈ lines, Unbroken line) : Rows (rowsOf ending lines) := by
  fun_induction rowsOf ending lines with
  | case1 => exact absurd rfl hne
  | case2 line => exact .last (hunbroken line List.mem_cons_self)
  | case3 line next lines ih =>
    obtain ⟨hline, hrest⟩ := List.forall_mem_cons.mp hunbroken
    refine .cons hline hending ?_ (ih (List.cons_ne_nil _ _) hrest)
    rw [rowsOf_flatten]
    exact hending.not_splitsBreak (hrest next List.mem_cons_self) lines

theorem rowsOf_append_cons (front : List (List Char)) (line : List Char) (rear : List (List Char)) :
    rowsOf ending (front ++ line :: rear) = front.map (· ++ ending) ++ rowsOf ending (line :: rear) := by
  induction front with
  | nil => rfl
  | cons first front ih =>
    cases front with
    | nil => rfl
    | cons second front => exact congrArg _ ih

theorem rowsOf_length (lines : List (List Char)) : (rowsOf ending lines).length = lines.length := by
  fun_induction rowsOf ending lines with
  | case1 => rfl
  | case2 line => rfl
  | case3 line next lines ih => exact congrArg (· + 1) ih

section

variable {b : Buffer} {front rear : List (List Char)} {line : List Char}

theorem Uniform.lineCount_eq {lines : List (List Char)} (huniform : b.Uniform ending lines) :
    b.lineCount = lines.length := by
  have hrows := rows_rowsOf huniform.isEnding huniform.nonempty huniform.unbroken
  rw [lineCount, huniform.text, ← rowsOf_flatten, hrows.lineStarts_eq, rowStarts_length, rowsOf_length]

theorem Uniform.of_text {b' : Buffer} {lines : List (List Char)} (huniform : b.Uniform ending lines)
    (htext : b'.text = b.text) : b'.Uniform ending lines :=
  ⟨htext.trans huniform.text, huniform.nonempty, huniform.isEnding, huniform.unbroken⟩

/-- The row of a line. -/
theorem Uniform.exists_row (huniform : b.Uniform ending (front ++ line :: rear)) :
    ∃ row rows, Rows (front.map (· ++ ending) ++ row :: rows) ∧
      b.text = (front.map (· ++ ending) ++ row :: rows).flatten ∧ rowText row = line ∧
      (rear = [] → rows = []) ∧ (rear ≠ [] → row.length = line.length + ending.length) := by
  have hrows := rows_rowsOf huniform.isEnding huniform.nonempty huniform.unbroken
  have hline : Unbroken line := huniform.unbroken line (by simp)
  have htext := huniform.text
  rw [← rowsOf_flatten] at htext
  rw [rowsOf_append_cons] at hrows htext
  cases rear with
  | nil =>
    have hrow := rowText_append hline []
    rw [List.append_nil] at hrow
    exact ⟨line, [], hrows, htext, hrow.trans (List.append_nil line), fun _ => rfl, fun hne => absurd rfl hne⟩
  | cons next rear =>
    have hrow := rowText_append_ending hline huniform.isEnding []
    rw [List.append_nil] at hrow
    exact ⟨line ++ ending, rowsOf ending (next :: rear), hrows, htext, hrow, nofun, fun _ => List.length_append⟩

theorem flatten_map_append (lines : List (List Char)) :
    (lines.map (· ++ ending)).flatten = leading ending lines := (List.flatMap_def ..).symm

theorem Uniform.lineStart_eq (huniform : b.Uniform ending (front ++ line :: rear)) :
    b.lineStart front.length = .ok (leading ending front).length := by
  obtain ⟨row, rows, hrows, htext, -⟩ := huniform.exists_row
  have hstart := hrows.lineStart_eq htext
  rwa [List.length_map, flatten_map_append] at hstart

theorem Uniform.lineEnd_eq (huniform : b.Uniform ending (front ++ line :: rear)) :
    b.lineEnd front.length = .ok ((leading ending front).length + line.length) := by
  obtain ⟨row, rows, hrows, htext, hrow, -⟩ := huniform.exists_row
  have hstop := hrows.lineEnd_eq htext
  rwa [List.length_map, flatten_map_append, hrow] at hstop

theorem Uniform.lineText_eq (huniform : b.Uniform ending (front ++ line :: rear)) :
    b.lineText front.length = .ok line := by
  obtain ⟨row, rows, hrows, htext, hrow, -⟩ := huniform.exists_row
  have hline := hrows.lineText_eq htext front.length
  rw [List.getElem?_append_right (by rw [List.length_map]), List.length_map, Nat.sub_self] at hline
  exact hline.trans (congrArg _ hrow)

theorem Uniform.indentEnd_eq (huniform : b.Uniform ending (front ++ line :: rear)) :
    b.indentEnd front.length =
      .ok ((leading ending front).length + (line.takeWhile Text.isBlank).length) := by
  have hstart := huniform.lineStart_eq
  have hline := huniform.lineText_eq
  rw [lineText, hstart] at hline
  rw [indentEnd, hstart]
  exact congrArg (fun text => Except.ok ((leading ending front).length + (text.takeWhile Text.isBlank).length))
    (Except.ok.inj hline)

/-- A place belongs to a line from its start to the end of its ending. The last line has no end. -/
theorem Uniform.lineOf_eq (huniform : b.Uniform ending (front ++ line :: rear)) {place : Nat}
    (hstart : (leading ending front).length ≤ place)
    (hstop : rear = [] ∨ place < (leading ending front).length + line.length + ending.length) :
    b.lineOf place = front.length := by
  obtain ⟨row, rows, hrows, htext, -, hlast, hlength⟩ := huniform.exists_row
  rw [← flatten_map_append] at hstart hstop
  have hline := hrows.lineOf_of_le htext hstart
  rw [List.length_map] at hline
  apply hline
  by_cases hend : rear = []
  · exact .inl (hlast hend)
  · rw [hlength hend, ← Nat.add_assoc]
    exact .inr (hstop.resolve_left hend)

theorem Uniform.lineOf_column (huniform : b.Uniform ending (front ++ line :: rear)) {column : Nat}
    (hcolumn : column ≤ line.length) :
    b.lineOf ((leading ending front).length + column : Nat) = front.length := by
  have hpositive : 0 < ending.length := List.length_pos_of_ne_nil huniform.isEnding.ne_nil
  exact huniform.lineOf_eq (Nat.le_add_right ..) (.inr (by omega))

theorem Uniform.lineOf_start (huniform : b.Uniform ending (front ++ line :: rear)) :
    b.lineOf (leading ending front).length = front.length := by
  have hcolumn := huniform.lineOf_column (Nat.zero_le line.length)
  rwa [Nat.add_zero] at hcolumn

/-- Lines are counted up to the one that holds a place. -/
theorem Uniform.lineOf_eq_iff (huniform : b.Uniform ending (front ++ line :: rear)) {place : Nat}
    (hstart : (leading ending front).length ≤ place) :
    front.length ≤ b.lineOf place ∧
      (b.lineOf place = front.length ↔
        rear = [] ∨ place < (leading ending front).length + line.length + ending.length) := by
  have hfirst := huniform.lineOf_start
  have hle := b.lineOf_le_lineOf (Int.ofNat_le.mpr hstart)
  refine ⟨by omega, fun hline => ?_, fun hstop => huniform.lineOf_eq hstart hstop⟩
  by_contra hbehind
  rw [not_or, Nat.not_lt] at hbehind
  obtain ⟨next, rear, rfl⟩ := List.exists_cons_of_ne_nil hbehind.1
  rw [← List.singleton_append, ← List.append_assoc] at huniform
  have hnext := huniform.lineOf_start
  have hreached : (leading ending (front ++ [line])).length ≤ place := by
    rw [leading_concat, List.length_append, List.length_append]
    exact hbehind.2
  have hlater := b.lineOf_le_lineOf (Int.ofNat_le.mpr hreached)
  rw [hnext, hline, List.length_append, List.length_singleton] at hlater
  omega

theorem exists_line_around (lines : List (List Char)) (hne : lines ≠ []) (place : Nat) :
    ∃ front line rear, lines = front ++ line :: rear ∧ (leading ending front).length ≤ place ∧
      (rear = [] ∨ place < (leading ending front).length + line.length + ending.length) := by
  induction lines generalizing place with
  | nil => exact absurd rfl hne
  | cons line rear ih =>
    by_cases hhere : rear = [] ∨ place < line.length + ending.length
    · refine ⟨[], line, rear, rfl, Nat.zero_le _, ?_⟩
      rwa [leading, List.flatMap_nil, List.length_nil, Nat.zero_add]
    · rw [not_or, Nat.not_lt] at hhere
      obtain ⟨front, next, rear, rfl, hstart, hstop⟩ := ih hhere.1 (place - (line.length + ending.length))
      refine ⟨line :: front, next, rear, rfl, ?_⟩
      rw [leading_cons, List.length_append, List.length_append]
      exact ⟨by omega, hstop.imp_right fun hlt => by omega⟩

/-- The line that holds a place. -/
theorem Uniform.exists_line {lines : List (List Char)} (huniform : b.Uniform ending lines) (place : Nat) :
    ∃ front line rear, lines = front ++ line :: rear ∧ (leading ending front).length ≤ place ∧
      (rear = [] ∨ place < (leading ending front).length + line.length + ending.length) ∧
      b.lineOf place = front.length := by
  obtain ⟨front, line, rear, rfl, hstart, hstop⟩ := exists_line_around lines huniform.nonempty place
  exact ⟨front, line, rear, rfl, hstart, hstop, huniform.lineOf_eq hstart hstop⟩

/-- Exchanging a line for others. -/
theorem Uniform.exchange {b' : Buffer} {lines : List (List Char)} (huniform : b.Uniform ending (front ++ line :: rear))
    (hne : lines ≠ []) (hlines : ∀ line ∈ lines, Unbroken line)
    (htext : b'.text = ending.intercalate (front ++ lines ++ rear)) : b'.Uniform ending (front ++ lines ++ rear) := by
  refine ⟨htext, by simp [hne], huniform.isEnding, fun line hline => ?_⟩
  rw [List.mem_append, List.mem_append] at hline
  obtain (hfront | hnew) | hrear := hline
  · exact huniform.unbroken line (List.mem_append_left _ hfront)
  · exact hlines line hnew
  · exact huniform.unbroken line (List.mem_append_right _ (List.mem_cons_of_mem _ hrear))

theorem Uniform.replaceRange {left middle right new : List Char}
    (huniform : b.Uniform ending (front ++ (left ++ middle ++ right) :: rear)) (hnew : Unbroken new) :
    (b.replaceRange (leading ending front ++ left).length
      ((leading ending front ++ left).length + middle.length : Nat) new).Uniform ending
        (front ++ (left ++ new ++ right) :: rear) := by
  have hold := huniform.unbroken (left ++ middle ++ right) (by simp)
  have hline : Unbroken (left ++ new ++ right) := by
    refine Unbroken.append (Unbroken.append ?_ hnew) ?_
    · exact fun c hc => hold c (by simp [hc])
    · exact fun c hc => hold c (by simp [hc])
  have htext : b.text = leading ending front ++ left ++ middle ++ (right ++ trailing ending rear) := by
    rw [huniform.text, intercalate_split]
    simp only [List.append_assoc]
  rw [← List.singleton_append, ← List.append_assoc]
  refine huniform.exchange (List.cons_ne_nil _ _) (by simpa using hline) ?_
  rw [b.replaceRange_middle new htext, List.append_assoc front, List.singleton_append, intercalate_split]
  simp only [List.append_assoc]

/-- An ending put into a line makes two of it. -/
theorem Uniform.insertEnding {left right : List Char}
    (huniform : b.Uniform ending (front ++ (left ++ right) :: rear)) :
    (b.replaceRange (leading ending front ++ left).length (leading ending front ++ left).length ending).Uniform ending
      (front ++ left :: right :: rear) := by
  have hold := huniform.unbroken (left ++ right) (by simp)
  have hlines : ∀ line ∈ [left, right], Unbroken line := by
    intro line hline c hc
    refine hold c (List.mem_append.mpr ?_)
    obtain rfl | rfl : line = left ∨ line = right := by simpa using hline
    · exact .inl hc
    · exact .inr hc
  have htext : b.text = leading ending front ++ left ++ [] ++ (right ++ trailing ending rear) := by
    rw [huniform.text, intercalate_split]
    simp only [List.append_assoc, List.nil_append]
  have hedit := b.replaceRange_middle ending htext
  rw [List.length_nil, Nat.add_zero] at hedit
  rw [show front ++ left :: right :: rear = front ++ [left, right] ++ rear by simp]
  refine huniform.exchange (List.cons_ne_nil _ _) hlines ?_
  rw [hedit, List.append_assoc front, List.cons_append, List.singleton_append, intercalate_split, trailing_cons]
  simp only [List.append_assoc]

end

end ListingEditor.Buffer
