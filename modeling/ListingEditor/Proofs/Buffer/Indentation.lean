import ListingEditor.Proofs.Buffer.Edit
import ListingEditor.Proofs.Buffer.Lines
import ListingEditor.Proofs.Text.Blank

/-!
The indentation of a line, and how the line keeps its number and its start when its indentation is exchanged.
-/

namespace ListingEditor.Buffer

open Text (AllBlank EndsLine SplitsBreak)

variable {b : Buffer} {line : Int} {front rear : List Char}

theorem range_endOfLineAt (htext : b.text = front ++ rear) :
    b.range front.length (b.endOfLineAt front.length) = rear.takeWhile fun c => !Text.isReturn c := by
  have hdrop : b.text.drop front.length = rear := by rw [htext, List.drop_left]
  have htake := List.prefix_iff_eq_take.mp (rear.takeWhile_prefix fun c => !Text.isReturn c)
  rw [range, endOfLineAt, Text.slice_natCast, hdrop, htext, List.take_length_add_append, List.drop_left,
    ← htake]

theorem lineText_eq (htext : b.text = front ++ rear) (hstart : b.lineStart line = .ok front.length) :
    b.lineText line = .ok (rear.takeWhile fun c => !Text.isReturn c) := by
  rw [lineText, hstart, ← range_endOfLineAt htext]
  rfl

/-- The blanks that a line starts with are those that the text from there on starts with. -/
theorem takeWhile_isBlank_line (rear : List Char) :
    (rear.takeWhile fun c => !Text.isReturn c).takeWhile Text.isBlank = rear.takeWhile Text.isBlank := by
  rw [List.takeWhile_takeWhile]
  congr 1
  funext c
  by_cases hc : Text.isBlank c = true
  · simp [hc, Text.isReturn_eq_false_of_isBlank hc]
  · simp [hc]

theorem indentEnd_eq (htext : b.text = front ++ rear) (hstart : b.lineStart line = .ok front.length) :
    b.indentEnd line = .ok (front.length + (rear.takeWhile Text.isBlank).length) := by
  rw [← takeWhile_isBlank_line, ← range_endOfLineAt htext, indentEnd, hstart]
  rfl

/-- Where a line starts: behind `front`. A line that the text does not have starts behind all of it. -/
inductive LineAt (line : Nat) (front : List Char) : List Char → Prop where
  | inside {rear : List Char} (hstarts : StartsLine front rear)
      (hline : (lineStarts front).length = line + 1) : LineAt line front rear
  | behind (hline : (lineStarts front).length ≤ line) : LineAt line front []

theorem exists_lineAt (text : List Char) (line : Nat) :
    ∃ front rear, text = front ++ rear ∧ LineAt line front rear := by
  cases hget : (lineStarts text)[line]? with
  | none => exact ⟨text, [], (List.append_nil text).symm, .behind (List.getElem?_eq_none_iff.mp hget)⟩
  | some start =>
    obtain ⟨front, rear, rfl, rfl, hstarts⟩ := startsLine_of_mem_lineStarts (List.mem_of_getElem? hget)
    have hlt : line < (lineStarts (front ++ rear)).length := (List.getElem?_eq_some_iff.mp hget).1
    have hdistinct : (lineStarts (front ++ rear)).Nodup :=
      (lineStarts_pairwise _).imp fun hlt => Nat.ne_of_lt hlt
    have hsame := (List.getElem?_inj hlt hdistinct).mp (hget.trans (lineStarts_getElem? hstarts).symm)
    have hpositive : 0 < (lineStarts front).length := Nat.succ_pos _
    exact ⟨front, rear, rfl, .inside hstarts (by omega)⟩

theorem LineAt.lineStart {line : Nat} (hat : LineAt line front rear) (htext : b.text = front ++ rear) :
    b.lineStart line = .ok front.length := by
  rw [lineStart_natCast, htext]
  cases hat with
  | inside hstarts hline =>
    have hget := lineStarts_getElem? hstarts
    rw [hline, Nat.add_sub_cancel] at hget
    rw [hget]
    rfl
  | behind hline =>
    rw [List.append_nil, List.getElem?_eq_none hline, Option.getD_none, length, htext, List.append_nil]

theorem lineStartsFrom_of_allBlank {blanks : List Char} (offset : Nat) (hblank : AllBlank blanks) :
    lineStartsFrom offset blanks = [] := by
  induction blanks generalizing offset with
  | nil => rfl
  | cons c blanks ih =>
    obtain ⟨hc, hrest⟩ : AllBlank [c] ∧ AllBlank blanks := AllBlank.of_append hblank
    have hreturn := Text.isReturn_eq_false_of_isBlank (hc c (List.mem_singleton_self c))
    rw [lineStartsFrom_cons, if_neg (by simp [hreturn]), ih _ hrest]
    rintro ⟨hlast, _⟩
    rw [List.getLast?_singleton, Option.some.injEq] at hlast
    subst hlast
    cases hreturn

theorem not_splitsBreak_of_allBlank {blanks rest : List Char} (hblank : AllBlank blanks)
    (hnonempty : blanks ≠ []) : ¬ SplitsBreak front (blanks ++ rest) := by
  rintro ⟨_, hhead⟩
  cases blanks with
  | nil => exact hnonempty rfl
  | cons c blanks =>
    have hc := hblank c List.mem_cons_self
    simp only [List.cons_append, List.head?_cons, Option.some.injEq] at hhead
    subst hhead
    cases hc

/-- Another indentation leaves a line where it is, as long as its text does not come to stand as a line feed
behind a carriage return. -/
theorem LineAt.indentEnd_reindent {line : Nat} {indent blanks rest : List Char}
    (hat : LineAt line front (indent ++ rest)) (htext : b.text = front ++ blanks ++ rest)
    (hblank : AllBlank blanks) (hrest : rest.takeWhile Text.isBlank = [])
    (hfeed : blanks = [] → rest.head? ≠ some '\n') :
    b.indentEnd line = .ok (front.length + blanks.length) := by
  have hsplit : ¬ SplitsBreak front (blanks ++ rest) := by
    by_cases hempty : blanks = []
    · rw [hempty]
      exact fun h => hfeed hempty h.2
    · exact not_splitsBreak_of_allBlank hblank hempty
  have hindent : (blanks ++ rest).takeWhile Text.isBlank = blanks := by
    rw [List.takeWhile_append_of_pos hblank, hrest, List.append_nil]
  rw [List.append_assoc] at htext
  generalize hrear : indent ++ rest = rear at hat
  cases hat with
  | inside hstarts hline =>
    have hnew : LineAt line front (blanks ++ rest) := .inside ⟨hstarts.ends, hsplit⟩ hline
    rw [indentEnd_eq htext (hnew.lineStart htext), hindent]
  | behind hline =>
    obtain ⟨-, rfl⟩ := List.append_eq_nil_iff.mp hrear
    rw [List.append_nil] at htext hsplit
    have hcount : lineStarts (front ++ blanks) = lineStarts front := by
      rw [lineStarts_append hsplit, lineStartsFrom_of_allBlank _ hblank, List.append_nil]
    have hnew : LineAt line (front ++ blanks) [] := .behind (by rwa [hcount])
    rw [← List.append_nil (front ++ blanks)] at htext
    rw [indentEnd_eq htext (hnew.lineStart htext), List.length_append]
    rfl

theorem repeated_eq_ok {c : Char} {count : Int} {text : List Char} (hok : b.repeated c count = .ok text) :
    text = List.replicate count.toNat c := by
  unfold repeated at hok
  split at hok
  · cases hok
  · cases hok
    rfl

/-- The blanks that reach a column are blanks, and there are some if the column is not the first. -/
theorem indentString_blank {column : Int} {blanks : List Char} (hok : b.indentString column = .ok blanks) :
    AllBlank blanks ∧ (1 ≤ column → blanks ≠ []) := by
  unfold indentString at hok
  split at hok
  · cases hok
  · rename_i spaces hspaces
    obtain rfl := repeated_eq_ok hspaces
    have hblank : AllBlank (List.replicate column.toNat ' ') := by
      intro c hc
      rw [List.eq_of_mem_replicate hc]
      rfl
    have hsome (hcolumn : 1 ≤ column) : List.replicate column.toNat ' ' ≠ [] := by
      rw [Ne, List.replicate_eq_nil_iff]
      omega
    split at hok
    · cases hrun : b.tabRun with
      | error e =>
        rw [hrun] at hok
        cases hok
      | ok run =>
        rw [hrun] at hok
        cases hok
        have htab : AllBlank ['\t'] := by
          intro c hc
          rw [List.mem_singleton.mp hc]
          rfl
        exact ⟨Text.replace_allBlank run htab hblank,
          fun hcolumn => Text.replace_ne_nil run (List.cons_ne_nil _ _) (hsome hcolumn)⟩
    · cases hok
      exact ⟨hblank, hsome⟩

/-- Columns for which there is memory can be reached. -/
theorem indentString_isOk {width column : Int} (hwidth : b.tabWidth = some width) (hpositive : 1 ≤ width)
    (hcolumn : 0 ≤ column ∧ column ≤ b.room) (htabs : b.useTabs = true → width ≤ b.room) :
    ∃ blanks, b.indentString column = .ok blanks := by
  rw [indentString, Buffer.blanks, repeated, countFault?_eq_none hcolumn.1 hcolumn.2]
  by_cases htab : b.useTabs = true
  · have hfits := countFault?_eq_none (by omega) (htabs htab)
    simp only [htab, if_true, tabRun, hwidth, Buffer.blanks, repeated, hfits]
    exact ⟨_, rfl⟩
  · simp only [htab]
    exact ⟨_, rfl⟩

end ListingEditor.Buffer
