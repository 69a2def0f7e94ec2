import ListingEditor.Proofs.Buffer.Indentation

/-!
The width of an indentation. The blanks that are to reach a column reach it, with tabs among them or without.
-/

namespace ListingEditor

namespace Text

theorem replaceFrom_skip (old new : List Char) (skip : Nat) (text : List Char) :
    replaceFrom old new skip text = replaceFrom old new 0 (text.drop skip) := by
  induction text generalizing skip with
  | nil => rw [List.drop_nil, replaceFrom, replaceFrom]
  | cons c text ih =>
    cases skip with
    | zero => rfl
    | succ skip => rw [replaceFrom, if_pos (Nat.succ_ne_zero skip), Nat.add_sub_cancel, ih, List.drop_succ_cons]

section

variable {c : Char} {width : Nat}

theorem replaceFrom_replicate_of_lt (new : List Char) {count : Nat} (hshort : count < width) :
    replaceFrom (List.replicate width c) new 0 (List.replicate count c) = List.replicate count c := by
  induction count with
  | zero => rfl
  | succ count ih =>
    have hlong : ¬ (List.replicate width c).isPrefixOf (List.replicate (count + 1) c) = true := by
      rw [List.isPrefixOf_iff_prefix]
      intro hprefix
      have hle := hprefix.length_le
      simp only [List.length_replicate] at hle
      omega
    rw [List.replicate_succ] at hlong ⊢
    rw [replaceFrom, if_neg (by simp), if_neg hlong, ih (by omega)]

theorem replaceFrom_replicate_add (hwidth : 0 < width) (new : List Char) (count : Nat) :
    replaceFrom (List.replicate width c) new 0 (List.replicate (width + count) c) =
      new ++ replaceFrom (List.replicate width c) new 0 (List.replicate count c) := by
  have hprefix : (List.replicate width c).isPrefixOf (List.replicate (width + count) c) = true := by
    rw [List.isPrefixOf_iff_prefix, List.prefix_replicate_iff]
    simp
  have hcons : List.replicate (width + count) c = c :: List.replicate (width - 1 + count) c := by
    rw [← List.replicate_succ, show width - 1 + count + 1 = width + count by omega]
  rw [hcons] at hprefix ⊢
  rw [replaceFrom, if_neg (by simp), if_pos hprefix, replaceFrom_skip, List.length_replicate, List.drop_replicate,
    Nat.add_sub_cancel_left]

/-- In a run of one character each part of the given width is replaced, and what is left over stays. -/
theorem replaceFrom_replicate {rest : Nat} (hrest : rest < width) (new : Char) (count : Nat) :
    replaceFrom (List.replicate width c) [new] 0 (List.replicate (count * width + rest) c) =
      List.replicate count new ++ List.replicate rest c := by
  induction count with
  | zero =>
    rw [Nat.zero_mul, Nat.zero_add]
    exact replaceFrom_replicate_of_lt [new] hrest
  | succ count ih =>
    have hsum : (count + 1) * width + rest = width + (count * width + rest) := by
      rw [Nat.add_mul]
      omega
    rw [hsum, replaceFrom_replicate_add (by omega), ih, List.replicate_succ]
    rfl

end

end Text

namespace Buffer

open Text (AllBlank SplitsBreak)

theorem foldlM_nextColumn_spaces (tabWidth : Option Int) (count : Nat) (column : Int) :
    (List.replicate count ' ').foldlM (nextColumn tabWidth) column = .ok (column + count) := by
  induction count generalizing column with
  | zero => simp [pure, Except.pure]
  | succ count ih =>
    have hnext : nextColumn tabWidth column ' ' = .ok (column + 1) := rfl
    rw [List.replicate_succ, List.foldlM_cons, hnext]
    refine (ih (column + 1)).trans (congrArg _ ?_)
    omega

theorem foldlM_nextColumn_tabs {width : Int} (hwidth : width ≠ 0) (count : Nat) (tabs : Int) :
    (List.replicate count '\t').foldlM (nextColumn (some width)) (tabs * width) = .ok ((tabs + count) * width) := by
  induction count generalizing tabs with
  | zero => simp [pure, Except.pure]
  | succ count ih =>
    have hnext : nextColumn (some width) (tabs * width) '\t' = .ok ((tabs + 1) * width) := by
      simp only [nextColumn, if_true, if_neg hwidth, Int.mul_fdiv_cancel _ hwidth]
    rw [List.replicate_succ, List.foldlM_cons, hnext]
    refine (ih (tabs + 1)).trans (congrArg (fun n => Except.ok (n * width)) ?_)
    omega

/-- Tabs with spaces behind them. -/
theorem columnBehind_tabs_spaces {width : Int} (hwidth : width ≠ 0) (tabs spaces : Nat) :
    columnBehind (some width) (List.replicate tabs '\t' ++ List.replicate spaces ' ') =
      .ok (tabs * width + spaces) := by
  have htabs := foldlM_nextColumn_tabs hwidth tabs 0
  rw [Int.zero_mul, Int.zero_add] at htabs
  rw [columnBehind, List.foldlM_append, htabs]
  exact foldlM_nextColumn_spaces (some width) spaces _

/-- The blanks that are to reach a column: as many tabs as go into it, and spaces. -/
theorem indentString_eq {b : Buffer} {width column : Nat} {blanks : List Char}
    (hwidth : b.tabWidth = some (width : Int)) (hpositive : 0 < width) (hok : b.indentString column = .ok blanks) :
    blanks = if b.useTabs then List.replicate (column / width) '\t' ++ List.replicate (column % width) ' '
      else List.replicate column ' ' := by
  rw [indentString] at hok
  cases hspaces : b.blanks column with
  | error e =>
    rw [hspaces] at hok
    cases hok
  | ok spaces =>
    rw [hspaces] at hok
    obtain rfl := repeated_eq_ok hspaces
    simp only [Int.toNat_natCast] at hok
    split at hok
    · rename_i htabs
      rw [if_pos htabs]
      rw [tabRun, hwidth] at hok
      cases hrun : b.blanks width with
      | error e =>
        simp only [hrun] at hok
        cases hok
      | ok run =>
        simp only [hrun] at hok
        obtain rfl := repeated_eq_ok hrun
        have hsome : (List.replicate width ' ').isEmpty = false := by
          rw [List.isEmpty_eq_false_iff, Ne, List.replicate_eq_nil_iff]
          omega
        have hreplaced := Text.replaceFrom_replicate (c := ' ') (Nat.mod_lt column hpositive) '\t' (column / width)
        rw [Nat.div_add_mod'] at hreplaced
        have hblanks : Text.replace (List.replicate width ' ') ['\t'] (List.replicate column ' ') = blanks :=
          Except.ok.inj hok
        rw [← hblanks, Text.replace, hsome, if_neg Bool.false_ne_true, hreplaced]
    · rename_i htabs
      rw [if_neg htabs]
      exact (Except.ok.inj hok).symm

/-- The blanks that are to reach a column reach it. -/
theorem columnBehind_indentString {b : Buffer} {width column : Int} {blanks : List Char}
    (hwidth : b.tabWidth = some width) (hpositive : 1 ≤ width) (hcolumn : 0 ≤ column)
    (hok : b.indentString column = .ok blanks) : columnBehind b.tabWidth blanks = .ok column := by
  obtain ⟨count, rfl⟩ := Int.eq_ofNat_of_zero_le hcolumn
  obtain ⟨tab, rfl⟩ := Int.eq_ofNat_of_zero_le (by omega : 0 ≤ width)
  rw [indentString_eq hwidth (by omega) hok, hwidth]
  split
  · rw [columnBehind_tabs_spaces (by omega)]
    refine congrArg _ ?_
    rw [← Int.natCast_mul, ← Int.natCast_add, Nat.div_add_mod']
  · exact (foldlM_nextColumn_spaces (some (tab : Int)) count 0).trans (congrArg _ (Int.zero_add _))

section Placing

variable {b : Buffer} {front rest blanks : List Char}

theorem le_of_mem_lineStarts {text : List Char} {start : Nat} (hmem : start ∈ lineStarts text) :
    start ≤ text.length := by
  obtain ⟨front, rear, rfl, rfl, -⟩ := startsLine_of_mem_lineStarts hmem
  rw [List.length_append]
  omega

/-- Blanks put in where a line starts are the start of that line. -/
theorem StartsLine.append_blanks (hstarts : StartsLine front rest) (hblank : AllBlank blanks) :
    StartsLine front (blanks ++ rest) := by
  by_cases hempty : blanks = []
  · rwa [hempty, List.nil_append]
  · exact ⟨hstarts.ends, not_splitsBreak_of_allBlank hblank hempty⟩

/-- The column behind the blanks that a line starts with is measured from these blanks alone. -/
theorem columnOf_blanks (htext : b.text = front ++ (blanks ++ rest)) (hstarts : StartsLine front (blanks ++ rest))
    (hblank : AllBlank blanks) :
    b.columnOf (front.length + blanks.length : Nat) = columnBehind b.tabWidth blanks := by
  have hwhole : ¬ SplitsBreak blanks rest := by
    rintro ⟨hlast, -⟩
    exact absurd (hblank '\r' (List.mem_of_getLast? hlast)) (by decide)
  -- no line starts between the start of this one and the end of its blanks
  have hlines : lineStarts b.text = lineStarts front ++ lineStartsFrom (front.length + blanks.length) rest := by
    rw [htext, lineStarts_append hstarts.whole, lineStartsFrom_append hwhole, lineStartsFrom_of_allBlank _ hblank,
      List.nil_append]
  have hmem : front.length ∈ lineStarts b.text := htext ▸ List.mem_of_getElem? (lineStarts_getElem? hstarts)
  have hsame : b.lineOf (front.length + blanks.length : Nat) = b.lineOf front.length := by
    have hcount : (lineStarts b.text).countP (fun start : Nat => (start : Int) ≤ (front.length + blanks.length : Nat)) =
        (lineStarts b.text).countP (fun start : Nat => (start : Int) ≤ front.length) := by
      refine List.countP_congr fun start hstart => ?_
      rw [hlines, List.mem_append] at hstart
      rcases hstart with hbefore | hbehind
      · have hle := le_of_mem_lineStarts hbefore
        simp only [decide_eq_true_eq]
        omega
      · have hlt := lt_of_mem_lineStartsFrom hbehind
        simp only [decide_eq_true_eq]
        omega
    rw [lineOf, hcount, lineOf]
  have hrange : b.range front.length (front.length + blanks.length : Nat) = blanks :=
    b.range_middle (by rw [htext, List.append_assoc])
  rw [columnOf, hsame, lineStart_of_mem_lineStarts hmem]
  exact congrArg _ hrange

/-- The indentation of a line is as wide as the blanks that the line starts with. -/
theorem indentation_of_lineText {line : Nat} {text : List Char} (hline : line < b.lineCount)
    (htext : b.lineText line = .ok text) :
    b.indentation line = columnBehind b.tabWidth (text.takeWhile Text.isBlank) := by
  obtain ⟨front, rear, hparts, hat⟩ := exists_lineAt b.text line
  have hstart := hat.lineStart hparts
  have hindent : text.takeWhile Text.isBlank = rear.takeWhile Text.isBlank := by
    rw [lineText_eq hparts hstart, Except.ok.injEq] at htext
    rw [← htext, takeWhile_isBlank_line]
  have hsplit : rear.takeWhile Text.isBlank ++ rear.dropWhile Text.isBlank = rear := List.takeWhile_append_dropWhile
  cases hat with
  | behind hcount =>
    rw [lineCount, hparts, List.append_nil] at hline
    omega
  | inside hstarts =>
    rw [indentation, indentEnd_eq hparts hstart, hindent]
    rw [← hsplit] at hparts hstarts
    exact columnOf_blanks hparts hstarts (Text.takeWhile_allBlank rear)

end Placing

/-- Why no blanks reach a column, if none do: there cannot be so many spaces, or, with tabs, none so wide as a tab. -/
def indentFault? (b : Buffer) (column : Int) : Option EditError :=
  (b.countFault? column).or (if b.useTabs then b.tabWidth.bind b.countFault? else none)

theorem blanks_eq (b : Buffer) (columns : Int) :
    b.blanks columns = (b.countFault? columns).elim (.ok (List.replicate columns.toNat ' ')) .error := by
  rw [Buffer.blanks, repeated]
  cases b.countFault? columns <;> rfl

theorem tabRun_eq {b : Buffer} {width : Int} (hwidth : b.tabWidth = some width) : b.tabRun = b.blanks width := by
  rw [tabRun, hwidth]

theorem indentString_of_fault {b : Buffer} {width column : Int} {e : EditError} (hwidth : b.tabWidth = some width)
    (hfault : b.indentFault? column = some e) : b.indentString column = .error e := by
  rw [indentFault?, hwidth, Option.bind_some] at hfault
  rw [indentString, blanks_eq]
  cases hcolumn : b.countFault? column with
  | some fault =>
    rw [hcolumn, Option.some_or] at hfault
    exact congrArg Except.error (Option.some.inj hfault)
  | none =>
    rw [hcolumn, Option.none_or] at hfault
    split at hfault
    · rename_i htabs
      simp only [Option.elim, htabs, if_true, tabRun_eq hwidth, blanks_eq, hfault]
      rfl
    · cases hfault

theorem indentString_of_no_fault {b : Buffer} {width column : Int} (hwidth : b.tabWidth = some width)
    (hfault : b.indentFault? column = none) : ∃ blanks, b.indentString column = .ok blanks := by
  rw [indentFault?, hwidth, Option.bind_some, Option.or_eq_none_iff] at hfault
  obtain ⟨hcolumn, htabs⟩ := hfault
  rw [indentString, blanks_eq, hcolumn]
  by_cases huse : b.useTabs = true
  · rw [if_pos huse] at htabs
    simp only [Option.elim, huse, if_true, tabRun_eq hwidth, blanks_eq, htabs]
    exact ⟨_, rfl⟩
  · exact ⟨_, if_neg huse⟩

/-- The blanks that are to reach a column are there unless there cannot be so many. They are spaces, or as many tabs as
go into the column with spaces behind them; put in where a line starts, they move its text to the column. -/
theorem indentString_reaches {b : Buffer} {width column : Int} (hwidth : b.tabWidth = some width)
    (hpositive : 1 ≤ width) (hcolumn : 0 ≤ column) :
    match b.indentFault? column with
    | some e => b.indentString column = .error e
    | none => ∃ blanks, b.indentString column = .ok blanks ∧ AllBlank blanks ∧
        (∀ (other : Buffer) (start : Nat), other.tabWidth = b.tabWidth → start ∈ lineStarts other.text →
          (other.insert start blanks).columnOf (start + blanks.length : Nat) = .ok column) ∧
        blanks =
          if b.useTabs then
            List.replicate (column / width).toNat '\t' ++ List.replicate (column % width).toNat ' '
          else List.replicate column.toNat ' ' := by
  cases hfault : b.indentFault? column with
  | some e => exact indentString_of_fault hwidth hfault
  | none =>
    obtain ⟨blanks, hok⟩ := indentString_of_no_fault hwidth hfault
    have hblank := (indentString_blank hok).1
    refine ⟨blanks, hok, hblank, fun other start htab hmem => ?_, ?_⟩
    · obtain ⟨front, rest, htext, rfl, hstarts⟩ := startsLine_of_mem_lineStarts hmem
      have hplaced : (other.insert front.length blanks).text = front ++ (blanks ++ rest) := by
        rw [insert_text, htext, List.take_left, List.drop_left, List.append_assoc]
      rw [columnOf_blanks hplaced (hstarts.append_blanks hblank) hblank]
      change columnBehind other.tabWidth blanks = _
      rw [htab]
      exact columnBehind_indentString hwidth hpositive hcolumn hok
    · obtain ⟨count, rfl⟩ := Int.eq_ofNat_of_zero_le hcolumn
      obtain ⟨tab, rfl⟩ := Int.eq_ofNat_of_zero_le (by omega : 0 ≤ width)
      rw [indentString_eq hwidth (by omega) hok]
      rfl

/-- A buffer with tabs that are four columns wide, and two lines. -/
def narrowTabs : Buffer := ofText ['a', '\r', '\n', 'b'] (some 4) true 2 1024

theorem indentString_reaches_narrowTabs :
    narrowTabs.indentFault? 10 = none ∧ narrowTabs.indentString 10 = .ok ['\t', '\t', ' ', ' '] ∧
      (narrowTabs.insert 3 ['\t', '\t', ' ', ' ']).columnOf 7 = .ok 10 := by
  have hfault : narrowTabs.indentFault? 10 = none := by decide
  have hwidth : narrowTabs.tabWidth = some 4 := rfl
  have hreaches := indentString_reaches hwidth (by decide) (show (0 : Int) ≤ 10 by decide)
  rw [hfault] at hreaches
  obtain ⟨blanks, hok, -, hplaced, hblanks⟩ := hreaches
  obtain rfl : blanks = ['\t', '\t', ' ', ' '] := hblanks
  exact ⟨hfault, hok, hplaced narrowTabs 3 rfl (by decide)⟩

/-- An empty buffer with tabs for whose width there is no memory. -/
def endlessTabs : Buffer := ofText [] (some 100000000000000000000) true 2 1024

/-- Eight columns can be out of reach. -/
theorem indentString_endlessTabs :
    (∃ width, endlessTabs.tabWidth = some width ∧ 1 ≤ width) ∧
      endlessTabs.indentString 8 = .error .columnOutOfRange :=
  ⟨⟨_, rfl, by decide⟩, by decide⟩

end Buffer

end ListingEditor
