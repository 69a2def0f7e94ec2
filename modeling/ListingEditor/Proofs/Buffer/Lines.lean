import ListingEditor.Buffer.Lines
import ListingEditor.Proofs.Text.Lines
import ListingEditor.Proofs.Text.Slice

/-!
Where lines start: behind a return that is not cut off from its line feed. The number of a line depends only on
the text in front of it.
-/

namespace ListingEditor.Buffer

open Text (EndsLine SplitsBreak)

theorem lineStartsFrom_cons {offset : Nat} {c : Char} {text : List Char}
    (hsplit : ¬ SplitsBreak [c] text) :
    lineStartsFrom offset (c :: text) =
      if Text.isReturn c then (offset + 1) :: lineStartsFrom (offset + 1) text
      else lineStartsFrom (offset + 1) text := by
  rw [lineStartsFrom]
  rintro rest rfl rfl
  exact hsplit ⟨rfl, rfl⟩

theorem lt_of_mem_lineStartsFrom {offset start : Nat} {text : List Char}
    (hmem : start ∈ lineStartsFrom offset text) : offset < start := by
  fun_induction lineStartsFrom offset text with
  | case1 => cases hmem
  | case2 offset rest ih =>
    rcases List.mem_cons.mp hmem with rfl | hrest
    · omega
    · have hlt := ih hrest
      omega
  | case3 offset c rest hpair hreturn ih =>
    rcases List.mem_cons.mp hmem with rfl | hrest
    · omega
    · have hlt := ih hrest
      omega
  | case4 offset c rest hpair hreturn ih =>
    have hlt := ih hmem
    omega

theorem lineStartsFrom_pairwise (offset : Nat) (text : List Char) :
    (lineStartsFrom offset text).Pairwise (· < ·) := by
  fun_induction lineStartsFrom offset text with
  | case1 => exact .nil
  | case2 offset rest ih => exact .cons (fun _ h => lt_of_mem_lineStartsFrom h) ih
  | case3 offset c rest hpair hreturn ih => exact .cons (fun _ h => lt_of_mem_lineStartsFrom h) ih
  | case4 offset c rest hpair hreturn ih => exact ih

theorem lineStarts_pairwise (text : List Char) : (lineStarts text).Pairwise (· < ·) :=
  .cons (fun _ h => lt_of_mem_lineStartsFrom h) (lineStartsFrom_pairwise 0 text)

theorem lineStartsFrom_append {offset : Nat} {front rear : List Char}
    (hsplit : ¬ SplitsBreak front rear) :
    lineStartsFrom offset (front ++ rear) =
      lineStartsFrom offset front ++ lineStartsFrom (offset + front.length) rear := by
  fun_induction lineStartsFrom offset front with
  | case1 => rfl
  | case2 offset rest ih =>
    have hrest : ¬ SplitsBreak rest rear := fun h => hsplit ((h.cons _).cons _)
    have hlength : offset + ('\r' :: '\n' :: rest).length = offset + 2 + rest.length := by
      simp only [List.length_cons]
      omega
    rw [List.cons_append, List.cons_append, lineStartsFrom, ih hrest, List.cons_append, hlength]
  | case3 offset c rest hpair hreturn ih =>
    have hrest : ¬ SplitsBreak rest rear := fun h => hsplit (h.cons _)
    rw [List.cons_append, lineStartsFrom_cons (Text.not_splitsBreak_cons_append hpair hsplit),
      if_pos hreturn, ih hrest, List.cons_append, List.length_cons, Nat.add_right_comm, Nat.add_assoc]
  | case4 offset c rest hpair hreturn ih =>
    have hrest : ¬ SplitsBreak rest rear := fun h => hsplit (h.cons _)
    rw [List.cons_append, lineStartsFrom_cons (Text.not_splitsBreak_cons_append hpair hsplit),
      if_neg hreturn, ih hrest, List.length_cons, Nat.add_right_comm, Nat.add_assoc]

/-- A place where a line starts: the text in front of it ends a line, and is not cut off inside a break. -/
structure StartsLine (front rear : List Char) : Prop where
  ends : EndsLine front
  whole : ¬ SplitsBreak front rear

/-- The lines up to a place are those of the text in front of it. -/
theorem lineStarts_append {front rear : List Char} (hsplit : ¬ SplitsBreak front rear) :
    lineStarts (front ++ rear) = lineStarts front ++ lineStartsFrom front.length rear := by
  rw [lineStarts, lineStartsFrom_append hsplit, Nat.zero_add]
  rfl

theorem lineStartsFrom_getLast? {offset : Nat} {text : List Char} (hends : EndsLine text)
    (hnonempty : text ≠ []) : (lineStartsFrom offset text).getLast? = some (offset + text.length) := by
  fun_induction lineStartsFrom offset text with
  | case1 => exact absurd rfl hnonempty
  | case2 offset rest ih =>
    cases rest with
    | nil => rfl
    | cons c rest =>
      rw [List.getLast?_cons, ih hends.tail.tail (List.cons_ne_nil _ _), Option.getD_some]
      simp only [List.length_cons, Option.some.injEq]
      omega
  | case3 offset c rest hpair hreturn ih =>
    cases rest with
    | nil => rfl
    | cons d rest =>
      rw [List.getLast?_cons, ih hends.tail (List.cons_ne_nil _ _), Option.getD_some]
      simp only [List.length_cons, Option.some.injEq]
      omega
  | case4 offset c rest hpair hreturn ih =>
    cases rest with
    | nil => exact absurd (hends c rfl) hreturn
    | cons d rest =>
      rw [ih hends.tail (List.cons_ne_nil _ _)]
      simp only [List.length_cons, Option.some.injEq]
      omega

theorem lineStarts_getLast? {text : List Char} (hends : EndsLine text) :
    (lineStarts text).getLast? = some text.length := by
  cases text with
  | nil => rfl
  | cons c text =>
    rw [lineStarts, List.getLast?_cons, lineStartsFrom_getLast? hends (List.cons_ne_nil _ _),
      Nat.zero_add]
    rfl

/-- The line that starts at a place has as its number the count of the lines in front of it. -/
theorem lineStarts_getElem? {front rear : List Char} (hstarts : StartsLine front rear) :
    (lineStarts (front ++ rear))[(lineStarts front).length - 1]? = some front.length := by
  have hpositive : 0 < (lineStarts front).length := Nat.succ_pos _
  rw [lineStarts_append hstarts.whole, List.getElem?_append_left (by omega),
    ← List.getLast?_eq_getElem?, lineStarts_getLast? hstarts.ends]

theorem StartsLine.cons {front rear : List Char} (hstarts : StartsLine front rear)
    (hnonempty : front ≠ []) (c : Char) : StartsLine (c :: front) rear := by
  have hlast : (c :: front).getLast? = front.getLast? := by
    rw [List.getLast?_cons, List.getLast?_eq_some_getLast hnonempty]
    rfl
  refine ⟨fun d hd => hstarts.ends d (hlast ▸ hd), fun ⟨hd, hhead⟩ => hstarts.whole ⟨?_, hhead⟩⟩
  rwa [← hlast]

theorem startsLine_of_mem_lineStartsFrom {offset start : Nat} {text : List Char}
    (hmem : start ∈ lineStartsFrom offset text) :
    ∃ front rear, text = front ++ rear ∧ front ≠ [] ∧ start = offset + front.length ∧
      StartsLine front rear := by
  fun_induction lineStartsFrom offset text with
  | case1 => cases hmem
  | case2 offset rest ih =>
    rcases List.mem_cons.mp hmem with rfl | hrest
    · have hends : EndsLine (['\r'] ++ ['\n']) := Text.endsLine_concat rfl
      refine ⟨['\r', '\n'], rest, rfl, List.cons_ne_nil _ _, rfl, ⟨hends, ?_⟩⟩
      rintro ⟨hlast, _⟩
      simp at hlast
    · obtain ⟨front, rear, rfl, hnonempty, rfl, hstarts⟩ := ih hrest
      refine ⟨'\r' :: '\n' :: front, rear, rfl, List.cons_ne_nil _ _, ?_,
        (hstarts.cons hnonempty _).cons (List.cons_ne_nil _ _) _⟩
      simp only [List.length_cons]
      omega
  | case3 offset c rest hpair hreturn ih =>
    rcases List.mem_cons.mp hmem with rfl | hrest
    · have hends : EndsLine ([] ++ [c]) := Text.endsLine_concat hreturn
      exact ⟨[c], rest, rfl, List.cons_ne_nil _ _, rfl, ⟨hends, Text.not_splitsBreak_singleton hpair⟩⟩
    · obtain ⟨front, rear, rfl, hnonempty, rfl, hstarts⟩ := ih hrest
      refine ⟨c :: front, rear, rfl, List.cons_ne_nil _ _, ?_, hstarts.cons hnonempty c⟩
      simp only [List.length_cons]
      omega
  | case4 offset c rest hpair hreturn ih =>
    obtain ⟨front, rear, rfl, hnonempty, rfl, hstarts⟩ := ih hmem
    refine ⟨c :: front, rear, rfl, List.cons_ne_nil _ _, ?_, hstarts.cons hnonempty c⟩
    simp only [List.length_cons]
    omega

/-- Every start of a line is such a place. -/
theorem startsLine_of_mem_lineStarts {start : Nat} {text : List Char} (hmem : start ∈ lineStarts text) :
    ∃ front rear, text = front ++ rear ∧ start = front.length ∧ StartsLine front rear := by
  rcases List.mem_cons.mp hmem with rfl | hlater
  · exact ⟨[], text, rfl, rfl, ⟨Text.endsLine_nil, fun h => nomatch h.1⟩⟩
  · obtain ⟨front, rear, htext, _, hstart, hstarts⟩ := startsLine_of_mem_lineStartsFrom hlater
    exact ⟨front, rear, htext, by rw [hstart, Nat.zero_add], hstarts⟩

/-- In a rising list, as many elements as are not above a bound stand at its front. -/
theorem getElem?_of_countP_le {starts : List Nat} {place : Int} {n : Nat}
    (hrising : starts.Pairwise (· < ·))
    (hcount : starts.countP (fun start : Nat => (start : Int) ≤ place) = n + 1) :
    ∃ start : Nat, starts[n]? = some start ∧ (start : Int) ≤ place := by
  induction starts generalizing n with
  | nil => cases hcount
  | cons first starts ih =>
    obtain ⟨hfirst, hrest⟩ := List.pairwise_cons.mp hrising
    rw [List.countP_cons] at hcount
    by_cases hle : (first : Int) ≤ place
    · cases n with
      | zero => exact ⟨first, rfl, hle⟩
      | succ n =>
        rw [if_pos (decide_eq_true hle), Nat.add_right_cancel_iff] at hcount
        exact ih hrest hcount
    · have hnone : starts.countP (fun start : Nat => (start : Int) ≤ place) = 0 := by
        rw [List.countP_eq_zero]
        intro start hmem
        have hlt := hfirst start hmem
        simp only [decide_eq_true_eq]
        omega
      rw [hnone, if_neg (by simpa using hle)] at hcount
      cases hcount

theorem lineStart_natCast (b : Buffer) (line : Nat) :
    b.lineStart line = .ok ((lineStarts b.text)[line]?.getD b.length) := by
  rw [lineStart]
  by_cases hbehind : (lineStarts b.text).length ≤ line
  · rw [if_pos (Int.ofNat_le.mpr hbehind), List.getElem?_eq_none hbehind, Option.getD_none]
  · rw [if_neg (by omega), if_neg (by omega), if_neg (by omega), Int.toNat_natCast,
      List.getElem?_eq_getElem (by omega)]
    rfl

/-- The line that holds a place of the text starts at or before it. -/
theorem lineStart_lineOf (b : Buffer) {place : Int} (hplace : 0 ≤ place) :
    ∃ line start : Nat, b.lineOf place = line ∧ (lineStarts b.text)[line]? = some start ∧
      b.lineStart line = .ok start ∧ (start : Int) ≤ place := by
  have hpositive : 0 < (lineStarts b.text).countP (fun start : Nat => (start : Int) ≤ place) := by
    rw [List.countP_pos_iff]
    exact ⟨0, List.mem_cons_self, by simpa using hplace⟩
  obtain ⟨line, hline⟩ := Nat.exists_eq_add_of_lt hpositive
  rw [Nat.zero_add] at hline
  obtain ⟨start, hstart, hle⟩ := getElem?_of_countP_le (lineStarts_pairwise b.text) hline
  refine ⟨line, start, ?_, hstart, ?_, hle⟩
  · rw [lineOf, hline]
    omega
  · rw [lineStart_natCast, hstart, Option.getD_some]

/-- The line that holds its own start is that line. -/
theorem lineStart_of_mem_lineStarts {b : Buffer} {start : Nat} (hmem : start ∈ lineStarts b.text) :
    b.lineStart (b.lineOf start) = .ok start := by
  obtain ⟨before, behind, hstarts⟩ := List.append_of_mem hmem
  have hrising := lineStarts_pairwise b.text
  rw [hstarts, List.pairwise_append, List.pairwise_cons] at hrising
  obtain ⟨-, ⟨hbehind, -⟩, hbefore⟩ := hrising
  have hfront : before.countP (fun other : Nat => (other : Int) ≤ start) = before.length := by
    rw [List.countP_eq_length]
    intro other hother
    have hlt := hbefore other hother start List.mem_cons_self
    simpa using Nat.le_of_lt hlt
  have hrear : behind.countP (fun other : Nat => (other : Int) ≤ start) = 0 := by
    rw [List.countP_eq_zero]
    intro other hother
    simpa using hbehind other hother
  have hline : b.lineOf start = before.length := by
    rw [lineOf, hstarts, List.countP_append, hfront, List.countP_cons, hrear]
    simp
  rw [hline, lineStart_natCast, hstarts, List.getElem?_append_right (Nat.le_refl _), Nat.sub_self,
    List.getElem?_cons_zero, Option.getD_some]

theorem lineOf_le_lineOf (b : Buffer) {place other : Int} (hle : place ≤ other) :
    b.lineOf place ≤ b.lineOf other := by
  have hcount : (lineStarts b.text).countP (fun start : Nat => (start : Int) ≤ place) ≤
      (lineStarts b.text).countP (fun start : Nat => (start : Int) ≤ other) := by
    apply List.countP_mono_left
    intro start _ hstart
    simp only [decide_eq_true_eq] at hstart ⊢
    omega
  unfold lineOf
  omega

theorem nextColumn_grows {width : Int} (hwidth : 1 ≤ width) (column : Int) (c : Char) :
    ∃ next, nextColumn (some width) column c = .ok next ∧ column + 1 ≤ next := by
  unfold nextColumn
  split
  · have hzero : width ≠ 0 := by omega
    have hlt := Int.lt_fdiv_add_one_mul_self column (by omega : 0 < width)
    exact ⟨_, if_neg hzero, hlt⟩
  · exact ⟨_, rfl, Int.le_refl _⟩

/-- Columns grow with every character, if tabs have a width. -/
theorem columnBehind_grows {width : Int} (hwidth : 1 ≤ width) (text : List Char) :
    ∃ column, columnBehind (some width) text = .ok column ∧ (text.length : Int) ≤ column := by
  have hfold (first : Int) : ∃ column,
      text.foldlM (nextColumn (some width)) first = .ok column ∧ first + text.length ≤ column := by
    induction text generalizing first with
    | nil => exact ⟨first, rfl, by simp⟩
    | cons c text ih =>
      obtain ⟨next, hnext, hgrows⟩ := nextColumn_grows hwidth first c
      obtain ⟨column, hcolumn, hle⟩ := ih next
      refine ⟨column, ?_, by rw [List.length_cons]; omega⟩
      rw [List.foldlM_cons, hnext]
      exact hcolumn
  obtain ⟨column, hcolumn, hle⟩ := hfold 0
  exact ⟨column, hcolumn, by omega⟩

theorem countFault?_eq_none {b : Buffer} {count : Int} (hpositive : 0 ≤ count) (hle : count ≤ b.room) :
    b.countFault? count = none := by
  have hbelow : -countLimit - 1 ≤ 0 := by decide
  obtain ⟨hmemory, hlimit⟩ : count ≤ b.memory ∧ count ≤ countLimit := Int.le_min.mp hle
  rw [countFault?, if_neg (by omega), if_neg (by omega)]

end ListingEditor.Buffer
