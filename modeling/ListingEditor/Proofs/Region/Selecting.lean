import ListingEditor.Proofs.Buffer.LineTexts
import ListingEditor.Proofs.Region.Commenting

/-!
Which lines a selection covers, and what becomes of them when it is extended to whole lines. A selection ends in front
of the return of its last line. If that line is empty, this is its start, and a selection that ends at the start of a
line does not cover it.
-/

namespace ListingEditor.Region

open Buffer (Rows rowText)

/-- A line that holds a selected character, or the caret if nothing is selected. -/
def Covers (b : Buffer) (line : Nat) : Prop :=
  if b.selection.1 = b.selection.2 then b.currentLine = line
  else ∃ place : Nat, b.selection.1 ≤ place ∧ place < b.selection.2 ∧ b.lineOf place = line

variable {b : Buffer} {first last : Nat}

/-- The lines that a selection covers are those from the first to the last. -/
theorem covers_iff (hcaret : 0 ≤ b.caret) (hanchor : 0 ≤ b.anchor) (hcovered : coveredLines b = (↑first, ↑last))
    (line : Nat) : Covers b line ↔ first ≤ line ∧ line ≤ last := by
  rw [coveredLines] at hcovered
  rw [Covers]
  split at hcovered
  · rename_i hnone
    obtain ⟨hfirst, hlast⟩ := Prod.mk.inj hcovered
    rw [if_pos hnone]
    omega
  rename_i hselected
  obtain ⟨hfirst, hlast⟩ := Prod.mk.inj hcovered
  have hlt : b.selection.1 < b.selection.2 := by
    simp only [Buffer.selection] at hselected ⊢
    omega
  have hpositive : 0 ≤ b.selection.1 := Int.le_min.mpr ⟨hanchor, hcaret⟩
  rw [if_neg hselected]
  constructor
  · rintro ⟨place, hfrom, hto, hline⟩
    have hbehind := b.lineOf_le_lineOf hfrom
    have hbefore := b.lineOf_le_lineOf (Int.le_sub_one_of_lt hto)
    omega
  · rintro ⟨hfrom, hto⟩
    obtain ⟨place, hplace⟩ := Int.eq_ofNat_of_zero_le hpositive
    obtain rfl | hlater := Nat.eq_or_lt_of_le hfrom
    · exact ⟨place, by omega, by omega, by rw [← hplace, hfirst]⟩
    -- a line behind the first is covered from its start on
    have hexists : line < b.lineCount := by
      obtain ⟨found, start, hfound, hstart, -, -⟩ := b.lineStart_lineOf (show 0 ≤ b.selection.2 - 1 by omega)
      have hcount : found < b.lineCount := (List.getElem?_eq_some_iff.mp hstart).1
      omega
    obtain ⟨front, row, rear, rfl, hrows, htext⟩ := Buffer.exists_row hexists
    have hof := hrows.lineOf_start htext
    refine ⟨front.flatten.length, ?_, ?_, hof⟩
    · by_contra hbefore
      have hle := b.lineOf_le_lineOf (Int.le_of_lt (Int.not_le.mp hbefore))
      omega
    · by_contra hbehind
      have hreached := (hrows.lineOf_lt_iff htext (b.selection.2 - 1)).mpr (by omega)
      omega

/-- A selection of whole lines runs from the start of the first to the end of the text of the last. -/
theorem Selects.exists_row (hselects : Selects b first last) (hle : first ≤ last) (hlast : last < b.lineCount) :
    ∃ (front rear : List (List Char)) (row : List Char) (start : Nat), front.length = last ∧
      Rows (front ++ row :: rear) ∧ b.text = (front ++ row :: rear).flatten ∧ b.lineOf start = first ∧
      (start = front.flatten.length ↔ first = last) ∧ start ≤ front.flatten.length ∧
      b.caret = (front.flatten.length + (rowText row).length : Nat) ∧
      b.selection = (↑start, ↑(front.flatten.length + (rowText row).length)) := by
  obtain ⟨front', row', rear', rfl, hrows', htext'⟩ := Buffer.exists_row (Nat.lt_of_le_of_lt hle hlast)
  obtain ⟨front, row, rear, rfl, hrows, htext⟩ := Buffer.exists_row hlast
  obtain ⟨start, stop, hstart, hstop, hanchor, hcaret⟩ := hselects
  obtain rfl := Except.ok.inj (hstart.symm.trans (hrows'.lineStart_eq htext'))
  obtain rfl := Except.ok.inj (hstop.symm.trans (hrows.lineEnd_eq htext))
  have hfirst := hrows'.lineOf_start htext'
  have hlastLine := hrows.lineOf_start htext
  have hbefore : front'.flatten.length ≤ front.flatten.length := by
    by_contra hbehind
    have hlt := (hrows'.lineOf_lt_iff htext' front.flatten.length).mpr (by omega)
    omega
  refine ⟨front, rear, row, _, rfl, hrows, htext, hfirst, ⟨fun hsame => ?_, fun hsame => ?_⟩, hbefore, hcaret, ?_⟩
  · rw [hsame, hlastLine] at hfirst
    omega
  · rw [hsame] at hstart
    exact Except.ok.inj (hstart.symm.trans (hrows.lineStart_eq htext))
  · rw [Buffer.selection, hanchor, hcaret, Int.min_eq_left (by omega), Int.max_eq_right (by omega)]

/-- A selection of whole lines covers these lines, if there is one only or the last is not empty. -/
theorem Selects.coveredLines_of_filled (hselects : Selects b first last) (hle : first ≤ last)
    (hlast : last < b.lineCount) (hfilled : first = last ∨ b.lineText last ≠ .ok []) :
    coveredLines b = (↑first, ↑last) := by
  obtain ⟨front, rear, row, start, rfl, hrows, htext, hfirst, hsame, hbefore, hcaret, hselection⟩ :=
    hselects.exists_row hle hlast
  have hof {column : Nat} (hcolumn : column ≤ (rowText row).length) := hrows.lineOf_column htext hcolumn
  rw [hrows.lineText_row htext, Ne, Except.ok.injEq, ← List.length_eq_zero_iff] at hfilled
  rw [coveredLines, hselection, Buffer.currentLine, hcaret, hof (Nat.le_refl _)]
  dsimp only
  by_cases hnone : (rowText row).length = 0
  · have honly := hfilled.resolve_right (fun hsome => hsome hnone)
    have hstart := hsame.mpr honly
    rw [if_pos (by omega), honly]
  · have hplace : (((front.flatten.length + (rowText row).length : Nat) : Int) - 1) =
        (front.flatten.length + ((rowText row).length - 1) : Nat) := by omega
    rw [if_neg (by omega), hfirst, hplace, hof (Nat.sub_le ..)]

/-- A selection of whole lines does not cover a last line that is empty. -/
theorem Selects.coveredLines_of_empty (hselects : Selects b first last) (hlt : first < last)
    (hlast : last < b.lineCount) (hempty : b.lineText last = .ok []) :
    coveredLines b = (↑first, ↑(last - 1)) := by
  obtain ⟨front, rear, row, start, rfl, hrows, htext, hfirst, hsame, hbefore, -, hselection⟩ :=
    hselects.exists_row (Nat.le_of_lt hlt) hlast
  have hne : front ≠ [] := List.ne_nil_of_length_pos (Nat.zero_lt_of_lt hlt)
  have hpred := hrows.lineOf_pred_start htext hne
  rw [hrows.lineText_row htext, Except.ok.injEq] at hempty
  rw [hempty, List.length_nil, Nat.add_zero] at hselection
  rw [coveredLines, hselection]
  dsimp only
  rw [if_neg (by omega), hfirst]
  exact Prod.ext rfl (by dsimp only; omega)

/-- Extending a selection to whole lines once more changes nothing, if the selection has one line only or its last line
is not empty. Otherwise that line is left out the second time. The same holds of commenting in or out, which selects the
lines again that it has worked on. -/
theorem extendToLines_again {b : Buffer} (hcaret : 0 ≤ b.caret) (hanchor : 0 ≤ b.anchor) :
    let once := extendToLines.run b
    let twice := extendToLines.run once.state
    ∃ first last : Nat, first ≤ last ∧ last < b.lineCount ∧ (∀ line, Covers b line ↔ first ≤ line ∧ line ≤ last) ∧
      once.result = .ok (↑first, ↑last) ∧ Selects once.state first last ∧
      (first = last ∨ b.lineText last ≠ .ok [] → twice.result = once.result ∧ twice.state = once.state) ∧
      (first < last → b.lineText last = .ok [] →
        twice.result = .ok (↑first, ↑(last - 1)) ∧ twice.state.caret < once.state.caret) ∧
      ∀ marker choice,
        let toggled := ((toggleComments marker choice).run b).state
        last < toggled.lineCount →
          (coveredLines toggled = (↑first, ↑last) ↔ first = last ∨ toggled.lineText last ≠ .ok []) := by
  intro once twice
  obtain ⟨first, last, hcovered, hle, hlt⟩ := coveredLines_eq hcaret hanchor
  obtain ⟨start, stop, hstart, hstop, honce⟩ := extendToLines_effect hcovered
  obtain ⟨hresult, hstate⟩ := Prod.mk.inj honce
  have hselects : Selects (b.select start stop) first last := ⟨start, stop, hstart, hstop, rfl, rfl⟩
  have hagain {first' last' : Nat} (hcovered' : coveredLines (b.select start stop) = (↑first', ↑last')) :
      ∃ start' stop' : Nat, b.lineStart first' = .ok start' ∧ b.lineEnd last' = .ok stop' ∧
        twice.result = .ok (↑first', ↑last') ∧ twice.state = b.select start' stop' := by
    obtain ⟨start', stop', hstart', hstop', htwice⟩ := extendToLines_effect hcovered'
    obtain ⟨hresult', hstate'⟩ := Prod.mk.inj htwice
    have hsame : twice = extendToLines.run (b.select start stop) := congrArg extendToLines.run hstate
    rw [hsame]
    exact ⟨start', stop', hstart', hstop', hresult', hstate'⟩
  refine ⟨first, last, hle, hlt, covers_iff hcaret hanchor hcovered, hresult, hstate ▸ hselects, ?_, ?_, ?_⟩
  · intro hfilled
    obtain ⟨start', stop', hstart', hstop', hresult', hstate'⟩ :=
      hagain (hselects.coveredLines_of_filled hle hlt hfilled)
    obtain rfl := Except.ok.inj (hstart.symm.trans hstart')
    obtain rfl := Except.ok.inj (hstop.symm.trans hstop')
    exact ⟨hresult'.trans hresult.symm, hstate'.trans hstate.symm⟩
  · intro hbefore hempty
    obtain ⟨start', stop', -, hstop', hresult', hstate'⟩ :=
      hagain (hselects.coveredLines_of_empty hbefore hlt hempty)
    refine ⟨hresult', ?_⟩
    have hend := Buffer.lineOf_lineEnd hlt hstop
    have hend' := Buffer.lineOf_lineEnd (Nat.lt_of_le_of_lt (Nat.sub_le last 1) hlt) hstop'
    have hcaretOnce : once.state.caret = stop := congrArg Buffer.caret hstate
    have hcaretTwice : twice.state.caret = stop' := congrArg Buffer.caret hstate'
    rw [hcaretOnce, hcaretTwice]
    by_contra hbehind
    have hmono := b.lineOf_le_lineOf (Int.not_lt.mp hbehind)
    omega
  · intro marker choice toggled hexists
    obtain ⟨-, -, -, -, -, -, -, -, hselects'⟩ := toggleComments_effect marker choice hcovered
    refine ⟨fun hsame => ?_, hselects'.coveredLines_of_filled hle hexists⟩
    by_contra hempty
    rw [not_or, not_not] at hempty
    rw [hselects'.coveredLines_of_empty (by omega) hexists hempty.2] at hsame
    have hlines := (Prod.mk.inj hsame).2
    omega

theorem extendToLines_again_mixedEnds :
    let once := extendToLines.run mixedEnds
    once.result = .ok (0, 5) ∧ (extendToLines.run once.state).result = .ok (0, 5) ∧
      (extendToLines.run once.state).state = once.state := by
  intro once
  have hresult : once.result = .ok (0, 5) := by decide +kernel
  obtain ⟨first, last, -, -, -, honce, -, hfilled, -⟩ :=
    extendToLines_again (show 0 ≤ mixedEnds.caret by decide) (show 0 ≤ mixedEnds.anchor by decide)
  obtain ⟨-, hlast⟩ := Prod.mk.inj (Except.ok.inj (honce.symm.trans hresult))
  obtain rfl : last = 5 := by omega
  obtain ⟨hsame, hstate⟩ := hfilled (.inr (by decide +kernel))
  exact ⟨hresult, hsame.trans hresult, hstate⟩

/-- An empty line between two others, with a selection that ends behind its return. -/
def emptyEnd : Buffer := (Buffer.ofText "a\n\nb".toList (some 8) false 2 1024).select 0 3

/-- Extending a selection to whole lines twice can give different lines. -/
theorem extendToLines_emptyEnd :
    let once := extendToLines.run emptyEnd
    (0 ≤ emptyEnd.anchor ∧ emptyEnd.caret ≤ emptyEnd.length) ∧ once.result = .ok (0, 1) ∧
      (extendToLines.run once.state).result = .ok (0, 0) ∧ (extendToLines.run once.state).state ≠ once.state := by
  refine ⟨by decide, by decide +kernel, by decide +kernel, by decide +kernel⟩

end ListingEditor.Region
