import ListingEditor.Proofs.Buffer.Lines
import ListingEditor.Proofs.Highlight.Painting
import ListingEditor.Proofs.Step
import Mathlib.Data.List.TakeWhile

/-!
What one request to style a listing does: it goes back to the start of a line and paints from there, as far as
the runs fit.
-/

namespace ListingEditor.Highlighter

open Buffer (StartsLine)

/-- Styling begins where the line of the position starts. -/
theorem adjustStart_listing (marker : List Char) (sourceInComments : Bool) {b : Buffer} {width : Int}
    (hwidth : b.tabWidth = some width) (hpositive : 1 ≤ width) {place : Nat} (hplace : place ≤ b.text.length) :
    ∃ front rear, b.text = front ++ rear ∧ StartsLine front rear ∧ front.length ≤ place ∧
      adjustStart (.listing marker sourceInComments) b place = .ok front.length := by
  obtain ⟨line, start, hline, hget, hstart, hle⟩ := b.lineStart_lineOf (Int.natCast_nonneg place)
  obtain ⟨front, rear, htext, rfl, hstarts⟩ :=
    Buffer.startsLine_of_mem_lineStarts (List.mem_of_getElem? hget)
  have hle : front.length ≤ place := Int.ofNat_le.mp hle
  have hrange : b.range front.length place = (b.text.take place).drop front.length :=
    Text.slice_natCast ..
  obtain ⟨column, hcolumn, hgrows⟩ :=
    Buffer.columnBehind_grows hpositive ((b.text.take place).drop front.length)
  rw [List.length_drop, List.length_take, Nat.min_eq_left hplace] at hgrows
  rw [← hrange] at hcolumn
  have hof : b.columnOf place = .ok column := by
    rw [Buffer.columnOf, hline, hstart, hwidth]
    exact hcolumn
  refine ⟨front, rear, htext, hstarts, hle, ?_⟩
  rw [adjustStart, hof]
  by_cases hzero : column = 0
  · -- nothing lies between the line's start and the position
    have heq : place = front.length := by omega
    simp only [hzero, if_true, heq]
  · simp only [hzero, if_false, hline, hstart]
    rfl

/-- At the start of a line no tab has to be measured. -/
theorem adjustStart_of_mem_lineStarts (marker : List Char) (sourceInComments : Bool) {b : Buffer} {start : Nat}
    (hmem : start ∈ Buffer.lineStarts b.text) :
    adjustStart (.listing marker sourceInComments) b start = .ok start := by
  have hrange : b.range start start = [] := by
    rw [Buffer.range, Text.slice_natCast, List.drop_eq_nil_of_le (List.length_take_le ..)]
  have hcolumn : b.columnOf start = .ok 0 := by
    rw [Buffer.columnOf, Buffer.lineStart_of_mem_lineStarts hmem]
    simp only [hrange]
    rfl
  rw [adjustStart, hcolumn]
  rfl

variable {highlighter : Highlighter} {b : Buffer} {start stop first : Int}

/-- A request paints the runs that fit and fails at the first one that does not. -/
theorem styleText_effect (stop : Int) (hfirst : highlighter.adjustStart b start = .ok first) :
    (highlighter.styleText start stop).effect b =
      (((highlighter.runs b first stop).findSome? fun run => b.countFault? run.count).elim
          (.ok ()) .error,
        paintRuns b ((highlighter.runs b first stop).takeWhile (StyleRun.fits b))) := by
  rw [styleText, Step.effect_bind_report,
    Step.effect_bind_ask_of_ok (f := (highlighter.adjustStart · start)) hfirst, Step.effect_bind_look,
    Step.effect_bind_look, Step.effect_bind_change]
  split
  · rename_i e hfault
    rw [hfault]
    rfl
  · rename_i hfault
    rw [hfault]
    rfl

theorem styleText_state (hfirst : highlighter.adjustStart b start = .ok first) :
    ((highlighter.styleText start stop).run b).state =
      paintRuns b ((highlighter.runs b first stop).takeWhile (StyleRun.fits b)) :=
  congrArg Prod.snd (styleText_effect stop hfirst)

theorem styleText_result (hfirst : highlighter.adjustStart b start = .ok first) :
    ((highlighter.styleText start stop).run b).result = .ok () ↔
      ∀ run ∈ highlighter.runs b first stop, StyleRun.fits b run = true := by
  have hresult := congrArg Prod.fst (styleText_effect stop hfirst)
  change ((highlighter.styleText start stop).run b).result = _ at hresult
  rw [hresult]
  cases hfaults : (highlighter.runs b first stop).findSome? fun run => b.countFault? run.count with
  | some e =>
    obtain ⟨run, hmem, hfault⟩ := List.exists_of_findSome?_eq_some hfaults
    refine ⟨nofun, fun hall => ?_⟩
    have hfits := hall run hmem
    rw [StyleRun.fits, hfault] at hfits
    cases hfits
  | none =>
    refine ⟨fun _ run hmem => ?_, fun _ => rfl⟩
    rw [StyleRun.fits, List.findSome?_eq_none_iff.mp hfaults run hmem]
    rfl

theorem fits_of_le {run : StyleRun} (hpositive : 0 < run.count) (hle : run.count ≤ b.room) :
    StyleRun.fits b run = true := by
  rw [StyleRun.fits, Buffer.countFault?_eq_none (Int.le_of_lt hpositive) hle]
  rfl

/-- The runs of a stretch of a listing follow each other and carry the styles of its text. -/
theorem runs_listing (marker : Char) (sourceInComments : Bool) (b : Buffer) {start stop : Nat}
    (hle : start ≤ stop) (hstop : stop ≤ b.text.length) :
    Consecutive start stop (runs (.listing [marker] sourceInComments) b start stop) ∧
      runStyles (runs (.listing [marker] sourceInComments) b start stop) =
        textStyles marker sourceInComments ((b.text.take stop).drop start) := by
  have hruns : runs (.listing [marker] sourceInComments) b start stop =
      runsBetween start stop
        (Listing.classifyText [marker] sourceInComments start ((b.text.take stop).drop start)) := by
    rw [← Text.slice_natCast]
    rfl
  have hlength : (start : Int) + ((b.text.take stop).drop start).length = stop := by
    rw [List.length_drop, List.length_take]
    omega
  have hordered := classifyText_ordered marker sourceInComments start ((b.text.take stop).drop start)
  have hstyles := spanStyles_classifyText marker sourceInComments start ((b.text.take stop).drop start)
  rw [hlength] at hordered hstyles
  rw [hruns]
  exact ⟨runsBetween_consecutive hordered, hstyles⟩

/-- A text for which there is memory can be styled. -/
theorem styleText_result_of_le {marker : Char} {sourceInComments : Bool} {first stop : Nat}
    (hfirst : adjustStart (.listing [marker] sourceInComments) b start = .ok first)
    (hstart : first ≤ stop) (hstop : stop ≤ b.text.length) (hmemory : b.text.length ≤ b.room) :
    ((styleText (.listing [marker] sourceInComments) start stop).run b).result = .ok () := by
  rw [styleText_result hfirst]
  intro run hrun
  have hruns := (runs_listing marker sourceInComments b hstart hstop).1
  obtain ⟨hpositive, hcount⟩ := hruns.count_le run hrun
  exact fits_of_le hpositive (by omega)

/-- Painting the runs that fit gives the first styles of all runs. -/
theorem runStyles_takeWhile {start stop : Int} {runs : List StyleRun} (kind : StyleRun → Bool)
    (hruns : Consecutive start stop runs) :
    ∃ middle, Consecutive start middle (runs.takeWhile kind) ∧ middle ≤ stop ∧
      runStyles (runs.takeWhile kind) = (runStyles runs).take (middle - start).toNat ∧
      ((∀ run ∈ runs, kind run = true) → middle = stop) := by
  rw [← List.takeWhile_append_dropWhile (p := kind) (l := runs)] at hruns
  obtain ⟨middle, hfront, hrear⟩ := hruns.split
  refine ⟨middle, hfront, hrear.le, ?_, fun hall => ?_⟩
  · have happend : runStyles runs =
        runStyles (runs.takeWhile kind) ++ runStyles (runs.dropWhile kind) := by
      rw [runStyles, runStyles, runStyles, ← List.flatMap_append, List.takeWhile_append_dropWhile]
    rw [happend, List.take_left' hfront.runStyles_length]
  · have hnone : runs.dropWhile kind = [] := List.dropWhile_eq_nil_iff.mpr hall
    rw [hnone] at hrear
    exact hrear

/-- A request paints a part of its stretch, and all of it unless it fails. -/
theorem styleText_painted {marker : Char} {sourceInComments : Bool} {b : Buffer} {start : Int} {first stop : Nat}
    (hfirst : adjustStart (.listing [marker] sourceInComments) b start = .ok first)
    (hcovers : b.styles.length = b.text.length) (hstart : first ≤ stop) (hstop : stop ≤ b.text.length) :
    ∃ middle : Nat, first ≤ middle ∧ middle ≤ stop ∧
      ((styleText (.listing [marker] sourceInComments) start stop).run b).state =
        { b with
          styles := b.styles.take first ++
            (textStyles marker sourceInComments ((b.text.take stop).drop first)).take (middle - first) ++
            b.styles.drop middle
          endStyled := if first < middle then max b.endStyled middle else b.endStyled } ∧
      (((styleText (.listing [marker] sourceInComments) start stop).run b).result = .ok () →
        middle = stop) := by
  obtain ⟨hruns, hstyles⟩ := runs_listing marker sourceInComments b hstart hstop
  obtain ⟨middle, hpainted, hmiddle, hprefix, hall⟩ := runStyles_takeWhile (StyleRun.fits b) hruns
  obtain ⟨middle, rfl⟩ := Int.eq_ofNat_of_zero_le (show 0 ≤ middle by have := hpainted.le; omega)
  have hle : first ≤ middle := Int.ofNat_le.mp hpainted.le
  have hmiddle : middle ≤ stop := Int.ofNat_le.mp hmiddle
  have hcount : ((middle : Int) - first).toNat = middle - first := by omega
  refine ⟨middle, hle, hmiddle, ?_, fun hok => Int.ofNat.inj (hall ((styleText_result hfirst).mp hok))⟩
  rw [styleText_state hfirst, paintRuns_eq hpainted (by omega), hprefix, hstyles, hcount]

/-- A request that goes back to text with the right styles gives the right styles to a part of the text up to
`stop`, and to all of it unless it fails. -/
theorem styleText_listing {marker : Char} {sourceInComments : Bool} {b : Buffer} {front rear : List Char}
    {start : Int} {stop : Nat} (htext : b.text = front ++ rear) (hends : Text.EndsLine front)
    (hfirst : adjustStart (.listing [marker] sourceInComments) b start = .ok front.length)
    (hcovers : b.styles.length = b.text.length) (hstyled : front.length ≤ b.endStyled)
    (hfront : b.styles.take front.length = textStyles marker sourceInComments front)
    (hstart : front.length ≤ stop) (hstop : stop ≤ b.text.length) :
    ∃ middle : Nat, middle ≤ stop ∧
      ((styleText (.listing [marker] sourceInComments) start stop).run b).state =
        { b with
          styles := (textStyles marker sourceInComments (b.text.take stop)).take middle ++
            b.styles.drop middle
          endStyled := max b.endStyled middle } ∧
      (((styleText (.listing [marker] sourceInComments) start stop).run b).result = .ok () →
        middle = stop) := by
  obtain ⟨middle, hle, hmiddle, hstate, hall⟩ := styleText_painted hfirst hcovers hstart hstop
  refine ⟨middle, hmiddle, ?_, hall⟩
  have hsplit : b.text.take stop = front ++ (b.text.take stop).drop front.length := by
    have htake : b.text.take front.length = front := by rw [htext, List.take_left]
    rw [Text.take_eq_append_drop b.text hstart, htake, List.drop_left]
  have hwhole : (textStyles marker sourceInComments (b.text.take stop)).take middle =
      b.styles.take front.length ++
        (textStyles marker sourceInComments ((b.text.take stop).drop front.length)).take (middle - front.length) := by
    rw [hsplit, textStyles_append _ _ _ hends, List.take_append, textStyles_length, ← hsplit,
      List.take_of_length_le (by rw [textStyles_length]; omega), hfront]
  have hend : (if front.length < middle then max b.endStyled middle else b.endStyled) = max b.endStyled middle := by
    split <;> omega
  rw [hstate, hwhole, hend]

end ListingEditor.Highlighter
