import ListingEditor.Proofs.Highlight.Styles
import ListingEditor.Proofs.Text.Slice

/-!
Painting runs that follow each other without a gap overwrites the styles of the stretch they cover, and of
nothing else.
-/

namespace ListingEditor.Highlighter

open Listing (Span Ordered)

/-- Runs that follow each other without a gap from one place to another. -/
def Consecutive (start stop : Int) : List StyleRun → Prop
  | [] => start = stop
  | run :: runs => run.start = start ∧ 0 < run.count ∧ Consecutive (start + run.count) stop runs

theorem Consecutive.le {start stop : Int} {runs : List StyleRun} (hruns : Consecutive start stop runs) :
    start ≤ stop := by
  induction runs generalizing start with
  | nil => exact Int.le_of_eq hruns
  | cons run runs ih =>
    have hle := ih hruns.2.2
    have hpositive := hruns.2.1
    omega

theorem Consecutive.count_le {start stop : Int} {runs : List StyleRun}
    (hruns : Consecutive start stop runs) : ∀ run ∈ runs, 0 < run.count ∧ run.count ≤ stop - start := by
  induction runs generalizing start with
  | nil => exact nofun
  | cons first runs ih =>
    obtain ⟨_, hpositive, hrest⟩ := hruns
    have hle := hrest.le
    intro run hrun
    rcases List.mem_cons.mp hrun with rfl | hmem
    · exact ⟨hpositive, by omega⟩
    · obtain ⟨hcount, hbound⟩ := ih hrest run hmem
      exact ⟨hcount, by omega⟩

theorem Consecutive.split {start stop : Int} {front rear : List StyleRun}
    (hruns : Consecutive start stop (front ++ rear)) :
    ∃ middle, Consecutive start middle front ∧ Consecutive middle stop rear := by
  induction front generalizing start with
  | nil => exact ⟨start, rfl, hruns⟩
  | cons run front ih =>
    obtain ⟨hstart, hpositive, hrest⟩ := hruns
    obtain ⟨middle, hfront, hrear⟩ := ih hrest
    exact ⟨middle, ⟨hstart, hpositive, hfront⟩, hrear⟩

theorem Consecutive.runStyles_length {start stop : Int} {runs : List StyleRun}
    (hruns : Consecutive start stop runs) : (runStyles runs).length = (stop - start).toNat := by
  induction runs generalizing start with
  | nil =>
    have heq : start = stop := hruns
    rw [heq, Int.sub_self]
    rfl
  | cons run runs ih =>
    obtain ⟨_, hpositive, hrest⟩ := hruns
    have hle := hrest.le
    have htail := ih hrest
    simp only [runStyles, List.flatMap_cons, List.length_append, List.length_replicate] at htail ⊢
    omega

theorem Consecutive.cons {start middle stop : Int} {runs : List StyleRun} (style : Nat)
    (hlt : start < middle) (hruns : Consecutive middle stop runs) :
    Consecutive start stop (⟨start, middle - start, style⟩ :: runs) := by
  have hmiddle : start + (middle - start) = middle := by omega
  refine ⟨rfl, Int.sub_pos.mpr hlt, ?_⟩
  rwa [hmiddle]

theorem runsBetween_consecutive {start stop : Int} {spans : List Span}
    (hordered : Ordered start stop spans) : Consecutive start stop (runsBetween start stop spans) := by
  induction spans generalizing start with
  | nil =>
    have hle := hordered.le
    unfold runsBetween
    split
    · rename_i hlt
      exact .cons 0 hlt rfl
    · change start = stop
      omega
  | cons span spans ih =>
    obtain ⟨hstart, hproper, hrest⟩ := hordered
    have hspan := (ih hrest).cons span.category.style hproper
    unfold runsBetween
    split
    · rename_i hlt
      exact hspan.cons 0 hlt
    · have heq : span.start = start := by omega
      rwa [← heq]

/-- Painting a stretch. What counts as styled goes at least to its end, unless it is empty. -/
theorem paintRuns_eq {start stop : Nat} {runs : List StyleRun} {b : Buffer}
    (hruns : Consecutive start stop runs) (hstop : stop ≤ b.styles.length) :
    paintRuns b runs =
      { b with
        styles := b.styles.take start ++ runStyles runs ++ b.styles.drop stop
        endStyled := if start < stop then max b.endStyled stop else b.endStyled } := by
  induction runs generalizing b start with
  | nil =>
    have heq : start = stop := Int.ofNat.inj hruns
    subst heq
    simp [paintRuns, runStyles]
  | cons run runs ih =>
    obtain ⟨hstart, hpositive, hrest⟩ := hruns
    obtain ⟨count, hcount⟩ := Int.eq_ofNat_of_zero_le (Int.le_of_lt hpositive)
    rw [hcount] at hrest
    have hend : (start : Int) + count ≤ stop := hrest.le
    have hpaint : b.paint start count run.style =
        { b with
          styles := b.styles.take start ++ List.replicate count run.style ++ b.styles.drop (start + count)
          endStyled := max b.endStyled (start + count : Nat) } := by
      have hsplice := Text.splice_natCast b.styles (List.replicate count run.style)
        (Nat.le_add_right start count)
      rw [Buffer.paint, ← hsplice]
      rfl
    have hfold : paintRuns b (run :: runs) = paintRuns (b.paint start count run.style) runs := by
      rw [paintRuns, List.foldl_cons, if_pos hpositive, hstart, hcount, Int.toNat_natCast]
      rfl
    have hlength : (b.styles.take start ++ List.replicate count run.style).length = start + count := by
      rw [List.length_append, List.length_take, List.length_replicate]
      omega
    have hdrop : (b.styles.take start ++ List.replicate count run.style ++
        b.styles.drop (start + count)).drop stop = b.styles.drop stop := by
      rw [List.drop_append, List.drop_eq_nil_of_le (by omega), List.nil_append, hlength, List.drop_drop]
      congr 1
      omega
    have hstyles : runStyles (run :: runs) = List.replicate count run.style ++ runStyles runs := by
      rw [runStyles, List.flatMap_cons, hcount, Int.toNat_natCast]
      rfl
    rw [hfold, hpaint, ih hrest, if_pos (show start < stop by omega)]
    · simp only [Buffer.mk.injEq, true_and, and_true]
      refine ⟨?_, by split <;> omega⟩
      rw [List.take_left' hlength, hdrop, hstyles]
      simp only [List.append_assoc]
    · rw [List.length_append, hlength, List.length_drop]
      omega

end ListingEditor.Highlighter
