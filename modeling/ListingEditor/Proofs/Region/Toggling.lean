import ListingEditor.Proofs.Buffer.Uniform
import ListingEditor.Proofs.Region.Selecting
import ListingEditor.Proofs.Session.Balance

/-!
Commenting lines in and out, line by line. In a buffer whose lines all end alike each covered line is changed for
itself: what stands behind a line is never taken for a part of it, and no line comes to join another.
-/

namespace ListingEditor

open Buffer (IsEnding Unbroken Uniform leading trailing)

namespace Buffer

variable {b : Buffer} {ending : List Char} {front rear : List (List Char)} {line : List Char}

/-- Behind a line stands a return, or nothing. -/
theorem IsEnding.rowText_trailing (hending : IsEnding ending) (rear : List (List Char)) :
    rowText (trailing ending rear) = [] := by
  cases rear with
  | nil => rfl
  | cons next rear =>
    rw [trailing_cons, List.append_assoc]
    cases hending with
    | pair => rfl
    | single hreturn => exact List.takeWhile_cons_of_neg (by simp [hreturn])

/-- A text without a return that stands where a line starts belongs to the line. -/
theorem Uniform.range_lead_iff (huniform : b.Uniform ending (front ++ line :: rear)) {lead : List Char}
    (hlead : Unbroken lead) :
    b.range (leading ending front).length ((leading ending front).length + lead.length : Nat) = lead ↔
      lead.isPrefixOf line = true := by
  have htext := huniform.text
  rw [intercalate_split, List.append_assoc] at htext
  have hline : Unbroken line := huniform.unbroken line (by simp)
  rw [range, Text.slice_natCast, htext, List.take_length_add_append, List.drop_left, List.isPrefixOf_iff_prefix,
    eq_comm, ← List.prefix_iff_eq_take]
  refine ⟨fun hprefix => ?_, fun hprefix => hprefix.trans (List.prefix_append ..)⟩
  obtain ⟨rest, hrest⟩ := hprefix
  have hsame := congrArg rowText hrest
  rw [rowText_append hlead, rowText_append hline, huniform.isEnding.rowText_trailing, List.append_nil] at hsame
  exact ⟨rowText rest, hsame⟩

theorem Uniform.insertAt (huniform : b.Uniform ending (front ++ line :: rear)) {lead : List Char}
    (hlead : Unbroken lead) :
    (b.insertAt (leading ending front).length lead).Uniform ending (front ++ (lead ++ line) :: rear) := by
  have hline : b.Uniform ending (front ++ ([] ++ [] ++ line) :: rear) := huniform
  have hedited := hline.replaceRange hlead
  rw [List.append_nil, List.length_nil, Nat.add_zero, Buffer.replaceRange, b.erase_of_le (Int.le_refl _)] at hedited
  rw [Buffer.insertAt, if_neg (by omega)]
  exact hedited

end Buffer

namespace Region

/-- A line without a marker and a space at its front, or else without the marker. Any other line stays. -/
def uncommented (marker : Char) (line : List Char) : List Char :=
  if [marker, ' '].isPrefixOf line then line.drop 2
  else if [marker].isPrefixOf line then line.drop 1
  else line

/-- What becomes of a line that is commented in or out. -/
def toggled (marker : Char) (add : Bool) (line : List Char) : List Char :=
  if add then marker :: ' ' :: line else uncommented marker line

section

variable {b : Buffer} {ending : List Char} {front middle rear : List (List Char)} {line : List Char} {marker : Char}

theorem removeLead_uniform (huniform : b.Uniform ending (front ++ line :: rear)) {lead : List Char}
    (hlead : Unbroken lead) (hne : lead ≠ []) :
    ∃ removed b', (removeLead (leading ending front).length lead).effect b = (.ok removed, b') ∧
      b'.Uniform ending (front ++ (if lead.isPrefixOf line then line.drop lead.length else line) :: rear) := by
  obtain ⟨removed, heffect, hremoved⟩ := removeLead_effect b (leading ending front).length lead
  refine ⟨removed, _, heffect, ?_⟩
  rw [← Int.natCast_add, huniform.range_lead_iff hlead] at hremoved
  by_cases hprefix : lead.isPrefixOf line = true
  · obtain rfl := hremoved.mpr ⟨List.length_pos_of_ne_nil hne, hprefix⟩
    obtain ⟨rest, rfl⟩ := List.isPrefixOf_iff_prefix.mp hprefix
    have hnothing : Unbroken [] := nofun
    have hline : b.Uniform ending (front ++ ([] ++ lead ++ rest) :: rear) := huniform
    have hedited := hline.replaceRange hnothing
    rw [if_pos hprefix, List.drop_left]
    rw [List.append_nil] at hedited
    exact hedited
  · have hkept : removed = false := by
      rw [← Bool.not_eq_true, hremoved]
      exact fun hboth => hprefix hboth.2
    rw [if_neg hprefix, hkept]
    exact huniform

theorem commentLine_uniform (hmarker : Text.isSpace marker = false)
    (huniform : b.Uniform ending (front ++ line :: rear)) :
    ∃ b', (commentLine [marker] front.length).effect b = (.ok (), b') ∧
      b'.Uniform ending (front ++ (marker :: ' ' :: line) :: rear) :=
  ⟨_, Step.effect_bind_ask_of_ok (f := fun b : Buffer => b.lineStart front.length) huniform.lineStart_eq,
    huniform.insertAt (unbroken_lead hmarker)⟩

theorem uncommentLine_uniform (hmarker : Text.isSpace marker = false)
    (huniform : b.Uniform ending (front ++ line :: rear)) :
    ∃ b', (uncommentLine [marker] front.length).effect b = (.ok (), b') ∧
      b'.Uniform ending (front ++ uncommented marker line :: rear) := by
  have hlead : Unbroken [marker, ' '] := unbroken_lead hmarker
  have hsingle : Unbroken [marker] := fun c hc => hlead c (by simp [List.mem_singleton.mp hc])
  have hthere : b.range (leading ending front).length ((leading ending front).length + 2) = [marker] ++ [' '] ↔
      [marker, ' '].isPrefixOf line = true := huniform.range_lead_iff hlead
  rw [uncommentLine,
    Step.effect_bind_ask_of_ok (f := fun b : Buffer => b.lineStart front.length) huniform.lineStart_eq,
    Step.effect_bind_look, uncommented]
  by_cases hprefix : [marker, ' '].isPrefixOf line = true
  · obtain ⟨removed, b', heffect, hedited⟩ := removeLead_uniform huniform hlead (List.cons_ne_nil _ _)
    rw [if_pos hprefix] at hedited ⊢
    dsimp only
    rw [if_pos (hthere.mpr hprefix)]
    exact ⟨b', Step.effect_bind_of_ok heffect, hedited⟩
  · obtain ⟨removed, b', heffect, hedited⟩ := removeLead_uniform huniform hsingle (List.cons_ne_nil _ _)
    rw [if_neg hprefix]
    dsimp only
    rw [if_neg (mt hthere.mp hprefix)]
    exact ⟨b', Step.effect_bind_of_ok heffect, hedited⟩

theorem changeLine_uniform (hmarker : Text.isSpace marker = false) (add : Bool)
    (huniform : b.Uniform ending (front ++ line :: rear)) :
    ∃ b', (changeLine [marker] add front.length).effect b = (.ok (), b') ∧
      b'.Uniform ending (front ++ toggled marker add line :: rear) := by
  cases add
  · exact uncommentLine_uniform hmarker huniform
  · exact commentLine_uniform hmarker huniform

/-- Lines are commented in or out one by one. -/
theorem forLines_changeLine (hmarker : Text.isSpace marker = false) (add : Bool)
    (huniform : b.Uniform ending (front ++ middle ++ rear)) :
    ∃ b', (Command.forLines front.length middle.length (changeLine [marker] add)).effect b = (.ok (), b') ∧
      b'.Uniform ending (front ++ middle.map (toggled marker add) ++ rear) := by
  induction middle generalizing front b with
  | nil => exact ⟨b, rfl, huniform⟩
  | cons line middle ih =>
    rw [List.append_assoc, List.cons_append] at huniform
    obtain ⟨b₁, hfirst, hedited⟩ := changeLine_uniform hmarker add huniform
    rw [← List.singleton_append, ← List.append_assoc, ← List.append_assoc] at hedited
    obtain ⟨b₂, hrest, hdone⟩ := ih hedited
    rw [List.length_append, List.length_singleton, Int.natCast_add] at hrest
    rw [List.append_assoc front, List.singleton_append, ← List.map_cons] at hdone
    exact ⟨b₂, (Step.effect_bind_of_ok hfirst).trans hrest, hdone⟩

theorem needsComments_uniform (marker : List Char) (huniform : b.Uniform ending (front ++ middle ++ rear)) :
    needsComments marker b front.length middle.length = .ok (middle.any fun line => !isCommented marker line) := by
  induction middle generalizing front with
  | nil => rfl
  | cons line middle ih =>
    have hline := huniform
    rw [List.append_assoc, List.cons_append] at hline
    have hrest := huniform
    rw [← List.singleton_append, ← List.append_assoc] at hrest
    have hlater := ih hrest
    rw [List.length_append, List.length_singleton, Int.natCast_add] at hlater
    rw [List.length_cons, needsComments, hline.lineText_eq]
    dsimp only
    by_cases hcommented : isCommented marker line = true
    · rw [if_pos hcommented, List.any_cons, hcommented]
      exact hlater
    · rw [if_neg hcommented, List.any_cons, Bool.eq_false_iff.mpr hcommented]
      rfl

end

theorem isCommented_eq_false_iff {marker : Char} {line : List Char} :
    isCommented [marker] line = false ↔ Text.isAllSpace line = false ∧ line.head? ≠ some marker := by
  have hprefix : [marker].isPrefixOf line = true ↔ line.head? = some marker := by
    rw [List.isPrefixOf_iff_prefix, List.head?_eq_some_iff]
    exact ⟨fun ⟨rest, hrest⟩ => ⟨rest, hrest.symm⟩, fun ⟨rest, hrest⟩ => ⟨rest, hrest.symm⟩⟩
  rw [isCommented, Bool.or_eq_false_iff, ← Bool.not_eq_true ([marker].isPrefixOf line), hprefix]

/-- Commenting lines in and out. The lines that the selection covers are commented in if that is asked for, or if
nothing is asked for and one of them is neither blank nor commented. Each of them is changed for itself, the others
stay what they are, and the lines are selected from the start of the first to the end of the last. All of it is one
group of changes. -/
theorem toggleComments_lines {b : Buffer} {ending : List Char} {lines : List (List Char)}
    (huniform : b.Uniform ending lines) (hcaret : 0 ≤ b.caret) (hanchor : 0 ≤ b.anchor) {marker : Char}
    (hmarker : Text.isSpace marker = false) (choice : Option Bool) :
    let outcome := (toggleComments [marker] choice).run b
    ∃ (front middle rear : List (List Char)) (last : Nat) (add : Bool),
      lines = front ++ middle ++ rear ∧ last + 1 = (front ++ middle).length ∧
      (∀ line, Covers b line ↔ front.length ≤ line ∧ line ≤ last) ∧ outcome.result = .ok add ∧
      (choice = some add ∨ choice = none ∧ (add = true ↔
        ∃ line ∈ middle, Text.isAllSpace line = false ∧ line.head? ≠ some marker)) ∧
      outcome.state.Uniform ending (front ++ middle.map (toggled marker add) ++ rear) ∧
      Selects outcome.state front.length last ∧ outcome.state.undoLevel = b.undoLevel ∧
      (b.undoLevel = 0 → outcome.state.undoActions = b.undoActions + 1) := by
  intro outcome
  obtain ⟨first, last, hcovered, hle, hlt⟩ := coveredLines_eq hcaret hanchor
  rw [← Buffer.lineCount, huniform.lineCount_eq] at hlt
  obtain ⟨front, middle, rear, rfl, rfl, hlast⟩ := exists_split hle hlt
  obtain ⟨inner, changed, add, hinner, hdecision, hloop, hresult, hstate, hselects⟩ :=
    toggleComments_effect [marker] choice hcovered
  have hopened : inner.Uniform ending (front ++ middle ++ rear) := huniform.of_text hinner
  rw [lineSpan_eq hlast] at hdecision hloop
  obtain ⟨changed', hloop', hchanged⟩ := forLines_changeLine hmarker add hopened
  obtain rfl := (Prod.mk.inj (hloop.symm.trans hloop')).2
  obtain ⟨hlevel, hactions, -⟩ := edits_toggleComments [marker] choice b
  refine ⟨front, middle, rear, last, add, rfl, by rw [List.length_append, hlast],
    covers_iff hcaret hanchor hcovered, hresult, ?_, hchanged.of_text hstate, hselects, hlevel, ?_⟩
  · refine hdecision.imp_right fun hasked => ⟨hasked.1, ?_⟩
    have hneeds := hasked.2
    rw [needsComments_uniform [marker] hopened] at hneeds
    rw [← Except.ok.inj hneeds, List.any_eq_true]
    simp only [Bool.not_eq_true', isCommented_eq_false_iff]
  · intro hzero
    rw [if_pos hzero] at hactions
    exact hactions

/-- Two comments and an empty line that are selected from the end, and a line that is not. -/
def commentedRows : Buffer := (Buffer.ofText "#a\r\n# b\r\n\r\nc".toList (some 8) false 0 1024).select 10 1

theorem toggleComments_lines_commentedRows :
    let outcome := (toggleComments ['#'] none).run commentedRows
    outcome.result = .ok false ∧ outcome.state.text = "a\r\nb\r\n\r\nc".toList ∧
      outcome.state.undoActions = 1 := by
  intro outcome
  have huniform : commentedRows.Uniform ['\r', '\n'] ["#a".toList, "# b".toList, [], "c".toList] :=
    ⟨by decide, by decide, .pair, by decide⟩
  have hcaret : 0 ≤ commentedRows.caret := by decide
  have hanchor : 0 ≤ commentedRows.anchor := by decide
  have hcovered : coveredLines commentedRows = (↑(0 : Nat), ↑(2 : Nat)) := by decide +kernel
  obtain ⟨front, middle, rear, last, add, hlines, hlast, hcovers, hresult, -, hstate, -, -, hactions⟩ :=
    toggleComments_lines huniform hcaret hanchor (show Text.isSpace '#' = false by decide) none
  have hregion (line : Nat) := (hcovers line).symm.trans (covers_iff hcaret hanchor hcovered line)
  have hfirst := (hregion 0).mpr (by omega)
  have htwo := (hregion 2).mpr (by omega)
  have hend := (hregion last).mp (by omega)
  obtain rfl : front = [] := List.eq_nil_of_length_eq_zero (by omega)
  obtain rfl : last = 2 := by omega
  rw [List.nil_append] at hlines hlast
  obtain ⟨rfl, rfl⟩ := List.append_inj
    (show ["#a".toList, "# b".toList, []] ++ ["c".toList] = middle ++ rear from hlines) (by simpa using hlast)
  have hadd : outcome.result = .ok false := by decide +kernel
  obtain rfl := Except.ok.inj (hresult.symm.trans hadd)
  exact ⟨hadd, hstate.text.trans (by decide), hactions rfl⟩

end Region

end ListingEditor
