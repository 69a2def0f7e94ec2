import ListingEditor.Proofs.Indent.Lines
import ListingEditor.Proofs.Indent.Simulation
import ListingEditor.Proofs.Mapping
import ListingEditor.Proofs.Region.Commenting

/-!
Reindenting the lines of a selection. The lines that are selected afterwards reach from the line that has come to hold
the old start of the selection to the last line that was reindented.
-/

namespace ListingEditor

open Buffer (Uniform leading)
open Indent (Columns)
open Preference (Settings)

section Results

variable {α ε : Type}

/-- Elements that are changed one by one, up to the first that cannot be. That one and those behind it stay. -/
inductive ChangedUpTo (change : α → Except ε α) : List α → Except ε Unit → List α → Prop where
  | nil : ChangedUpTo change [] (.ok ()) []
  | cons {a b : α} {l l' : List α} {result : Except ε Unit} (hfirst : change a = .ok b)
      (hrest : ChangedUpTo change l result l') : ChangedUpTo change (a :: l) result (b :: l')
  | stop {a : α} {e : ε} (hfails : change a = .error e) (l : List α) :
      ChangedUpTo change (a :: l) (.error e) (a :: l)

theorem ChangedUpTo.mapM_eq {change : α → Except ε α} {l l' : List α} {result : Except ε Unit}
    (hchanged : ChangedUpTo change l result l') : l.mapM change = result.map fun _ => l' := by
  induction hchanged with
  | nil => rfl
  | @cons a b l l' result hfirst _ ih =>
    rw [mapM_cons_of_ok hfirst, ih]
    cases result <;> rfl
  | stop hfails l => exact mapM_cons_of_error hfails

end Results

/-- A command that changes one of many lines, or fails and changes nothing, changes them one by one. -/
theorem Command.forLines_changedUpTo {command : Int → Command Unit} {change : List Char → Except EditError (List Char)}
    (Holds : List (List Char) → Buffer → Prop)
    (hok : ∀ {front rear : List (List Char)} {line new : List Char} {b : Buffer}, Holds (front ++ line :: rear) b →
      change line = .ok new → ∃ b', (command front.length).effect b = (.ok (), b') ∧ Holds (front ++ new :: rear) b')
    (herror : ∀ {front rear : List (List Char)} {line : List Char} {b : Buffer} {e : EditError},
      Holds (front ++ line :: rear) b → change line = .error e → (command front.length).effect b = (.error e, b))
    {front middle rear : List (List Char)} {b : Buffer} (hholds : Holds (front ++ middle ++ rear) b) :
    ∃ result new b', (Command.forLines front.length middle.length command).effect b = (result, b') ∧
      ChangedUpTo change middle result new ∧ Holds (front ++ new ++ rear) b' := by
  induction middle generalizing front b with
  | nil => exact ⟨.ok (), [], b, rfl, .nil, hholds⟩
  | cons line middle ih =>
    have hline := hholds
    rw [List.append_assoc, List.cons_append] at hline
    cases hnew : change line with
    | error e =>
      exact ⟨.error e, line :: middle, b, Step.effect_bind_of_error (herror hline hnew), .stop hnew middle, hholds⟩
    | ok new =>
      obtain ⟨b₁, hfirst, hchanged⟩ := hok hline hnew
      rw [← List.singleton_append, ← List.append_assoc, ← List.append_assoc] at hchanged
      obtain ⟨result, lines, b₂, hloop, hlines, hdone⟩ := ih hchanged
      rw [List.length_append, List.length_singleton, Int.natCast_add] at hloop
      rw [List.append_assoc front, List.singleton_append] at hdone
      exact ⟨result, new :: lines, b₂, (Step.effect_bind_of_ok hfirst).trans hloop, .cons hnew hlines, hdone⟩

namespace Region

/-- Reindents one of many lines. -/
def reindentEach (columns : Columns) (line : Int) : Command Unit := do
  let _ ← Indenter.reindentLine (.listing columns) line

section Loop

variable {columns : Columns} {b : Buffer} {ending : List Char} {front middle rear : List (List Char)}
  {line : List Char}

theorem reindentEach_of_error {e : EditError} (huniform : b.Uniform ending (front ++ line :: rear))
    (hnew : columns.reindented b line = .error e) :
    (reindentEach columns front.length).effect b = (.error e, b) :=
  Step.effect_bind_of_error (Indenter.reindentLine_uniform_of_error huniform (Columns.reindented_eq_error hnew))

theorem reindentEach_of_ok {new : List Char} (huniform : b.Uniform ending (front ++ line :: rear))
    (hnew : columns.reindented b line = .ok new) :
    ∃ b', (reindentEach columns front.length).effect b = (.ok (), b') ∧
      b'.Uniform ending (front ++ new :: rear) ∧ b'.layout = b.layout := by
  obtain ⟨blanks, hblanks, rfl⟩ := Columns.reindented_eq_ok hnew
  obtain ⟨b', heffect, hedited, hlayout⟩ := Indenter.reindentLine_uniform_of_ok huniform hblanks
  exact ⟨b', Step.effect_bind_of_ok heffect, hedited, hlayout⟩

/-- What can be said about the lines of a buffer from their texts, and follows each line that is reindented. -/
structure Tracks (columns : Columns) (Holds : List (List Char) → Buffer → Prop) : Prop where
  of_text : ∀ {lines : List (List Char)} {b b' : Buffer}, Holds lines b → b'.text = b.text → Holds lines b'
  of_ok : ∀ {front rear : List (List Char)} {line new : List Char} {b : Buffer}, Holds (front ++ line :: rear) b →
    columns.reindented b line = .ok new → ∃ b', (reindentEach columns front.length).effect b = (.ok (), b') ∧
      Holds (front ++ new :: rear) b' ∧ b'.layout = b.layout
  of_error : ∀ {front rear : List (List Char)} {line : List Char} {b : Buffer} {e : EditError},
    Holds (front ++ line :: rear) b → columns.reindented b line = .error e →
      (reindentEach columns front.length).effect b = (.error e, b)

theorem tracks_uniform (columns : Columns) (ending : List Char) :
    Tracks columns fun lines b => b.Uniform ending lines where
  of_text huniform htext := huniform.of_text htext
  of_ok huniform hnew := reindentEach_of_ok huniform hnew
  of_error huniform hnew := reindentEach_of_error huniform hnew

/-- Lines are reindented one by one, up to the first that has no indentation. -/
theorem Tracks.forLines {Holds : List (List Char) → Buffer → Prop} (htracks : Tracks columns Holds)
    (hholds : Holds (front ++ middle ++ rear) b) :
    ∃ result new b', (Command.forLines front.length middle.length (reindentEach columns)).effect b = (result, b') ∧
      ChangedUpTo (columns.reindented b) middle result new ∧ Holds (front ++ new ++ rear) b' ∧
      b'.layout = b.layout := by
  -- what a line gets depends on the layout only, which the lines before have not changed
  refine Command.forLines_changedUpTo (fun lines b' => Holds lines b' ∧ b'.layout = b.layout) (fun hline hnew => ?_)
    (fun hline hnew => ?_) ⟨hholds, rfl⟩
  · rw [← Columns.reindented_of_layout hline.2] at hnew
    obtain ⟨b', heffect, hchanged, hlayout⟩ := htracks.of_ok hline.1 hnew
    exact ⟨b', heffect, hchanged, hlayout.trans hline.2⟩
  · rw [← Columns.reindented_of_layout hline.2] at hnew
    exact htracks.of_error hline.1 hnew

end Loop

/-- A selection that reaches from one line to another, both included. -/
structure Spans (b : Buffer) (ending : List Char) (front middle rear : List (List Char)) : Prop where
  uniform : b.Uniform ending (front ++ middle ++ rear)
  start : (leading ending front).length ≤ b.selection.1
  selected : b.selection.1 < b.selection.2
  first : b.lineOf b.selection.1 = front.length
  last : b.lineOf b.selection.2 + 1 = (front ++ middle).length

section Selection

variable {columns : Columns} {b : Buffer} {ending : List Char} {front middle rear : List (List Char)}

theorem exists_spans {lines : List (List Char)} (huniform : b.Uniform ending lines) (hanchor : 0 ≤ b.anchor)
    (hcaret : 0 ≤ b.caret) (hselected : b.anchor ≠ b.caret) :
    ∃ front middle rear, lines = front ++ middle ++ rear ∧ Spans b ending front middle rear := by
  have hlt : b.selection.1 < b.selection.2 := by
    simp only [Buffer.selection]
    omega
  have hpositive : 0 ≤ b.selection.1 := Int.le_min.mpr ⟨hanchor, hcaret⟩
  obtain ⟨start, hstart⟩ := Int.eq_ofNat_of_zero_le hpositive
  obtain ⟨stop, hstop⟩ := Int.eq_ofNat_of_zero_le (Int.le_of_lt (Int.lt_of_le_of_lt hpositive hlt))
  obtain ⟨front, line, rest, hsplit, hfrom, -, hfirst⟩ := huniform.exists_line start
  obtain ⟨front', line', rear, hsplit', -, -, hlast⟩ := huniform.exists_line stop
  rw [← Int.ofNat_le, ← hstart] at hfrom
  rw [← hstart] at hfirst
  rw [← hstop] at hlast
  have hle := b.lineOf_le_lineOf (Int.le_of_lt hlt)
  -- the lines up to the end of the selection begin with those in front of it
  obtain ⟨middle, hmiddle⟩ : front <+: front' ++ [line'] := by
    have hfront : front <+: lines := ⟨_, hsplit.symm⟩
    have hlonger : front' ++ [line'] <+: lines :=
      ⟨rear, by rw [hsplit', List.append_assoc, List.singleton_append]⟩
    apply List.prefix_of_prefix_length_le hfront hlonger
    rw [List.length_append]
    omega
  have hlines : lines = front ++ middle ++ rear := by
    rw [hmiddle, hsplit', List.append_assoc, List.singleton_append]
  refine ⟨front, middle, rear, hlines, hlines ▸ huniform, hfrom, hlt, hfirst, ?_⟩
  rw [hmiddle, hlast, List.length_append, List.length_singleton]
  rfl

/-- What reindenting a selection does between opening a group of changes and closing it. -/
theorem reindent_effect (hselected : b.selection.1 < b.selection.2) (columns : Columns) :
    (reindent (.listing columns)).effect b =
      (Command.grouped do
        Command.forLines (b.lineOf b.selection.1)
          (Command.lineSpan (b.lineOf b.selection.1) (b.lineOf b.selection.2)) (reindentEach columns)
        let again ← Step.look (·.lineOf b.selection.1)
        selectLines again (b.lineOf b.selection.2)).effect b := by
  rw [reindent, Step.effect_bind_look]
  dsimp only
  rw [if_neg (Int.ne_of_lt hselected), Step.effect_bind_report, Step.effect_bind_look, Step.effect_bind_look]
  rfl

/-- Reindenting a selection reindents the lines from its start to its end, and then selects them. -/
theorem Tracks.reindent {Holds : List (List Char) → Buffer → Prop} (htracks : Tracks columns Holds)
    (hholds : Holds (front ++ middle ++ rear) b) (hpositive : 0 ≤ b.selection.1)
    (hselected : b.selection.1 < b.selection.2) (hfirst : b.lineOf b.selection.1 = front.length)
    (hlast : b.lineOf b.selection.2 + 1 = (front ++ middle).length) :
    ∃ result new b', (reindent (.listing columns)).effect b = (result, b') ∧
      ChangedUpTo (columns.reindented b) middle result new ∧ Holds (front ++ new ++ rear) b' ∧
      b'.layout = b.layout ∧
      (result = .ok () → Selects b' (b'.lineOf b.selection.1) (b.lineOf b.selection.2)) := by
  have hspan : Command.lineSpan front.length (b.lineOf b.selection.2) = middle.length := by
    rw [List.length_append] at hlast
    unfold Command.lineSpan
    omega
  have hopened : Holds (front ++ middle ++ rear) b.beginUndo := htracks.of_text hholds rfl
  obtain ⟨result, new, b₁, hloop, hchanged, hdone, hlayout⟩ := htracks.forLines hopened
  have hsame : b.beginUndo.layout = b.layout := rfl
  rw [Columns.reindented_of_layout hsame] at hchanged
  rw [reindent_effect hselected, hfirst, hspan]
  cases result with
  | error e =>
    exact ⟨.error e, new, b₁.endUndo, Command.grouped_effect (Step.effect_bind_of_error hloop), hchanged,
      htracks.of_text hdone rfl, hlayout, nofun⟩
  | ok _ =>
    obtain ⟨again, -, hagain, -⟩ := b₁.lineStart_lineOf hpositive
    obtain ⟨last, -, hline, -⟩ := b.lineStart_lineOf (Int.le_trans hpositive (Int.le_of_lt hselected))
    obtain ⟨start, stop, hstart, hstop, hselect⟩ := selectLines_effect b₁ again last
    rw [← hagain] at hstart
    rw [← hline] at hstop
    rw [← hagain, ← hline] at hselect
    refine ⟨.ok (), new, (b₁.select start stop).endUndo,
      Command.grouped_effect ((Step.effect_bind_of_ok hloop).trans hselect), hchanged, htracks.of_text hdone rfl,
      hlayout, fun _ => ?_⟩
    exact ⟨start, stop, hstart, hstop, rfl, rfl⟩

theorem reindent_spans (columns : Columns) (hspans : Spans b ending front middle rear) :
    match middle.mapM (columns.reindented b) with
    | .error e => ∃ b', (reindent (.listing columns)).effect b = (.error e, b')
    | .ok lines => ∃ b', (reindent (.listing columns)).effect b = (.ok (), b') ∧
        b'.Uniform ending (front ++ lines ++ rear) ∧ b'.layout = b.layout ∧
        Selects b' (b'.lineOf b.selection.1) (b.lineOf b.selection.2) := by
  have hpositive : 0 ≤ b.selection.1 := Int.le_trans (Int.natCast_nonneg _) hspans.start
  obtain ⟨result, new, b', heffect, hchanged, hdone, hlayout, hselects⟩ :=
    (tracks_uniform columns ending).reindent hspans.uniform hpositive hspans.selected hspans.first hspans.last
  rw [hchanged.mapM_eq]
  cases result with
  | error e => exact ⟨b', heffect⟩
  | ok _ => exact ⟨b', heffect, hdone, hlayout, hselects rfl⟩

theorem Selects.eq_of_text {b' : Buffer} {first last : Int} (hselects : Selects b first last)
    (hselects' : Selects b' first last) (htext : b'.text = b.text) : b'.anchor = b.anchor ∧ b'.caret = b.caret := by
  obtain ⟨start, stop, hstart, hstop, hanchor, hcaret⟩ := hselects
  obtain ⟨start', stop', hstart', hstop', hanchor', hcaret'⟩ := hselects'
  have hstarts (line : Int) : b'.lineStart line = b.lineStart line := by
    simp only [Buffer.lineStart, Buffer.length, htext]
  have hends : b'.endOfLineAt = b.endOfLineAt := by
    funext place
    rw [Buffer.endOfLineAt, htext, Buffer.endOfLineAt]
  rw [hstarts, hstart] at hstart'
  rw [Buffer.lineEnd, hstarts, hends, ← Buffer.lineEnd, hstop] at hstop'
  cases hstart'
  cases hstop'
  exact ⟨hanchor'.trans hanchor.symm, hcaret'.trans hcaret.symm⟩

/-- A selection of whole lines that are not empty reaches over these lines. -/
theorem Selects.spans {init : List (List Char)} {final : List Char} {last : Int}
    (huniform : b.Uniform ending (front ++ (init ++ [final]) ++ rear))
    (hlast : last + 1 = (front ++ (init ++ [final])).length) (hfinal : final ≠ [])
    (hselects : Selects b front.length last) : Spans b ending front (init ++ [final]) rear := by
  obtain ⟨line, more, hmore⟩ := List.exists_cons_of_ne_nil (show init ++ [final] ≠ [] by simp)
  have hfirst : b.Uniform ending (front ++ line :: (more ++ rear)) := by
    rwa [hmore, List.append_assoc, List.cons_append] at huniform
  have hend : b.Uniform ending (front ++ init ++ final :: rear) := by
    rwa [← List.append_assoc, List.append_assoc _ [final], List.singleton_append] at huniform
  obtain rfl : last = (front ++ init).length := by
    simp only [List.length_append, List.length_singleton] at hlast ⊢
    omega
  obtain ⟨start, stop, hstart, hstop, hanchor, hcaret⟩ := hselects
  obtain rfl := Except.ok.inj (hstart.symm.trans hfirst.lineStart_eq)
  obtain rfl := Except.ok.inj (hstop.symm.trans hend.lineEnd_eq)
  have hpositive : 0 < final.length := List.length_pos_of_ne_nil hfinal
  have hleading : (leading ending front).length ≤ (leading ending (front ++ init)).length := by
    rw [leading, leading, List.flatMap_append, List.length_append]
    exact Nat.le_add_right ..
  have hselection : b.selection.1 = b.anchor ∧ b.selection.2 = b.caret := by
    rw [Buffer.selection, Int.min_eq_left (by omega), Int.max_eq_right (by omega)]
    exact ⟨rfl, rfl⟩
  refine ⟨huniform, ?_, ?_, ?_, ?_⟩
  · rw [hselection.1]
    exact Int.le_of_eq hanchor.symm
  · rw [hselection.1, hselection.2]
    omega
  · rw [hselection.1, hanchor]
    exact hfirst.lineOf_start
  · rw [hselection.2, hcaret, hend.lineOf_column (Nat.le_refl _), hlast]

theorem settled_of_reindented (hsound : columns.Sound) {lines : List (List Char)}
    (hall : List.Forall₂ (fun line new => columns.reindented b line = .ok new) middle lines) :
    ∀ line ∈ lines, columns.reindented b line = .ok line ∧ line ≠ [] := by
  induction hall with
  | nil => exact nofun
  | cons hnew _ ih =>
    refine List.forall_mem_cons.mpr ⟨⟨?_, ?_⟩, ih⟩
    · exact Columns.reindented_idempotent hnew
    · exact Columns.reindented_ne_nil hsound hnew

/-- Reindenting whole lines that have their indentation changes neither the text nor the selection. -/
theorem reindent_settled {lines : List (List Char)} {last : Int} (huniform : b.Uniform ending (front ++ lines ++ rear))
    (hsettled : ∀ line ∈ lines, columns.reindented b line = .ok line ∧ line ≠ []) (hne : lines ≠ [])
    (hlast : last + 1 = (front ++ lines).length) (hselects : Selects b front.length last) :
    ∃ b', (reindent (.listing columns)).effect b = (.ok (), b') ∧ b'.text = b.text ∧ b'.anchor = b.anchor ∧
      b'.caret = b.caret := by
  obtain ⟨init, final, rfl⟩ : ∃ init final, lines = init ++ [final] :=
    ⟨lines.dropLast, lines.getLast hne, (List.dropLast_append_getLast hne).symm⟩
  have hspans := hselects.spans huniform hlast (hsettled final (by simp)).2
  have hagain := reindent_spans columns hspans
  rw [mapM_self fun line hline => (hsettled line hline).1] at hagain
  obtain ⟨b', heffect, huniform', -, hselects'⟩ := hagain
  have htext : b'.text = b.text := huniform'.text.trans huniform.text.symm
  have hline : b'.lineOf b.selection.1 = front.length := by
    rw [← hspans.first, Buffer.lineOf, htext, Buffer.lineOf]
  have hend : b.lineOf b.selection.2 = last := by
    have hlines := hspans.last
    omega
  rw [hline, hend] at hselects'
  exact ⟨b', heffect, htext, hselects.eq_of_text hselects' htext⟩

theorem Spans.middle_ne_nil (hspans : Spans b ending front middle rear) : middle ≠ [] := by
  rintro rfl
  have hle := b.lineOf_le_lineOf (Int.le_of_lt hspans.selected)
  have hfirst := hspans.first
  have hlast := hspans.last
  rw [List.append_nil] at hlast
  omega

/-- The lines that are selected after reindenting are those that were reindented, if the place where the selection
started is still in the first of them. -/
theorem reindent_region (hsound : columns.Sound) (hspans : Spans b ending front middle rear)
    {new : List (List Char)} (hnew : middle.mapM (columns.reindented b) = .ok new) :
    ∃ (b' : Buffer) (again : Nat) (first : List Char) (more : List (List Char)),
      (reindent (.listing columns)).effect b = (.ok (), b') ∧ b'.Uniform ending (front ++ new ++ rear) ∧
      b'.lineOf b.selection.1 = again ∧ new ++ rear = first :: more ∧
      Selects b' again (b.lineOf b.selection.2) ∧ front.length ≤ again ∧
      (again = front.length ↔
        more = [] ∨ b.selection.1 < ((leading ending front).length + first.length + ending.length : Nat)) ∧
      (again = front.length → ∃ b'', (reindent (.listing columns)).effect b' = (.ok (), b'') ∧ b''.text = b'.text ∧
        b''.anchor = b'.anchor ∧ b''.caret = b'.caret) := by
  have hall := forall₂_of_mapM hnew
  have hreindent := reindent_spans columns hspans
  rw [hnew] at hreindent
  obtain ⟨b', heffect, hedited, hlayout, hselects⟩ := hreindent
  obtain ⟨first, more, rfl⟩ : ∃ first more, new = first :: more := by
    apply List.exists_cons_of_ne_nil
    rintro rfl
    exact hspans.middle_ne_nil (List.forall₂_nil_right_iff.mp hall)
  have hfirst : b'.Uniform ending (front ++ first :: (more ++ rear)) := by
    rwa [List.append_assoc, List.cons_append] at hedited
  have hfrom := hspans.start
  obtain ⟨start, hstart⟩ := Int.eq_ofNat_of_zero_le (Int.le_trans (Int.natCast_nonneg _) hfrom)
  rw [hstart] at hfrom hselects
  obtain ⟨hle, hiff⟩ := hfirst.lineOf_eq_iff (Int.ofNat_le.mp hfrom)
  obtain ⟨again, -, hagain, -⟩ := b'.lineStart_lineOf (Int.natCast_nonneg start)
  rw [hagain] at hle hiff hselects
  rw [hstart]
  refine ⟨b', again, first, more ++ rear, heffect, hedited, hagain, List.cons_append, hselects, by omega, ?_, ?_⟩
  · rw [← Int.natCast_inj, hiff, Int.ofNat_lt]
  · intro hsame
    rw [hsame] at hselects
    have hsettled := settled_of_reindented hsound hall
    rw [← Columns.reindented_of_layout hlayout] at hsettled
    have hlast : b.lineOf b.selection.2 + 1 = (front ++ first :: more).length := by
      rw [hspans.last, List.length_append, List.length_append, hall.length_eq]
    exact reindent_settled hedited hsettled (List.cons_ne_nil _ _) hlast hselects

end Selection

end Region

namespace Action

/-- Reindenting a selection gives each line from the one that holds the start of the selection to the one that holds
its end the indentation that belongs to it, or fails for the first line that has none. The lines that are selected
afterwards start with the one that holds the old start of the selection in the new text. This is the first line again
just if the first line still reaches beyond that place, or is the last line of the text; then reindenting once more
changes nothing. -/
theorem reindent_selection {settings : Settings} {plugins : List Plugin} {platform : String} {session : Session}
    {b : Buffer} {ending : List Char} {lines : List (List Char)}
    (hsession : (Mode.listing.activate settings plugins platform).result = .ok session)
    (huniform : b.Uniform ending lines) (hanchor : 0 ≤ b.anchor) (hcaret : 0 ≤ b.caret)
    (hselected : b.anchor ≠ b.caret) (count : Int) :
    ∃ (columns : Columns) (front middle rear : List (List Char)), session.setup.indenter = .listing columns ∧
      lines = front ++ middle ++ rear ∧ b.lineOf b.selection.1 = front.length ∧
      b.lineOf b.selection.2 + 1 = (front ++ middle).length ∧
      let outcome := (reindent.perform session.setup count).run b
      match middle.mapM (columns.reindented b) with
      | .error e => outcome.result = .error e
      | .ok new =>
        outcome.result = .ok .absent ∧ outcome.state.Uniform ending (front ++ new ++ rear) ∧
          ∃ (again : Nat) (first : List Char) (more : List (List Char)),
            outcome.state.lineOf b.selection.1 = again ∧ new ++ rear = first :: more ∧
            Region.Selects outcome.state again (b.lineOf b.selection.2) ∧ front.length ≤ again ∧
            (again = front.length ↔
              more = [] ∨ b.selection.1 < ((leading ending front).length + first.length + ending.length : Nat)) ∧
            (again = front.length → ∀ count', let second := (reindent.perform session.setup count').run outcome.state
              second.result = .ok .absent ∧ second.state.text = outcome.state.text ∧
                second.state.anchor = outcome.state.anchor ∧ second.state.caret = outcome.state.caret) := by
  obtain ⟨columns, hindenter, hsound⟩ := Mode.indenter_of_activate rfl hsession
  obtain ⟨front, middle, rear, rfl, hspans⟩ := Region.exists_spans huniform hanchor hcaret hselected
  refine ⟨columns, front, middle, rear, hindenter, rfl, hspans.first, hspans.last, ?_⟩
  intro outcome
  have hperform (count : Int) (b : Buffer) :
      (reindent.perform session.setup count).effect b =
        (do Region.reindent (.listing columns); return .absent : Command Value).effect b := by
    rw [← hindenter]
    rfl
  cases hnew : middle.mapM (columns.reindented b) with
  | error e =>
    have hreindent := Region.reindent_spans columns hspans
    rw [hnew] at hreindent
    obtain ⟨b', heffect⟩ := hreindent
    have hfails := (hperform count b).trans (Step.effect_bind_of_error heffect)
    exact congrArg Prod.fst hfails
  | ok new =>
    obtain ⟨b', again, first, more, heffect, hedited, hagain, hsplit, hselects, hle, hiff, hsecond⟩ :=
      Region.reindent_region hsound hspans hnew
    obtain ⟨hresult, hstate⟩ := Prod.mk.inj ((hperform count b).trans (Step.effect_bind_of_ok heffect))
    have hafter : outcome.state = b' := hstate
    rw [hafter]
    refine ⟨hresult, hedited, again, first, more, hagain, hsplit, hselects, hle, hiff, fun hsame count' => ?_⟩
    intro second
    obtain ⟨b'', heffect', hsettled⟩ := hsecond hsame
    obtain ⟨hresult', hstate'⟩ := Prod.mk.inj ((hperform count' b').trans (Step.effect_bind_of_ok heffect'))
    have hlater : second.state = b'' := hstate'
    rw [hlater]
    exact ⟨hresult', hsettled⟩

/-- An instruction and a label, with a selection from one to the other. -/
def codeAndLabel : Buffer :=
  { Buffer.ofText "nop\n  lp:".toList (some 8) false 2 1024 with caret := 1, anchor := 6 }

theorem reindent_selection_codeAndLabel :
    ∃ session, (Mode.listing.activate (.defaults Mode.listingSchema) [] "default").result = .ok session ∧
      let outcome := (reindent.perform session.setup 1).run codeAndLabel
      outcome.state.text = "        nop\nlp:".toList ∧ Region.Selects outcome.state 0 1 ∧
        ((reindent.perform session.setup 1).run outcome.state).state.text = outcome.state.text := by
  have hsession : (Mode.listing.activate (.defaults Mode.listingSchema) [] "default").result =
      .ok (Mode.listing.sessionOf (.defaults Mode.listingSchema) [] "default") := rfl
  have huniform : codeAndLabel.Uniform ['\n'] ["nop".toList, "  lp:".toList] :=
    ⟨by decide, by decide, .single rfl, by decide⟩
  obtain ⟨columns, front, middle, rear, hindenter, hlines, hfirst, hlast, houtcome⟩ :=
    reindent_selection hsession huniform (by decide) (by decide) (by decide) 1
  obtain rfl : columns = ⟨['#'], 32, 8⟩ := by
    have hdefault : (Mode.listing.sessionOf (.defaults Mode.listingSchema) [] "default").setup.indenter =
        .listing ⟨['#'], 32, 8⟩ := by decide +kernel
    exact (Indenter.listing.inj (hdefault.symm.trans hindenter)).symm
  obtain rfl : front = [] := by
    have hstart : codeAndLabel.lineOf codeAndLabel.selection.1 = 0 := by decide
    exact List.eq_nil_of_length_eq_zero (by omega)
  have hstop : codeAndLabel.lineOf codeAndLabel.selection.2 = 1 := by decide
  obtain ⟨rfl, rfl⟩ : middle = ["nop".toList, "  lp:".toList] ∧ rear = [] := by
    have hcount : middle.length = 2 := by
      rw [hstop, List.nil_append] at hlast
      omega
    exact List.append_inj (show middle ++ rear = ["nop".toList, "  lp:".toList] ++ [] from hlines.symm) hcount
  obtain ⟨-, hedited, again, first, more, -, hsplit, hselects, -, hiff, hsecond⟩ := houtcome
  obtain ⟨rfl, rfl⟩ := List.cons.inj hsplit
  obtain rfl : again = 0 := hiff.mpr (.inr (by decide))
  rw [hstop] at hselects
  exact ⟨_, hsession, hedited.text.trans (by decide), hselects, (hsecond rfl 1).2.1⟩

/-- Two labels behind blanks and an instruction, with a selection from one label to the other. -/
def indentedLabels : Buffer :=
  { Buffer.ofText "        a:\nb:\nnop".toList (some 8) false 2 1024 with caret := 11, anchor := 9 }

/-- Reindenting may select other lines than those that it has reindented, and then go on with another line. -/
theorem reindent_indentedLabels :
    ∃ session, (Mode.listing.activate (.defaults Mode.listingSchema) [] "default").result = .ok session ∧
      indentedLabels.Uniform ['\n'] ["        a:".toList, "b:".toList, "nop".toList] ∧
      indentedLabels.lineOf indentedLabels.selection.1 = 0 ∧ indentedLabels.lineOf indentedLabels.selection.2 = 1 ∧
      let outcome := (reindent.perform session.setup 1).run indentedLabels
      outcome.result = .ok .absent ∧ outcome.state.text = "a:\nb:\nnop".toList ∧
        outcome.state.selection = (5, 6) ∧ outcome.state.lineStart 0 = .ok 0 ∧
        ((reindent.perform session.setup 1).run outcome.state).state.text = "a:\nb:\n        nop".toList := by
  refine ⟨Mode.listing.sessionOf (.defaults Mode.listingSchema) [] "default", rfl,
    ⟨by decide, by decide, .single rfl, by decide⟩, by decide, by decide, ?_⟩
  decide +kernel

end Action

end ListingEditor
