import ListingEditor.Command
import ListingEditor.Proofs.Buffer.Edit
import ListingEditor.Proofs.Buffer.Lines
import ListingEditor.Proofs.Step

/-!
What no command may break: the caret, the anchor and the end of what is styled lie in the text, every character has
a style, and a group of changes that is opened is closed again, also by a command that fails.
-/

namespace ListingEditor

namespace Buffer

/-- A buffer whose positions lie in its text and that has one style for each character. -/
structure WellFormed (b : Buffer) : Prop where
  caret : 0 ≤ b.caret ∧ b.caret ≤ b.text.length
  anchor : 0 ≤ b.anchor ∧ b.anchor ≤ b.text.length
  endStyled : 0 ≤ b.endStyled ∧ b.endStyled ≤ b.text.length
  styles : b.styles.length = b.text.length

/-- One buffer comes from another by edits, so many groups of which are counted if none was open before. -/
structure Edited (groups : Nat) (b b' : Buffer) : Prop where
  level : b'.undoLevel = b.undoLevel
  actions : b'.undoActions = b.undoActions + if b.undoLevel = 0 then groups else 0
  wellFormed : b.WellFormed → b'.WellFormed

theorem edited_refl (b : Buffer) : b.Edited 0 b := ⟨rfl, by rw [ite_self, Nat.add_zero], id⟩

theorem Edited.trans {first more : Nat} {b b' b'' : Buffer} (hfirst : Edited first b b')
    (hmore : Edited more b' b'') : Edited (first + more) b b'' := by
  refine ⟨hmore.level.trans hfirst.level, ?_, fun hwell => hmore.wellFormed (hfirst.wellFormed hwell)⟩
  rw [hmore.actions, hfirst.actions, hfirst.level]
  split <;> omega

variable {b : Buffer}

theorem WellFormed.erase {start stop : Int} (hwell : b.WellFormed) (hstart : 0 ≤ start) (hle : start ≤ stop)
    (hstop : stop ≤ b.text.length) : (b.erase start stop).WellFormed := by
  obtain ⟨m, rfl⟩ := Int.eq_ofNat_of_zero_le hstart
  obtain ⟨n, rfl⟩ := Int.eq_ofNat_of_zero_le (Int.le_trans hstart hle)
  have htext := b.erase_text (Int.ofNat_le.mp hle)
  have hlength : (b.erase m n).text.length = b.text.length - (n - m) := by
    rw [htext, List.length_append, List.length_take, List.length_drop]
    omega
  have hmove {p : Int} (hp : 0 ≤ p ∧ p ≤ b.text.length) :
      0 ≤ positionAfterErase m n p ∧ positionAfterErase m n p ≤ (b.erase m n).text.length := by
    rw [hlength]
    exact positionAfterErase_bounds (Int.ofNat_le.mp hle) (Int.ofNat_le.mp hstop) hp
  have hstyles : (b.erase m n).styles.length = (b.erase m n).text.length := by
    rw [b.erase_styles (Int.ofNat_le.mp hle), hlength, List.length_append, List.length_take, List.length_drop,
      hwell.styles]
    omega
  by_cases hnone : (n : Int) ≤ m
  · rwa [b.erase_of_le hnone]
  · have herase : b.erase m n = { b.erase m n with
        caret := positionAfterErase m n b.caret, anchor := positionAfterErase m n b.anchor
        endStyled := min b.endStyled m } := by
      rw [Buffer.erase, if_neg hnone]
    have hstyled := hwell.endStyled
    rw [herase]
    refine ⟨hmove hwell.caret, hmove hwell.anchor, ⟨?_, ?_⟩, hstyles⟩
    · exact Int.le_min.mpr ⟨hstyled.1, hstart⟩
    · change min b.endStyled (m : Int) ≤ (b.erase m n).text.length
      rw [hlength]
      omega

theorem WellFormed.insert {place : Int} (hwell : b.WellFormed) (hplace : 0 ≤ place ∧ place ≤ b.text.length)
    (text : List Char) : (b.insert place text).WellFormed := by
  obtain ⟨n, rfl⟩ := Int.eq_ofNat_of_zero_le hplace.1
  have hlength : (b.insert n text).text.length = b.text.length + text.length := by
    rw [b.insert_text, List.length_append, List.length_append, List.length_take, List.length_drop]
    omega
  have hmove {p : Int} (hp : 0 ≤ p ∧ p ≤ b.text.length) : 0 ≤ positionAfterInsert n text.length p ∧
      positionAfterInsert n text.length p ≤ (b.insert n text).text.length := by
    rw [hlength]
    exact positionAfterInsert_bounds hp
  have hstyled := hwell.endStyled
  refine ⟨hmove hwell.caret, hmove hwell.anchor, ⟨?_, ?_⟩, ?_⟩
  · exact Int.le_min.mpr ⟨hstyled.1, hplace.1⟩
  · change min b.endStyled (n : Int) ≤ (b.insert n text).text.length
    rw [hlength]
    omega
  · rw [b.insert_styles, hlength, List.length_append, List.length_append, List.length_take, List.length_drop,
      List.length_replicate, hwell.styles]
    omega

theorem erase_undo (b : Buffer) (start stop : Int) :
    (b.erase start stop).undoLevel = b.undoLevel ∧ (b.erase start stop).undoActions = b.undoActions := by
  unfold erase
  split <;> exact ⟨rfl, rfl⟩

/-- Exchanging a part of the text, if it is one. -/
theorem edited_replaceRange {start stop : Int} (text : List Char)
    (hrange : b.WellFormed → 0 ≤ start ∧ start ≤ stop ∧ stop ≤ b.text.length) :
    b.Edited 0 (b.replaceRange start stop text) := by
  obtain ⟨hlevel, hactions⟩ := b.erase_undo start stop
  refine ⟨hlevel, by rw [ite_self]; exact hactions, fun hwell => ?_⟩
  obtain ⟨hstart, hle, hstop⟩ := hrange hwell
  refine (hwell.erase hstart hle hstop).insert ⟨hstart, ?_⟩ text
  obtain ⟨m, rfl⟩ := Int.eq_ofNat_of_zero_le hstart
  obtain ⟨n, rfl⟩ := Int.eq_ofNat_of_zero_le (Int.le_trans hstart hle)
  rw [b.erase_text (Int.ofNat_le.mp hle), List.length_append, List.length_take, List.length_drop]
  omega

theorem edited_insertAt {place : Nat} (hplace : place ≤ b.text.length) (text : List Char) :
    b.Edited 0 (b.insertAt place text) := by
  rw [insertAt, if_neg (by omega)]
  refine ⟨rfl, by rw [ite_self]; rfl, fun hwell => hwell.insert ⟨by omega, by omega⟩ text⟩

theorem edited_typeText (b : Buffer) (text : List Char) : b.Edited 0 (b.typeText text) := by
  refine ⟨rfl, by rw [ite_self]; rfl, fun hwell => ?_⟩
  have hinserted := hwell.insert hwell.caret text
  obtain ⟨n, hcaret⟩ := Int.eq_ofNat_of_zero_le hwell.caret.1
  have hbehind : 0 ≤ b.caret + text.length ∧ b.caret + text.length ≤ (b.insert b.caret text).text.length := by
    have hinside := hwell.caret.2
    rw [hcaret, b.insert_text, List.length_append, List.length_append, List.length_take, List.length_drop]
    omega
  exact ⟨hbehind, hbehind, hinserted.endStyled, hinserted.styles⟩

theorem edited_goto (b : Buffer) (place : Int) : b.Edited 0 (b.goto place) := by
  refine ⟨rfl, by rw [ite_self]; rfl, fun hwell => ⟨?_, ?_, hwell.endStyled, hwell.styles⟩⟩ <;>
    simp only [goto, length] <;> omega

theorem edited_select {anchor caret : Nat} (hanchor : anchor ≤ b.text.length) (hcaret : caret ≤ b.text.length) :
    b.Edited 0 (b.select anchor caret) := by
  refine ⟨rfl, by rw [ite_self]; rfl, fun hwell => ⟨?_, ?_, hwell.endStyled, hwell.styles⟩⟩ <;>
    simp only [select] <;> omega

/-- A group of edits is counted once. -/
theorem Edited.grouped {b' : Buffer} (hedited : b.beginUndo.Edited 0 b') : b.Edited 1 b'.endUndo := by
  obtain ⟨hlevel, hactions, hwellFormed⟩ := hedited
  have hclosed : b'.undoLevel - 1 = b.undoLevel := by
    rw [hlevel]
    exact Int.add_sub_cancel ..
  rw [ite_self] at hactions
  refine ⟨hclosed, ?_, fun hwell => ?_⟩
  · change (if b'.undoLevel - 1 = 0 then b'.undoActions + 1 else b'.undoActions) = _
    rw [hclosed, hactions]
    split <;> rfl
  · obtain ⟨hcaret, hanchor, hstyled, hstyles⟩ :=
      hwellFormed ⟨hwell.caret, hwell.anchor, hwell.endStyled, hwell.styles⟩
    exact ⟨hcaret, hanchor, hstyled, hstyles⟩

theorem lineStart_le {line : Int} {start : Nat} (hstart : b.lineStart line = .ok start) :
    start ≤ b.text.length := by
  unfold lineStart at hstart
  dsimp only at hstart
  generalize (if line < 0 then line + (lineStarts b.text).length else line) = index at hstart
  split at hstart
  · cases hstart
    exact Nat.le_refl _
  · split at hstart
    · cases hstart
    · split at hstart
      · rename_i hget
        cases hstart
        obtain ⟨front, rear, htext, rfl, -⟩ := startsLine_of_mem_lineStarts (List.mem_of_getElem? hget)
        rw [htext, List.length_append]
        omega
      · cases hstart

theorem endOfLineAt_le {start : Nat} (hstart : start ≤ b.text.length) : b.endOfLineAt start ≤ b.text.length := by
  have hline := (List.takeWhile_prefix (l := b.text.drop start) fun c => !Text.isReturn c).length_le
  rw [List.length_drop] at hline
  unfold endOfLineAt
  omega

theorem lineEnd_le {line : Int} {stop : Nat} (hstop : b.lineEnd line = .ok stop) : stop ≤ b.text.length := by
  unfold lineEnd at hstop
  cases hstart : b.lineStart line with
  | error e =>
    rw [hstart] at hstop
    cases hstop
  | ok start =>
    rw [hstart] at hstop
    cases hstop
    exact endOfLineAt_le (lineStart_le hstart)

theorem range_length_le (start : Nat) {place : Int} (hplace : 0 ≤ place) :
    (b.range start place).length ≤ place.toNat - start := by
  obtain ⟨n, rfl⟩ := Int.eq_ofNat_of_zero_le hplace
  rw [range, Text.slice_natCast, List.length_drop, List.length_take, Int.toNat_natCast]
  omega

theorem indentEnd_bounds {line : Int} {start old : Nat} (hstart : b.lineStart line = .ok start)
    (hold : b.indentEnd line = .ok old) : start ≤ old ∧ old ≤ b.text.length := by
  have hinside := endOfLineAt_le (lineStart_le hstart)
  have hindent := (List.takeWhile_prefix (l := b.range start (b.endOfLineAt start)) Text.isBlank).length_le
  have hline := b.range_length_le start (Int.natCast_nonneg (b.endOfLineAt start))
  rw [Int.toNat_natCast] at hline
  rw [indentEnd, hstart] at hold
  have heq : start + ((b.range start (b.endOfLineAt start)).takeWhile Text.isBlank).length = old :=
    Except.ok.inj hold
  have hle : start ≤ b.endOfLineAt start := Nat.le_add_right ..
  omega

end Buffer

namespace Command

variable {α β : Type} {b : Buffer} {groups : Nat}

/-- A command makes edits, whatever it comes to. -/
def Edits (groups : Nat) (command : Command α) (b : Buffer) : Prop := b.Edited groups (command.effect b).2

theorem edits_pure (a : α) (b : Buffer) : Edits 0 (pure a : Command α) b := b.edited_refl

theorem edits_of_effect {command : Command α} {result : Except EditError α} {b' : Buffer}
    (heffect : command.effect b = (result, b')) (hedited : b.Edited groups b') : Edits groups command b := by
  rw [Edits, heffect]
  exact hedited

theorem Edits.bind {first : Command α} {next : α → Command β} (hfirst : Edits groups first b)
    (hnext : ∀ a b', Edits 0 (next a) b') : Edits groups (first >>= next) b := by
  unfold Edits at hfirst
  cases heffect : first.effect b with
  | mk result b' =>
    rw [heffect] at hfirst
    cases result with
    | error e => exact edits_of_effect (Step.effect_bind_of_error heffect) hfirst
    | ok a =>
      have hrest := hnext a b'
      rw [Edits, ← Step.effect_bind_of_ok heffect] at hrest
      exact hfirst.trans hrest

theorem Edits.returning {command : Command Unit} (hedits : Edits groups command b) (a : α) :
    Edits groups (do command; return a) b := hedits.bind fun _ => edits_pure a

theorem edits_bind_look {f : Buffer → α} {next : α → Command β} (hnext : Edits groups (next (f b)) b) :
    Edits groups (Step.look f >>= next) b := hnext

theorem edits_bind_report {place : Log.Place} {owner text : String} {next : Unit → Command β}
    (hnext : Edits groups (next ()) b) : Edits groups (Step.report place owner text >>= next) b := hnext

theorem edits_bind_ask {f : Buffer → Except EditError α} {next : α → Command β}
    (hnext : ∀ a, f b = .ok a → Edits 0 (next a) b) : Edits 0 (Step.ask f >>= next) b := by
  cases hanswer : f b with
  | error e => exact edits_of_effect (Step.effect_bind_ask_of_error hanswer) b.edited_refl
  | ok a =>
    rw [Edits, Step.effect_bind_ask_of_ok hanswer]
    exact hnext a hanswer

theorem edits_bind_change {f : Buffer → Buffer} {next : Unit → Command β} (hfirst : b.Edited 0 (f b))
    (hnext : Edits 0 (next ()) (f b)) : Edits 0 (Step.change f >>= next) b := hfirst.trans hnext

theorem grouped_effect {command : Command α} {b' : Buffer} {result : Except EditError α}
    (heffect : command.effect b.beginUndo = (result, b')) : (grouped command).effect b = (result, b'.endUndo) := by
  obtain ⟨hresult, rfl⟩ := Prod.mk.inj heffect
  exact Prod.ext hresult rfl

theorem Edits.grouped {command : Command α} (hedits : Edits 0 command b.beginUndo) :
    Edits 1 (Command.grouped command) b := Buffer.Edited.grouped hedits

/-- What a measure of buffers adds up to over the buffers at which the repetitions of a command begin. After one that
fails there are no more. -/
def tally (measure : Buffer → Nat) (command : Command Unit) : Nat → Buffer → Nat
  | 0, _ => 0
  | count + 1, b =>
    measure b +
      match command.effect b with
      | (.ok _, b') => tally measure command count b'
      | (.error _, _) => 0

theorem edits_times {measure : Buffer → Nat} {command : Command Unit}
    (hcommand : ∀ b, Edits (measure b) command b) (count : Nat) (b : Buffer) :
    Edits (tally measure command count b) (times count command) b := by
  induction count generalizing b with
  | zero => exact edits_pure () b
  | succ count ih =>
    have hfirst := hcommand b
    unfold Edits at hfirst
    rw [tally]
    cases heffect : command.effect b with
    | mk result b' =>
      rw [heffect] at hfirst
      cases result with
      | error e => exact edits_of_effect (Step.effect_bind_of_error heffect) hfirst
      | ok _ =>
        have hmore : (times (count + 1) command).effect b = (times count command).effect b' :=
          Step.effect_bind_of_ok heffect
        rw [Edits, hmore]
        exact hfirst.trans (ih b')

/-- Repetitions that all return have all begun. -/
theorem tally_one_of_ok {command : Command Unit} {count : Nat} {b b' : Buffer}
    (hreturns : (times count command).effect b = (.ok (), b')) : tally (fun _ => 1) command count b = count := by
  induction count generalizing b with
  | zero => rfl
  | succ count ih =>
    rw [tally]
    cases heffect : command.effect b with
    | mk result b₁ =>
      cases result with
      | error e =>
        have hfails : (times (count + 1) command).effect b = (.error e, b₁) :=
          Step.effect_bind_of_error heffect
        cases hfails.symm.trans hreturns
      | ok _ =>
        have hrest : (times (count + 1) command).effect b = (times count command).effect b₁ :=
          Step.effect_bind_of_ok heffect
        dsimp only
        rw [ih (hrest.symm.trans hreturns), Nat.add_comm]

theorem edits_forLines {command : Int → Command Unit} (hcommand : ∀ line b, Edits 0 (command line) b)
    (first : Int) (count : Nat) (b : Buffer) : Edits 0 (forLines first count command) b := by
  induction count generalizing first b with
  | zero => exact edits_pure () b
  | succ count ih => exact (hcommand first b).bind fun _ => ih (first + 1)

end Command

end ListingEditor
