import ListingEditor.Proofs.Indent.Keys
import ListingEditor.Proofs.Session.Activation

/-!
The editing keys of a session as a plain editor. However often and in whatever order the return key, the tab key
and the colon are pressed, nothing but blanks is lost, doubled or moved.
-/

namespace ListingEditor

open Buffer (Inserts)
open Command (Writes)
open Preference (Settings)

theorem Mode.le_columnOf {settings : Settings} {keyword : String} {bound : Int}
    (hvalid : (settings.get keyword).toInt?.any (bound ≤ ·) = true) : bound ≤ columnOf settings keyword := by
  unfold columnOf Value.column
  cases hvalue : (settings.get keyword).toInt? with
  | none =>
    rw [hvalue] at hvalid
    cases hvalid
  | some column =>
    rw [hvalue] at hvalid
    simpa using hvalid

theorem Mode.markerOf_ne_nil {settings : Settings} (hmarker : isMarker (settings.get "comment_char") = true) :
    markerOf settings ≠ [] := by
  intro hnil
  unfold markerOf Value.chars at hnil
  split at hnil
  · rename_i marker hvalue
    simp [hvalue, isMarker, hnil] at hmarker
  · rename_i hvalue
    unfold isMarker at hmarker
    split at hmarker
    · rename_i marker htext
      exact hvalue marker htext
    · cases hmarker

/-- The columns that a mode for listings takes from settings that pass its check. -/
theorem Mode.columns_sound {mode : Mode} {settings : Settings} (hservices : mode.services = .listing)
    (hvalid : mode.validate settings = .ok ()) :
    ∃ columns : Indent.Columns, mode.indenter settings = .listing columns ∧ columns.Sound := by
  refine ⟨⟨markerOf settings, columnOf settings "comment_column", columnOf settings "tab_size"⟩, ?_, ?_⟩
  · rw [indenter, indenterOptions, hservices]
    rfl
  · simp only [validate, hservices, Bool.not_eq_true', ite_eq_iff, reduceCtorEq, and_false,
      false_or, Bool.not_eq_false] at hvalid
    obtain ⟨htab, hmarker, hcolumn, -⟩ := hvalid
    exact ⟨markerOf_ne_nil hmarker, le_columnOf hcolumn, le_columnOf htab⟩

theorem Mode.indenter_of_activate {mode : Mode} {settings : Settings} {plugins : List Plugin}
    {platform : String} {session : Session} (hservices : mode.services = .listing)
    (hactive : (mode.activate settings plugins platform).result = .ok session) :
    ∃ columns : Indent.Columns, session.setup.indenter = .listing columns ∧ columns.Sound := by
  obtain ⟨husable, rfl⟩ := activate_eq_ok_iff.mp hactive
  exact columns_sound hservices (validate_eq_ok_iff.mpr husable)

/-- The keys that edit more than they insert. -/
inductive EditingKey where
  | tab
  | enter
  | colon
  deriving DecidableEq, Repr

namespace EditingKey

/-- What a key does. -/
def action : EditingKey → Action
  | .tab => .reindent
  | .enter => .electricReturn
  | .colon => .electricColon

/-- What a plain editor puts in for a key that is pressed with a repeat count. -/
def strokes (newline : List Char) (count : Nat) : EditingKey → List (List Char)
  | .tab => []
  | .enter => List.replicate count newline
  | .colon => List.replicate count [':']

/-- Presses keys, each with its repeat count, one after the other until one fails. -/
def pressAll (setup : Setup) : List (EditingKey × Int) → Command Unit
  | [] => pure ()
  | (key, count) :: presses => do
    let _ ← key.action.perform setup count
    pressAll setup presses

variable {setup : Setup} {columns : Indent.Columns} {safe : Prop} {b : Buffer}

theorem writes_reindent (hsound : columns.Sound) (hready : Indenter.Ready columns safe b) :
    Writes safe [] (Region.reindent (.listing columns)) b := by
  have hselection : b.selection.1 = b.selection.2 := by
    simp only [Buffer.selection, hready.placed.anchor]
    omega
  refine (Indenter.writes_tabKey hsound hready).after_blanks ?_ hready.placed.inserts_nil
  rw [Region.reindent, Step.effect_bind_look]
  dsimp only
  rw [if_pos hselection, Step.effect_bind_report]

/-- Each key writes what a plain editor puts in for it. -/
theorem writes_perform (hindenter : setup.indenter = .listing columns) (hsound : columns.Sound)
    (hplaced : b.Placed) (hwidth : ∃ width, b.tabWidth = some width ∧ 1 ≤ width) (key : EditingKey)
    (hfits : key ≠ .colon → safe → columns.Fits b) (count : Int) :
    Writes safe (key.strokes b.newline count.toNat) (key.action.perform setup count) b := by
  cases key with
  | tab =>
    have hready : Indenter.Ready columns safe b := ⟨hplaced, hwidth, hfits nofun⟩
    apply Writes.returning
    rw [hindenter]
    exact writes_reindent hsound hready
  | enter =>
    have hready : Indenter.Ready columns safe b := ⟨hplaced, hwidth, hfits nofun⟩
    apply Writes.returning
    rw [hindenter]
    apply Command.writes_times count.toNat hplaced
    intro b' hplaced' hlayout
    rw [← Buffer.newline_eq_of_layout hlayout]
    exact Indenter.writes_breakLine hsound (hready.of_layout hplaced' hlayout)
  | colon =>
    apply Writes.returning
    rw [hindenter]
    apply Command.writes_times count.toNat hplaced
    intro b' hplaced' _
    exact Indenter.writes_colon hplaced'

theorem writes_pressAll (hindenter : setup.indenter = .listing columns) (hsound : columns.Sound)
    (hplaced : b.Placed) (hwidth : ∃ width, b.tabWidth = some width ∧ 1 ≤ width)
    (presses : List (EditingKey × Int))
    (hfits : ∀ press ∈ presses, press.1 ≠ .colon → safe → columns.Fits b) :
    Writes safe (presses.flatMap fun press => press.1.strokes b.newline press.2.toNat)
      (pressAll setup presses) b := by
  induction presses generalizing b with
  | nil => exact Command.writes_pure () hplaced
  | cons press presses ih =>
    obtain ⟨key, count⟩ := press
    have hfirst := writes_perform hindenter hsound hplaced hwidth key (hfits _ List.mem_cons_self) count
    refine hfirst.bind fun _ b' hinserts => ?_
    have htab := (Buffer.layout_eq_iff.mp hinserts.layout).1
    rw [← Buffer.newline_eq_of_layout hinserts.layout]
    apply ih hinserts.placed (htab ▸ hwidth)
    intro press hpress hkey hsafe
    exact (hfits press (List.mem_cons_of_mem _ hpress) hkey hsafe).of_layout hinserts.layout

end EditingKey

/-- Whether there is memory for the indentation of any line. -/
def Indenter.Fits (indenter : Indenter) (b : Buffer) : Prop :=
  ∀ columns, indenter = .listing columns → columns.Fits b

/-- Up to blanks, a session edits like a plain editor that puts the strokes of its keys in at the caret. A key
fails only for lack of memory, and leaves the first of its strokes; the colon never fails. Either way the next
keys find the buffer as this theorem asks for it. -/
theorem EditingKey.pressAll_draft {settings : Settings} {plugins : List Plugin} {platform : String}
    {session : Session} {b : Buffer} {width : Int}
    (hsession : (Mode.listing.activate settings plugins platform).result = .ok session)
    (hwidth : b.tabWidth = some width) (hpositive : 1 ≤ width) (hplaced : b.Placed)
    (presses : List (EditingKey × Int)) :
    let strokes := presses.flatMap fun press => press.1.strokes b.newline press.2.toNat
    let after := (pressAll session.setup presses).run b
    (∃ done, done <+: strokes ∧ after.state.draft = b.draft.insert done.flatten ∧
        (after.result = .ok () → done = strokes)) ∧
      (session.setup.indenter.Fits b ∨ (∀ press ∈ presses, press.1 = .colon) →
        after.result = .ok ()) ∧
      after.state.Placed ∧ after.state.layout = b.layout := by
  intro strokes after
  obtain ⟨columns, hindenter, hsound⟩ := Mode.indenter_of_activate rfl hsession
  have hwrites : Writes (session.setup.indenter.Fits b ∨ ∀ press ∈ presses, press.1 = .colon) strokes
      (pressAll session.setup presses) b := by
    apply writes_pressAll hindenter hsound hplaced ⟨width, hwidth, hpositive⟩
    rintro press hpress hkey (hfits | hcolons)
    · exact hfits columns hindenter
    · exact absurd (hcolons press hpress) hkey
  obtain ⟨⟨done, hprefix, hinserts, hall⟩, hreturns⟩ := hwrites
  refine ⟨⟨done, hprefix, hinserts.draft_eq, hall ()⟩, fun hsafe => ?_, hinserts.placed, hinserts.layout⟩
  obtain ⟨_, hok⟩ := hreturns hsafe
  exact hok

/-- A word with the caret behind it, in a buffer whose lines end in two characters. -/
def loneWord : Buffer :=
  { Buffer.ofText "\tlp".toList (some 8) true 0 1024 with caret := 3, anchor := 3 }

theorem EditingKey.pressAll_draft_loneWord :
    ∃ session, (Mode.listing.activate (.defaults Mode.listingSchema) [] "default").result = .ok session ∧
      ((pressAll session.setup [(.colon, 1), (.enter, 2), (.tab, 1)]).run loneWord).state.draft =
        ⟨"lp:\r\n\r\n".toList, 7⟩ := by
  have hsession : (Mode.listing.activate (.defaults Mode.listingSchema) [] "default").result =
      .ok (Mode.listing.sessionOf (.defaults Mode.listingSchema) [] "default") := rfl
  have hindenter : (Mode.listing.sessionOf (.defaults Mode.listingSchema) [] "default").setup.indenter =
      .listing ⟨['#'], 32, 8⟩ := by decide +kernel
  have hfits : Indenter.Fits (.listing ⟨['#'], 32, 8⟩) loneWord := by
    rintro columns ⟨⟩
    refine ⟨by decide, by decide, ?_⟩
    rintro - width ⟨⟩
    decide
  have hwidth : loneWord.tabWidth = some 8 := rfl
  have hplaced : loneWord.Placed := ⟨by decide, rfl⟩
  obtain ⟨⟨done, -, hdraft, hall⟩, hreturns, -⟩ :=
    pressAll_draft hsession hwidth (by decide) hplaced [(.colon, 1), (.enter, 2), (.tab, 1)]
  refine ⟨_, hsession, ?_⟩
  rw [hdraft, hall (hreturns (.inl (hindenter ▸ hfits)))]
  rfl

/-- Settings that put comments at a column for which there is no memory. -/
def remoteComments : Settings :=
  (Settings.defaults Mode.listingSchema).set "comment_column" (.number 100000000000000000000)

/-- A comment with the caret behind it. -/
def loneComment : Buffer :=
  { Buffer.ofText ['#'] (some 8) false 2 1024 with caret := 1, anchor := 1 }

/-- The return key can fail to put in a line end. -/
theorem EditingKey.enter_loneComment :
    ∃ session, (Mode.listing.activate remoteComments [] "default").result = .ok session ∧
      loneComment.tabWidth = some 8 ∧ loneComment.Placed ∧
      ((EditingKey.enter.action.perform session.setup 1).run loneComment).state.draft ≠
        loneComment.draft.insert loneComment.newline := by
  refine ⟨Mode.listing.sessionOf remoteComments [] "default", rfl, rfl, ⟨by decide, rfl⟩, ?_⟩
  decide +kernel

end ListingEditor
