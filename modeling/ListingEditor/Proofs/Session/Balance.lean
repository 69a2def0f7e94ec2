import ListingEditor.Proofs.Buffer.Editing
import ListingEditor.Proofs.Indent.Keys
import ListingEditor.Proofs.Session.Activation

/-!
The actions of a session leave a buffer in order. Whether they return or fail, positions stay in the text, every
character keeps a style, and the groups of changes that they open are closed again.
-/

namespace ListingEditor

open Command (Edits)
open Preference (Settings)

namespace Indenter

theorem edits_reindentLine (indenter : Indenter) (line : Int) (b : Buffer) :
    Edits 0 (indenter.reindentLine line) b := by
  apply Command.edits_bind_ask
  intro start hstart
  apply Command.edits_bind_look
  apply Command.edits_bind_ask
  intro old hold
  apply Command.edits_bind_report
  apply Command.edits_bind_ask
  intro column hcolumn
  cases column with
  | none => exact Command.edits_pure _ b
  | some column =>
    apply Command.edits_bind_ask
    intro blanks hblanks
    apply Command.edits_bind_report
    have hbounds := Buffer.indentEnd_bounds hstart hold
    refine Command.edits_bind_change (Buffer.edited_replaceRange blanks fun _ => by omega) ?_
    apply Command.edits_bind_ask
    intro new hnew
    exact Command.edits_pure _ _

theorem edits_reindentCurrentLine (indenter : Indenter) (b : Buffer) : Edits 0 indenter.reindentCurrentLine b := by
  apply Command.edits_bind_look
  exact indenter.edits_reindentLine _ b

theorem edits_change_goto (place : Int) (b : Buffer) : Edits 0 (Step.change (·.goto place)) b := b.edited_goto place

theorem edits_deleteBlanksBeforeCaret (b : Buffer) : Edits 0 deleteBlanksBeforeCaret b := by
  apply Command.edits_bind_look
  apply Command.edits_bind_look
  apply Command.edits_bind_ask
  intro start hstart
  apply Command.edits_bind_look
  generalize hcount : (b.range start b.caret).length -
    (Text.trimEnd Text.isBlank (b.range start b.caret)).length = count
  dsimp only
  split
  · refine Command.edits_bind_change (Buffer.edited_replaceRange [] fun hwell => ?_) (edits_change_goto _ _)
    have hrange := b.range_length_le start hwell.caret.1
    have hinside := hwell.caret
    omega
  · exact Command.edits_pure _ b

theorem edits_tabKey (indenter : Indenter) (b : Buffer) : Edits 1 indenter.tabKey b := by
  apply Edits.grouped
  apply Command.edits_bind_report
  exact (indenter.edits_reindentCurrentLine _).bind edits_change_goto

theorem edits_startLine (indenter : Indenter) (newline : List Char) (b : Buffer) :
    Edits 0 (indenter.startLine newline) b := by
  apply Command.edits_bind_look
  apply Command.edits_bind_look
  apply Command.edits_bind_report
  refine Command.edits_bind_change (Buffer.edited_replaceRange newline fun hwell => ?_) ?_
  · exact ⟨hwell.caret.1, Int.le_refl _, hwell.caret.2⟩
  · refine Command.edits_bind_change (Buffer.edited_goto _ _) ?_
    exact (indenter.edits_reindentLine _ _).bind edits_change_goto

theorem edits_breakLine (indenter : Indenter) (b : Buffer) : Edits 1 indenter.breakLine b := by
  apply Command.edits_bind_look
  apply Edits.grouped
  cases indenter with
  | plain => exact edits_startLine .plain _ _
  | listing columns =>
    refine (edits_reindentCurrentLine _ _).bind fun place b' => ?_
    refine Command.edits_bind_change (Buffer.edited_goto _ _) ?_
    exact (edits_deleteBlanksBeforeCaret _).bind fun _ => edits_startLine _ _

theorem edits_completeLabel (owner : String) (start : Nat) (b : Buffer) :
    Edits 1 (completeLabel owner start b.caret (b.range start b.caret)) b := by
  apply Command.edits_bind_report
  apply Edits.grouped
  split
  · refine Command.edits_bind_change (Buffer.edited_replaceRange [] fun hwell => ?_) ?_
    · obtain ⟨hcaret, hinside⟩ : 0 ≤ b.caret ∧ b.caret ≤ b.text.length := hwell.caret
      have hrange := b.range_length_le start hcaret
      change 0 ≤ _ ∧ _ ∧ _ ≤ (b.text.length : Int)
      omega
    · exact Command.edits_bind_change (Buffer.edited_goto _ _) (Buffer.edited_typeText _ _)
  · exact Buffer.edited_typeText _ _

/-- Whether an indenter takes care of a character that is typed. -/
def handles (indenter : Indenter) (c : List Char) (b : Buffer) : Bool :=
  match ((indenter.electricChar c).run b).result with
  | .ok handled => handled
  | .error _ => false

theorem handles_of_effect {indenter : Indenter} {c : List Char} {b b' : Buffer} {handled : Bool}
    (heffect : (indenter.electricChar c).effect b = (.ok handled, b')) : indenter.handles c b = handled := by
  have hresult : ((indenter.electricChar c).run b).result = .ok handled := congrArg Prod.fst heffect
  rw [handles, hresult]

theorem completeLabel_isOk (owner : String) (start : Nat) (caret : Int) (before : List Char) (b : Buffer) :
    ∃ b', (completeLabel owner start caret before).effect b = (.ok (), b') := by
  rw [completeLabel, Step.effect_bind_report]
  dsimp only
  split
  · exact ⟨_, rfl⟩
  · exact ⟨_, rfl⟩

/-- A character that an indenter takes care of makes one group of changes, another makes none. -/
theorem edits_electricChar (indenter : Indenter) (c : List Char) (b : Buffer) :
    Edits (indenter.handles c b).toNat (indenter.electricChar c) b := by
  have hpure : Edits 0 (pure false : Command Bool) b := Command.edits_pure false b
  cases indenter with
  | plain => exact hpure
  | listing columns =>
    by_cases hcolon : c = [':']
    · subst hcolon
      cases hstart : b.lineStart b.currentLine with
      | error e =>
        have heffect : (electricChar (.listing columns) [':']).effect b = (.error e, b) := by
          rw [electricChar, if_neg (by simp), Step.effect_bind_look, Step.effect_bind_look,
            Step.effect_bind_ask_of_error (f := fun c : Buffer => c.lineStart b.currentLine) hstart]
        have hresult : ((electricChar (.listing columns) [':']).run b).result = .error e :=
          congrArg Prod.fst heffect
        rw [handles, hresult]
        exact Command.edits_of_effect heffect b.edited_refl
      | ok start =>
        have heffect := electricChar_effect columns hstart
        split at heffect
        · obtain ⟨b', hlabel⟩ := completeLabel_isOk (Indenter.listing columns).owner start b.caret
            (b.range start b.caret) b
          rw [Step.effect_bind_of_ok hlabel] at heffect
          rw [handles_of_effect heffect]
          refine Command.edits_of_effect heffect ?_
          have hedits := edits_completeLabel (Indenter.listing columns).owner start b
          rwa [Edits, hlabel] at hedits
        · rw [handles_of_effect heffect]
          exact Command.edits_of_effect heffect b.edited_refl
    · have helse : electricChar (.listing columns) c = pure false := if_pos hcolon
      rw [handles, helse]
      exact hpure

/-- What the colon does each time: the indenter takes care of it, or it inserts itself. -/
def typeColon (indenter : Indenter) : Command Unit := do
  if ← indenter.electricChar [':'] then pure ()
  else Step.change (·.typeText [':'])

theorem edits_typeColon (indenter : Indenter) (b : Buffer) :
    Edits (indenter.handles [':'] b).toNat indenter.typeColon b := by
  refine (indenter.edits_electricChar [':'] b).bind fun handled b' => ?_
  cases handled with
  | true => exact Command.edits_pure () b'
  | false => exact b'.edited_typeText [':']

end Indenter

namespace Region

theorem edits_selectLines (first last : Int) (b : Buffer) : Edits 0 (selectLines first last) b := by
  apply Command.edits_bind_ask
  intro start hstart
  apply Command.edits_bind_ask
  intro stop hstop
  exact Buffer.edited_select (Buffer.lineStart_le hstart) (Buffer.lineEnd_le hstop)

theorem edits_extendToLines (b : Buffer) : Edits 0 extendToLines b := by
  apply Command.edits_bind_look
  exact (edits_selectLines _ _ b).returning _

theorem edits_commentLine (marker : List Char) (line : Int) (b : Buffer) : Edits 0 (commentLine marker line) b := by
  apply Command.edits_bind_ask
  intro start hstart
  exact Buffer.edited_insertAt (Buffer.lineStart_le hstart) _

theorem edits_removeLead (start : Nat) (lead : List Char) (b : Buffer) : Edits 0 (removeLead start lead) b := by
  apply Command.edits_bind_look
  split
  · rename_i hthere
    refine Command.edits_bind_change (Buffer.edited_replaceRange [] fun _ => ?_) (Command.edits_pure _ _)
    -- what was found there is as long as the lead, so the lead ends inside the text
    have hinside : lead.length ≤ b.text.length - start := by
      have hlength := congrArg List.length hthere.2
      rw [Buffer.range, ← Int.natCast_add, Text.slice_natCast, List.length_drop, List.length_take] at hlength
      omega
    omega
  · exact Command.edits_pure _ b

theorem edits_uncommentLine (marker : List Char) (line : Int) (b : Buffer) :
    Edits 0 (uncommentLine marker line) b := by
  apply Command.edits_bind_ask
  intro start hstart
  apply Command.edits_bind_look
  exact (edits_removeLead start _ b).bind fun _ => Command.edits_pure ()

theorem edits_toggleComments (marker : List Char) (choice : Option Bool) (b : Buffer) :
    Edits 1 (toggleComments marker choice) b := by
  have hlines (first : Int) (count : Nat) (add : Bool) (b : Buffer) :
      Edits 0 (Command.forLines first count fun line =>
        if add then commentLine marker line else uncommentLine marker line) b := by
    refine Command.edits_forLines (fun line b => ?_) first count b
    cases add
    · exact edits_uncommentLine marker line b
    · exact edits_commentLine marker line b
  apply Edits.grouped
  refine (edits_extendToLines _).bind fun covered b₁ => ?_
  have hrest (add : Bool) (b : Buffer) := (hlines covered.1 (Command.lineSpan covered.1 covered.2) add b).bind
    fun _ b' => (edits_selectLines covered.1 covered.2 b').returning add
  cases choice with
  | none =>
    apply Command.edits_bind_ask
    intro add _
    exact hrest add b₁
  | some add => exact hrest add b₁

theorem edits_reindent (indenter : Indenter) (b : Buffer) : Edits 1 (reindent indenter) b := by
  apply Command.edits_bind_look
  dsimp only
  split
  · apply Command.edits_bind_report
    exact indenter.edits_tabKey b
  · apply Command.edits_bind_report
    apply Command.edits_bind_look
    apply Command.edits_bind_look
    apply Edits.grouped
    refine (Command.edits_forLines (fun line b => ?_) _ _ _).bind fun _ b' => ?_
    · exact (indenter.edits_reindentLine line b).bind fun _ => Command.edits_pure ()
    · apply Command.edits_bind_look
      exact edits_selectLines _ _ b'

end Region

/-- A session for listings has a marker of comments. -/
theorem Mode.marker_of_activate {settings : Settings} {plugins : List Plugin} {platform : String}
    {session : Session} (hsession : (Mode.listing.activate settings plugins platform).result = .ok session) :
    ∃ marker, session.setup.value? "comment_char" = some (.text marker) := by
  obtain ⟨husable, rfl⟩ := activate_eq_ok_iff.mp hsession
  obtain ⟨c, hmarker, -⟩ := husable.commentChar rfl
  refine ⟨.singleton c, ?_⟩
  generalize plugins.foldl Mode.listing.afterPlugin settings = last at hmarker
  change last.get? "comment_char" = _
  cases hvalue : last.get? "comment_char" with
  | none =>
    rw [Settings.get, hvalue] at hmarker
    cases hmarker
  | some value =>
    rw [Settings.get, hvalue] at hmarker
    exact congrArg some hmarker

namespace Action

variable (setup : Setup) (count : Int) (b : Buffer)

theorem edits_electricColon :
    Edits (Command.tally (fun b => (setup.indenter.handles [':'] b).toNat) setup.indenter.typeColon count.toNat b)
      (electricColon.perform setup count) b :=
  (Command.edits_times setup.indenter.edits_typeColon count.toNat b).returning _

theorem edits_electricReturn :
    Edits (Command.tally (fun _ => 1) setup.indenter.breakLine count.toNat b)
      (electricReturn.perform setup count) b :=
  (Command.edits_times setup.indenter.edits_breakLine count.toNat b).returning _

/-- If the return key returns, all its repetitions have begun. -/
theorem tally_breakLine_of_ok {setup : Setup} {count : Int} {b : Buffer}
    (hok : ((electricReturn.perform setup count).run b).result = .ok .absent) :
    Command.tally (fun _ => 1) setup.indenter.breakLine count.toNat b = count.toNat := by
  cases heffect : (Command.times count.toNat setup.indenter.breakLine).effect b with
  | mk result b' =>
    cases result with
    | ok _ => exact Command.tally_one_of_ok heffect
    | error e =>
      have hfails : (electricReturn.perform setup count).effect b = (.error e, b') :=
        Step.effect_bind_of_error heffect
      cases (congrArg Prod.fst hfails).symm.trans hok

theorem edits_reindent : Edits 1 (reindent.perform setup count) b :=
  (Region.edits_reindent setup.indenter b).returning _

theorem edits_toggleComments {setup : Setup} {marker : String}
    (hmarker : setup.value? "comment_char" = some (.text marker)) :
    Edits 1 (toggleComments.perform setup count) b := by
  unfold toggleComments
  dsimp only
  rw [hmarker]
  exact (Region.edits_toggleComments _ _ b).bind fun added => Command.edits_pure _

/-- The buffer after actions, each with its repeat count. One that fails does not keep the next from being called. -/
def performAll (presses : List (Action × Int)) : Buffer :=
  presses.foldl (fun b press => ((press.1.perform setup press.2).run b).state) b

variable {setup b}

theorem performAll_edited {marker : String} (hmarker : setup.value? "comment_char" = some (.text marker))
    {presses : List (Action × Int)} (hpresses : ∀ press ∈ presses, press.1 ∈ Mode.listing.actions) :
    ∃ groups, b.Edited groups (performAll setup b presses) := by
  have hone {action : Action} (haction : action ∈ Mode.listing.actions) (count : Int) (b : Buffer) :
      ∃ groups, Edits groups (action.perform setup count) b := by
    simp only [Mode.actions, Mode.listing, List.mem_cons, List.not_mem_nil, or_false] at haction
    obtain rfl | rfl | rfl | rfl := haction
    · exact ⟨_, edits_electricColon setup count b⟩
    · exact ⟨_, edits_electricReturn setup count b⟩
    · exact ⟨_, edits_reindent setup count b⟩
    · exact ⟨_, edits_toggleComments count b hmarker⟩
  induction presses generalizing b with
  | nil => exact ⟨0, b.edited_refl⟩
  | cons press presses ih =>
    obtain ⟨haction, hrest⟩ := List.forall_mem_cons.mp hpresses
    obtain ⟨first, hfirst⟩ := hone haction press.2 b
    obtain ⟨more, hmore⟩ := @ih ((press.1.perform setup press.2).run b).state hrest
    exact ⟨first + more, hfirst.trans hmore⟩

/-- Whatever the actions of a session for listings come to, they leave a buffer well-formed and close each group of
changes that they open. Where none is open, the tab key and commenting count as one group, and so does each
repetition of the return key that begins and each colon that the indenter takes care of. No command of an indenter
leaves a group open on any buffer. -/
theorem performAll_balanced {settings : Settings} {plugins : List Plugin} {platform : String} {session : Session}
    (hsession : (Mode.listing.activate settings plugins platform).result = .ok session) (hwell : b.WellFormed)
    {presses : List (Action × Int)} (hpresses : ∀ press ∈ presses, press.1 ∈ Mode.listing.actions) :
    let after := performAll session.setup b presses
    let groups (action : Action) (count : Int) : Int :=
      ((action.perform session.setup count).run after).state.undoActions - after.undoActions
    let indenter := session.setup.indenter
    (after.WellFormed ∧ after.undoLevel = b.undoLevel) ∧
      (after.undoLevel = 0 → ∀ count : Int,
        groups electricReturn count = Command.tally (fun _ => 1) indenter.breakLine count.toNat after ∧
        (((electricReturn.perform session.setup count).run after).result = .ok .absent →
          groups electricReturn count = count.toNat) ∧
        groups reindent count = 1 ∧ groups toggleComments count = 1 ∧
        groups electricColon count =
          Command.tally (fun b => (indenter.handles [':'] b).toNat) indenter.typeColon count.toNat after) ∧
      ∀ (indenter : Indenter) (b : Buffer), (indenter.breakLine.run b).state.undoLevel = b.undoLevel ∧
        (indenter.tabKey.run b).state.undoLevel = b.undoLevel ∧
        ((Region.reindent indenter).run b).state.undoLevel = b.undoLevel ∧
        (Indenter.deleteBlanksBeforeCaret.run b).state.undoLevel = b.undoLevel ∧
        (∀ line, ((indenter.reindentLine line).run b).state.undoLevel = b.undoLevel) ∧
        ∀ c, ((indenter.electricChar c).run b).state.undoLevel = b.undoLevel := by
  intro after groups indenter
  obtain ⟨marker, hmarker⟩ := Mode.marker_of_activate hsession
  obtain ⟨_, hedited⟩ := performAll_edited (b := b) hmarker hpresses
  refine ⟨⟨hedited.wellFormed hwell, hedited.level⟩, fun hclosed count => ?_, fun indenter b => ?_⟩
  · have hgroups {action : Action} {number : Nat}
        (hedits : Edits number (action.perform session.setup count) after) : groups action count = number := by
      have hactions := hedits.actions
      rw [if_pos hclosed] at hactions
      change ((((action.perform session.setup count).effect after).2.undoActions : Nat) : Int) - _ = _
      omega
    have hreturn := hgroups (edits_electricReturn session.setup count after)
    refine ⟨hreturn, fun hok => ?_, hgroups (edits_reindent session.setup count after),
      hgroups (edits_toggleComments count after hmarker), hgroups (edits_electricColon session.setup count after)⟩
    rw [hreturn, tally_breakLine_of_ok hok]
  · exact ⟨(indenter.edits_breakLine b).level, (indenter.edits_tabKey b).level,
      (Region.edits_reindent indenter b).level, (Indenter.edits_deleteBlanksBeforeCaret b).level,
      fun line => (indenter.edits_reindentLine line b).level,
      fun c => (indenter.edits_electricChar c b).level⟩

/-- A word behind a tab, with the caret behind it, in a buffer whose tabs have no width. -/
def behindTab : Buffer :=
  { Buffer.ofText "\tlp".toList (some 0) false 2 1024 with caret := 3, anchor := 3 }

theorem performAll_balanced_behindTab :
    ∃ session after, (Mode.listing.activate (.defaults Mode.listingSchema) [] "default").result = .ok session ∧
      after = performAll session.setup behindTab [(electricColon, 2), (electricReturn, 3), (reindent, 1)] ∧
      after.WellFormed ∧ after.undoLevel = 0 ∧
      ((toggleComments.perform session.setup 4).run after).state.undoActions - (after.undoActions : Int) = 1 ∧
      (Indenter.plain.breakLine.run behindTab).result = .error .zeroTabWidth ∧
      (Indenter.plain.breakLine.run behindTab).state.undoLevel = 0 := by
  have hsession : (Mode.listing.activate (.defaults Mode.listingSchema) [] "default").result =
      .ok (Mode.listing.sessionOf (.defaults Mode.listingSchema) [] "default") := rfl
  have hwell : behindTab.WellFormed := ⟨by decide, by decide, by decide, rfl⟩
  have hpresses : ∀ press ∈ [(electricColon, (2 : Int)), (electricReturn, 3), (reindent, 1)],
      press.1 ∈ Mode.listing.actions := by
    simp [Mode.actions, Mode.listing]
  obtain ⟨⟨hafter, hlevel⟩, hgroups, hindenters⟩ := performAll_balanced hsession hwell hpresses
  refine ⟨_, _, hsession, rfl, hafter, hlevel, (hgroups hlevel 4).2.2.2.1, by decide +kernel, ?_⟩
  exact (hindenters .plain behindTab).1

end Action

end ListingEditor
