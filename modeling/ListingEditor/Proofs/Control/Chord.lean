import ListingEditor.Control
import ListingEditor.Proofs.Step
import Mathlib.Data.List.Infix

/-!
Chords: keys that are pressed one after the other. The keys that a control waits with are the start of a bound chord
and are not bound themselves, so that pressing keys walks down the tree of the bound chords.
-/

namespace ListingEditor

/-- Whether a key, or a chord, is bound. -/
def Session.Binds (session : Session) (keys : String) : Prop := (session.binding? keys).isSome = true

theorem Session.binds_iff {session : Session} {keys : String} :
    session.Binds keys ↔ ∃ entry ∈ session.keymap, keys = entry.1 := by
  rw [Binds, binding?, List.lookup_isSome_iff]
  simp only [beq_iff_eq]

namespace Control

/-- Keys start a chord if some bound chord goes on after them. -/
theorem startsChord_iff {session : Session} {keys : String} :
    startsChord session keys = true ↔ ∃ rest, session.Binds (keys ++ " " ++ rest) := by
  simp only [startsChord, List.any_eq_true, List.isPrefixOf_iff_prefix, Session.binds_iff]
  constructor
  · rintro ⟨entry, hentry, rest, hrest⟩
    refine ⟨String.ofList rest, entry, hentry, String.toList_inj.mp ?_⟩
    rw [String.toList_append (s := keys ++ " "), String.toList_ofList, hrest]
  · rintro ⟨rest, entry, hentry, hkeys⟩
    refine ⟨entry, hentry, rest.toList, ?_⟩
    rw [← hkeys, String.toList_append (s := keys ++ " ")]

theorem run_onBuffer_return {α β : Type} (command : Command α) (value : β) (control : Control) :
    (onBuffer command >>= fun _ => pure value).run control =
      ⟨(command.run control.buffer).result.map fun _ => value,
        { control with buffer := (command.run control.buffer).state }, (command.run control.buffer).trace⟩ := by
  cases hresult : (command.run control.buffer).result with
  | error e =>
    have hfails : ((onBuffer command).run control).result = .error e := hresult
    rw [Step.run_bind_of_error hfails]
    rfl
  | ok a =>
    have hreturns : ((onBuffer command).run control).result = .ok a := hresult
    rw [Step.run_bind_of_ok hreturns, Step.run_pure, List.append_nil]
    rfl

/-- What comes of carrying out a bound action, once, on behalf of some keys. No keys are waited with any more, whether
the action fails or not. -/
def performed (control : Control) (keys : String) (binding : Binding) : Outcome EditError Control Bool :=
  let outcome := (binding.action.perform control.session.setup 1).run control.buffer
  { result := outcome.result.map fun _ => true
    state := { control with buffer := outcome.state, pending := none }
    trace := .debug ⟨"wxstc.py", "processKey"⟩ owner ("key " ++ keys ++ ": " ++ binding.action.describe) ::
      outcome.trace }

variable {control : Control} {name : String}

/-- A key that is bound, or completes a bound chord, runs its action. -/
theorem processKey_of_bound {binding : Binding}
    (hbound : control.session.binding? (chord control.pending name) = some binding) :
    (processKey name).run control = performed control (chord control.pending name) binding := by
  rw [processKey, Step.run_bind_look, Step.run_bind_change, Step.run_bind_look]
  simp only [hbound, Step.run_bind_report, Step.run_bind_look]
  rw [run_onBuffer_return]
  rfl

/-- A key that starts a chord, or continues one, is kept. -/
theorem processKey_of_starts (hunbound : ¬ control.session.Binds (chord control.pending name))
    (hstarts : ∃ rest, control.session.Binds (chord control.pending name ++ " " ++ rest)) :
    (processKey name).run control = ⟨.ok true, { control with pending := some (chord control.pending name) }, []⟩ := by
  have hnone : control.session.binding? (chord control.pending name) = none := by simpa [Session.Binds] using hunbound
  rw [processKey, Step.run_bind_look, Step.run_bind_change, Step.run_bind_look]
  simp only [hnone, Step.run_bind_look, startsChord_iff.mpr hstarts, if_true]
  rfl

/-- Any other key ends a chord that has been started. -/
theorem processKey_of_unknown (hunbound : ¬ control.session.Binds (chord control.pending name))
    (hends : ¬ ∃ rest, control.session.Binds (chord control.pending name ++ " " ++ rest)) :
    (processKey name).run control = ⟨.ok false, { control with pending := none }, []⟩ := by
  have hnone : control.session.binding? (chord control.pending name) = none := by simpa [Session.Binds] using hunbound
  rw [processKey, Step.run_bind_look, Step.run_bind_change, Step.run_bind_look]
  simp only [hnone, Step.run_bind_look, startsChord_iff, hends, if_false]
  rfl

/-- All that a key can do. -/
theorem processKey_cases (control : Control) (name : String) :
    (∃ binding, control.session.binding? (chord control.pending name) = some binding ∧
        (processKey name).run control = performed control (chord control.pending name) binding) ∨
      (¬ control.session.Binds (chord control.pending name) ∧
        (∃ rest, control.session.Binds (chord control.pending name ++ " " ++ rest)) ∧
        (processKey name).run control =
          ⟨.ok true, { control with pending := some (chord control.pending name) }, []⟩) ∨
      (processKey name).run control = ⟨.ok false, { control with pending := none }, []⟩ := by
  by_cases hbound : control.session.Binds (chord control.pending name)
  · obtain ⟨binding, hbinding⟩ := Option.isSome_iff_exists.mp hbound
    exact .inl ⟨binding, hbinding, processKey_of_bound hbinding⟩
  by_cases hstarts : ∃ rest, control.session.Binds (chord control.pending name ++ " " ++ rest)
  · exact .inr (.inl ⟨hbound, hstarts, processKey_of_starts hbound hstarts⟩)
  · exact .inr (.inr (processKey_of_unknown hbound hstarts))

/-- The control after a key, whether an action has failed or not. -/
def press (control : Control) (name : String) : Control := ((processKey name).run control).state

/-- The control after keys that are pressed one after the other. -/
def pressAll (control : Control) (names : List String) : Control := names.foldl press control

/-- What a control waits with is not bound itself, and starts a bound chord. -/
def Waiting (control : Control) : Prop :=
  ∀ keys, control.pending = some keys →
    ¬ control.session.Binds keys ∧ ∃ rest, control.session.Binds (keys ++ " " ++ rest)

theorem press_session (control : Control) (name : String) : (control.press name).session = control.session := by
  unfold press
  obtain ⟨binding, -, hrun⟩ | ⟨-, -, hrun⟩ | hrun := processKey_cases control name
  · rw [hrun]
    rfl
  · rw [hrun]
  · rw [hrun]

theorem waiting_press (control : Control) (name : String) : (control.press name).Waiting := by
  unfold press
  obtain ⟨binding, -, hrun⟩ | ⟨hunbound, hstarts, hrun⟩ | hrun := processKey_cases control name
  · rw [hrun]
    exact nofun
  · rw [hrun]
    rintro keys ⟨⟩
    exact ⟨hunbound, hstarts⟩
  · rw [hrun]
    exact nofun

theorem pressAll_session (control : Control) (names : List String) :
    (control.pressAll names).session = control.session := by
  induction names generalizing control with
  | nil => rfl
  | cons name names ih => exact (ih _).trans (press_session control name)

/-- Whatever keys are pressed, the control waits with the start of a bound chord, or with none. -/
theorem waiting_pressAll (hwaiting : control.Waiting) (names : List String) : (control.pressAll names).Waiting := by
  induction names generalizing control with
  | nil => exact hwaiting
  | cons name names ih => exact ih (waiting_press control name)

/-- What a control waits with when the first keys of a chord have been pressed. -/
def started (names : List String) : Option String := if names.isEmpty then none else some (" ".intercalate names)

theorem chord_started (names : List String) (name : String) :
    chord (started names) name = " ".intercalate (names ++ [name]) := by
  cases names with
  | nil => exact String.intercalate_singleton.symm
  | cons first names =>
    rw [String.intercalate_append_of_ne_nil (List.cons_ne_nil _ _) (List.cons_ne_nil _ _), String.intercalate_singleton]
    rfl

/-- A bound chord, key by key: its keys and the last one. No shorter part of it is bound. -/
structure IsChord (session : Session) (names : List String) (last : String) : Prop where
  bound : session.Binds (" ".intercalate (names ++ [last]))
  leading : ∀ front, front ≠ [] → front <+: names → ¬ session.Binds (" ".intercalate front)

/-- A key of a bound chord that is not its last one is kept. -/
theorem IsChord.processKey_eq {names : List String} {last : String} (hchord : IsChord control.session names last)
    {front : List String} (hfront : front ++ [name] <+: names) :
    (processKey name).run { control with pending := started front } =
      ⟨.ok true, { control with pending := started (front ++ [name]) }, []⟩ := by
  have hkeys : chord (started front) name = " ".intercalate (front ++ [name]) := chord_started front name
  have hpending : started (front ++ [name]) = some (chord (started front) name) := by
    rw [hkeys, started, if_neg (by simp)]
  rw [hpending]
  apply processKey_of_starts
  · change ¬ control.session.Binds (chord (started front) name)
    rw [hkeys]
    exact hchord.leading _ (by simp) hfront
  · obtain ⟨between, rfl⟩ := hfront
    refine ⟨" ".intercalate (between ++ [last]), ?_⟩
    change control.session.Binds (chord (started front) name ++ " " ++ _)
    rw [hkeys, ← String.intercalate_append_of_ne_nil (by simp) (by simp), ← List.append_assoc]
    exact hchord.bound

theorem IsChord.pressAll_eq {names : List String} {last : String} (hchord : IsChord control.session names last)
    (hpending : control.pending = none) {front : List String} (hfront : front <+: names) :
    control.pressAll front = { control with pending := started front } := by
  induction front using List.reverseRecOn with
  | nil =>
    change control = { control with pending := none }
    rw [← hpending]
  | append_singleton front name ih =>
    have hshorter : front <+: names := (List.prefix_append front [name]).trans hfront
    rw [pressAll, List.foldl_append]
    change press (control.pressAll front) name = _
    rw [ih hshorter, press, hchord.processKey_eq hfront]

/-- Keys walk down the tree of the bound chords. Whatever has been pressed, the control waits with none, or with keys
that are not bound and start a bound chord. The keys of a bound chord are all used: those before the last one do nothing
else, and the last one runs the action of the chord, once. A key that is not bound and starts no chord, with the keys
before it, is not used and does nothing but end the chord. Nothing is waited with after an action that fails. -/
theorem processKey_walks_chords {reached : Control} (hfresh : control.pending = none) (pressed : List String)
    (hreached : reached = control.pressAll pressed) :
    (∀ keys, reached.pending = some keys →
        ¬ control.session.Binds keys ∧ ∃ rest, control.session.Binds (keys ++ " " ++ rest)) ∧
      (reached.pending = none → ∀ names last, IsChord control.session names last →
        (∀ front name, front ++ [name] <+: names →
          (processKey name).run (reached.pressAll front) =
            ⟨.ok true, { reached with pending := some (" ".intercalate (front ++ [name])) }, []⟩) ∧
        ∃ binding, control.session.binding? (" ".intercalate (names ++ [last])) = some binding ∧
          (processKey last).run (reached.pressAll names) =
            performed reached (" ".intercalate (names ++ [last])) binding) ∧
      (∀ name, ¬ control.session.Binds (chord reached.pending name) →
        (¬ ∃ rest, control.session.Binds (chord reached.pending name ++ " " ++ rest)) →
        (processKey name).run reached = ⟨.ok false, { reached with pending := none }, []⟩) ∧
      ∀ name e, ((processKey name).run reached).result = .error e →
        ((processKey name).run reached).state.pending = none := by
  have hstart : control.Waiting := by
    intro keys hkeys
    cases hfresh.symm.trans hkeys
  have hwaiting : reached.Waiting := hreached ▸ waiting_pressAll hstart pressed
  have hsession : reached.session = control.session := hreached ▸ pressAll_session control pressed
  rw [← hsession]
  refine ⟨hwaiting, ?_, fun name => processKey_of_unknown, ?_⟩
  · intro hpending names last hchord
    constructor
    · intro front name hfront
      have hshorter : front <+: names := (List.prefix_append front [name]).trans hfront
      rw [hchord.pressAll_eq hpending hshorter, hchord.processKey_eq hfront, started, if_neg (by simp)]
    · obtain ⟨binding, hbinding⟩ := Option.isSome_iff_exists.mp hchord.bound
      refine ⟨binding, hbinding, ?_⟩
      rw [hchord.pressAll_eq hpending (List.prefix_refl names), ← chord_started]
      rw [← chord_started] at hbinding
      exact processKey_of_bound hbinding
  · intro name e herror
    obtain ⟨binding, -, hrun⟩ | ⟨-, -, hrun⟩ | hrun := processKey_cases reached name
    · rw [hrun]
      rfl
    · rw [hrun] at herror
      cases herror
    · rw [hrun] at herror
      cases herror

/-- An action bound to a chord of three keys. -/
def stamp : Action :=
  { title := some "Stamp", nickname := some "stamp", bindings := [(Action.defaultPlatform, ["C-c C-v x"])]
    perform := fun _ _ => do
      Step.change (·.typeText ['!'])
      return .absent }

/-- A control with an empty buffer under a session that has the action. -/
def stamping : Control :=
  .ofSession (Mode.listing.sessionOf (.defaults Mode.listingSchema)
    [{ Plugin.inert "stamp" "stamp" with actions := some fun _ => [stamp] }] Action.defaultPlatform) [] 1024

theorem stamping_isChord : IsChord stamping.session ["C-c", "C-v"] "x" := by
  refine ⟨by unfold Session.Binds; decide +kernel, ?_⟩
  intro front hnonempty hfront
  obtain rfl | ⟨rest, rfl, hrest⟩ := List.prefix_cons_iff.mp hfront
  · exact absurd rfl hnonempty
  obtain rfl | ⟨last, rfl, hlast⟩ := List.prefix_cons_iff.mp hrest
  · unfold Session.Binds
    decide +kernel
  · obtain rfl := List.prefix_nil.mp hlast
    unfold Session.Binds
    decide +kernel

theorem processKey_walks_chords_stamp :
    stamping.pending = none ∧ IsChord stamping.session ["C-c", "C-v"] "x" ∧
      ((processKey "x").run ((stamping.pressAll ["C-c", "q"]).pressAll ["C-c", "C-v"])).state.buffer.text = ['!'] := by
  obtain ⟨-, hchords, -⟩ := @processKey_walks_chords stamping _ rfl ["C-c", "q"] rfl
  have hended : (stamping.pressAll ["C-c", "q"]).pending = none := by decide +kernel
  obtain ⟨-, binding, hbinding, hrun⟩ := hchords hended _ _ stamping_isChord
  have hstamp : stamping.session.binding? (" ".intercalate (["C-c", "C-v"] ++ ["x"])) = some ⟨4, stamp⟩ := rfl
  obtain rfl := Option.some.inj (hstamp.symm.trans hbinding)
  refine ⟨rfl, stamping_isChord, ?_⟩
  rw [hrun]
  decide +kernel

end Control

end ListingEditor
