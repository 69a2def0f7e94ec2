import ListingEditor.Session
import Mathlib.Data.List.Basic

/-!
What activating a mode promises. The plugins are handed a copy of the host's settings, each what those before it have
left of it. If the copy can be used in the end, a session is made from it and every plugin is told; if not, none is.
The settings of the host stay as they are.
-/

namespace ListingEditor

open Preference (Settings Store)

/-- Settings from which a mode can make a session: a whole number of columns between tab stops that is positive, and
for listings a marker of comments that is one character other than white space, and a column for comments that is not
negative. -/
structure Mode.Usable (mode : Mode) (settings : Settings) : Prop where
  tabSize : ∃ n, (settings.get "tab_size").toInt? = some n ∧ 1 ≤ n
  commentChar : mode.services = .listing →
    ∃ c, settings.get "comment_char" = .text (.singleton c) ∧ Text.isSpace c = false
  commentColumn : mode.services = .listing → ∃ n, (settings.get "comment_column").toInt? = some n ∧ 0 ≤ n

/-- A session that a mode has made from settings. Its highlighter and its indenter are made from the values that it
has. -/
structure Session.MadeFrom (session : Session) (mode : Mode) (settings : Settings) : Prop where
  activated : session.mode = mode
  values : session.setup.values = settings.values
  plain : mode.services = .plain →
    session.setup.highlighterOptions = .plain ∧ session.setup.indenterOptions = .plain
  listing : mode.services = .listing →
    session.setup.highlighterOptions =
        .listing (session.value "comment_char") (session.value "source_in_comments") ∧
      session.setup.indenterOptions =
        .listing (session.value "comment_char") (session.value "comment_column") (session.value "tab_size")

namespace Mode

theorem isMarker_iff {value : Value} :
    isMarker value = true ↔ ∃ c, value = .text (.singleton c) ∧ Text.isSpace c = false := by
  constructor
  · intro hmarker
    unfold isMarker at hmarker
    split at hmarker
    · rename_i text
      split at hmarker
      · rename_i c hchars
        refine ⟨c, congrArg Value.text (String.toList_inj.mp ?_), by simpa using hmarker⟩
        rw [hchars, String.toList_singleton]
      · cases hmarker
    · cases hmarker
  · rintro ⟨c, rfl, hspace⟩
    simp [isMarker, hspace]

/-- The check lets pass just the settings that can be used. -/
theorem validate_eq_ok_iff {mode : Mode} {settings : Settings} :
    mode.validate settings = .ok () ↔ mode.Usable settings := by
  have hbound (value : Value) (bound : Int) :
      value.toInt?.any (bound ≤ ·) = true ↔ ∃ n, value.toInt? = some n ∧ bound ≤ n := by
    simp only [Option.any_eq_true, decide_eq_true_eq]
  cases hservices : mode.services with
  | plain =>
    have hcheck : mode.validate settings = .ok () ↔ (settings.get "tab_size").toInt?.any (1 ≤ ·) = true := by
      simp only [validate, hservices, Bool.not_eq_true', ite_eq_iff, reduceCtorEq, and_false, false_or,
        Bool.not_eq_false, and_true]
    rw [hcheck, hbound]
    refine ⟨fun htab => ⟨htab, ?_, ?_⟩, fun husable => husable.tabSize⟩
    · intro hlisting
      cases hservices.symm.trans hlisting
    · intro hlisting
      cases hservices.symm.trans hlisting
  | listing =>
    have hcheck : mode.validate settings = .ok () ↔ (settings.get "tab_size").toInt?.any (1 ≤ ·) = true ∧
        isMarker (settings.get "comment_char") = true ∧
        (settings.get "comment_column").toInt?.any (0 ≤ ·) = true := by
      simp only [validate, hservices, Bool.not_eq_true', ite_eq_iff, reduceCtorEq, and_false, false_or,
        Bool.not_eq_false, and_true]
    rw [hcheck, hbound, hbound, isMarker_iff]
    constructor
    · rintro ⟨htab, hmarker, hcolumn⟩
      exact ⟨htab, fun _ => hmarker, fun _ => hcolumn⟩
    · intro husable
      exact ⟨husable.tabSize, husable.commentChar hservices, husable.commentColumn hservices⟩

example : listing.validate (.defaults listing.schema) = .ok () := by decide

/-- Settings after a plugin has been handed them. -/
def afterPlugin (mode : Mode) (settings : Settings) (plugin : Plugin) : Settings := plugin.prepare mode settings

/-- The calls by which plugins are handed settings: one for each, in turn, with what those before it have left. -/
def handings (mode : Mode) (settings : Settings) (plugins : List Plugin) : List Notice :=
  plugins.zipWith (.prepare · mode ·) (plugins.scanl mode.afterPlugin settings)

theorem prepareAll_settings (mode : Mode) (settings : Settings) (plugins : List Plugin) :
    (mode.prepareAll settings plugins).1 = plugins.foldl mode.afterPlugin settings := by
  induction plugins generalizing settings with
  | nil => rfl
  | cons plugin plugins ih => exact ih (plugin.prepare mode settings)

theorem prepareAll_notices (mode : Mode) (settings : Settings) (plugins : List Plugin) :
    (mode.prepareAll settings plugins).2.1 = mode.handings settings plugins := by
  induction plugins generalizing settings with
  | nil => rfl
  | cons plugin plugins ih =>
    rw [handings, List.scanl_cons, List.zipWith_cons_cons]
    exact congrArg _ (ih (plugin.prepare mode settings))

theorem activate_eq (mode : Mode) (settings : Settings) (plugins : List Plugin) (platform : String) :
    mode.activate settings plugins platform =
      mode.conclude (plugins.foldl mode.afterPlugin settings) plugins platform (mode.handings settings plugins)
        (mode.prepareAll settings plugins).2.2 := by
  rw [← prepareAll_settings, ← prepareAll_notices]
  rfl

section Shared

variable {mode : Mode} {store : Store} {place : Nat} {settings : Settings}

theorem settingsAt_of_get? (hobject : store.get? place = some settings) :
    mode.settingsAt store (some place) = settings := by
  rw [settingsAt, Option.bind_some, hobject, Option.getD_some]

/-- Plugins that are handed an object do to it what they do to settings. -/
theorem prepareAllAt_eq (hobject : store.get? place = some settings) (plugins : List Plugin) :
    (mode.prepareAllAt place store plugins).1.get? place = some (mode.prepareAll settings plugins).1 ∧
      (mode.prepareAllAt place store plugins).2 = (mode.prepareAll settings plugins).2 := by
  induction plugins generalizing store settings with
  | nil => exact ⟨hobject, rfl⟩
  | cons plugin plugins ih =>
    have hnext : (store.modify place (plugin.prepare mode)).get? place = some (plugin.prepare mode settings) := by
      rw [Store.get?_modify_self, hobject, Option.map_some]
    obtain ⟨hlast, hcalls⟩ := ih hnext
    refine ⟨hlast, ?_⟩
    simp only [prepareAllAt, prepareAll, settingsAt_of_get? hobject, hcalls]

/-- Objects that the plugins are not handed stay as they are. -/
theorem prepareAllAt_get?_of_ne {other : Nat} (hother : other ≠ place) (store : Store) (plugins : List Plugin) :
    (mode.prepareAllAt place store plugins).1.get? other = store.get? other := by
  induction plugins generalizing store with
  | nil => rfl
  | cons plugin plugins ih => exact (ih _).trans (Store.get?_modify_of_ne hother)

end Shared

/-- Activating a mode for an object of a store comes to the same as activating it for the settings there. -/
theorem activateFrom_activation (mode : Mode) (store : Store) (given : Option Nat) (plugins : List Plugin)
    (platform : String) :
    (mode.activateFrom store given plugins platform).2 =
      mode.activate (mode.settingsAt store given) plugins platform := by
  obtain ⟨hlast, hcalls⟩ := @prepareAllAt_eq mode _ _ _ (store.get?_add_next (mode.settingsAt store given)) plugins
  simp only [activateFrom, activate, settingsAt_of_get? hlast, hcalls]

theorem sessionOf_madeFrom (mode : Mode) (settings : Settings) (plugins : List Plugin) (platform : String) :
    (mode.sessionOf settings plugins platform).MadeFrom mode settings where
  activated := rfl
  values := rfl
  plain hplain := by
    rw [sessionOf, highlighterOptions, indenterOptions, hplain]
    exact ⟨rfl, rfl⟩
  listing hlisting := by
    rw [sessionOf, highlighterOptions, indenterOptions, hlisting]
    exact ⟨rfl, rfl⟩

section Conclude

variable {mode : Mode} {last : Settings} {prepared : List Notice}

theorem conclude_of_usable (husable : mode.Usable last) (plugins : List Plugin) (platform : String)
    (trace : List Log.Entry) :
    ∃ session, (mode.conclude last plugins platform prepared trace).result = .ok session ∧
      session.MadeFrom mode last ∧
      (mode.conclude last plugins platform prepared trace).notices =
        prepared ++ (plugins.filter (·.actions.isSome)).map (.askActions · mode) ++
          plugins.map (.activated · session) := by
  rw [conclude, validate_eq_ok_iff.mpr husable]
  exact ⟨_, rfl, sessionOf_madeFrom mode last plugins platform, rfl⟩

theorem conclude_of_not_usable (hunusable : ¬ mode.Usable last) (plugins : List Plugin) (platform : String)
    (trace : List Log.Entry) :
    (∃ e, (mode.conclude last plugins platform prepared trace).result = .error e) ∧
      (mode.conclude last plugins platform prepared trace).notices = prepared := by
  cases hcheck : mode.validate last with
  | error e =>
    rw [conclude, hcheck]
    exact ⟨⟨e, rfl⟩, rfl⟩
  | ok _ => exact absurd (validate_eq_ok_iff.mp hcheck) hunusable

end Conclude

/-- A session is made just if the settings that the last plugin leaves can be used, and it is made from them. -/
theorem activate_eq_ok_iff {mode : Mode} {settings : Settings} {plugins : List Plugin} {platform : String}
    {session : Session} :
    (mode.activate settings plugins platform).result = .ok session ↔
      mode.Usable (plugins.foldl mode.afterPlugin settings) ∧
        session = mode.sessionOf (plugins.foldl mode.afterPlugin settings) plugins platform := by
  rw [activate_eq, conclude, ← validate_eq_ok_iff]
  cases hcheck : mode.validate (plugins.foldl mode.afterPlugin settings) with
  | error e => simp
  | ok _ => simp [eq_comm]

/-- Activating a mode hands a new object, which starts as a copy of the given settings or of the defaults, to every
plugin in turn; no other object changes. If the settings that the last plugin leaves can be used, a session is made
from them and every plugin is told about it, in turn. If they cannot, activating fails and no plugin is told. -/
theorem activateFrom_contract (mode : Mode) (store : Store) (given : Option Nat) (plugins : List Plugin)
    (platform : String) :
    let start := mode.settingsAt store given
    let last := plugins.foldl mode.afterPlugin start
    let after := (mode.activateFrom store given plugins platform).1
    let activation := (mode.activateFrom store given plugins platform).2
    (store.get? store.next = none ∧ after.get? store.next = some last ∧
        ∀ place, place ≠ store.next → after.get? place = store.get? place) ∧
      ((∃ e, activation.result = .error e) ↔ ¬ mode.Usable last) ∧
      (¬ mode.Usable last → activation.notices = mode.handings start plugins) ∧
      (mode.Usable last → ∃ session, activation.result = .ok session ∧ session.MadeFrom mode last ∧
        activation.notices = mode.handings start plugins ++
          (plugins.filter (·.actions.isSome)).map (.askActions · mode) ++ plugins.map (.activated · session)) := by
  intro start last after activation
  have hstored : after.get? store.next = some last := by
    obtain ⟨hlast, -⟩ := @prepareAllAt_eq mode _ _ _ (store.get?_add_next start) plugins
    rw [prepareAll_settings] at hlast
    exact hlast
  have hothers : ∀ place, place ≠ store.next → after.get? place = store.get? place := by
    intro place hother
    exact (prepareAllAt_get?_of_ne hother (store.add start) plugins).trans (Store.get?_add_of_ne hother)
  have hconclude : activation =
      mode.conclude last plugins platform (mode.handings start plugins) (mode.prepareAll start plugins).2.2 :=
    (activateFrom_activation mode store given plugins platform).trans (activate_eq mode start plugins platform)
  rw [hconclude]
  refine ⟨⟨store.get?_next, hstored, hothers⟩, ⟨?_, ?_⟩, ?_, ?_⟩
  · rintro ⟨e, herror⟩ husable
    obtain ⟨session, hsession, -⟩ := conclude_of_usable husable plugins platform _
    rw [hsession] at herror
    cases herror
  · intro hunusable
    exact (conclude_of_not_usable hunusable plugins platform _).1
  · intro hunusable
    exact (conclude_of_not_usable hunusable plugins platform _).2
  · intro husable
    exact conclude_of_usable husable plugins platform _

end Mode

end ListingEditor
