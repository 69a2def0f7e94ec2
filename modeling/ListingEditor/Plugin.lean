import ListingEditor.Mode.Basic

/-!
Plugins: they announce modes, and they take part when a mode is activated by changing the settings of the new
session and by adding actions to it.
-/

namespace ListingEditor

open Preference (Settings)

/-- A plugin. `label` is how the log shows it; `actions` is missing if it adds none to any mode. -/
structure Plugin where
  name : String
  label : String
  modes : List Mode
  prepare : Mode → Settings → Settings
  actions : Option (Mode → List Action)

namespace Plugin

/-- A plugin that does nothing. -/
def inert (name label : String) : Plugin :=
  { name, label, modes := [], prepare := fun _ settings => settings, actions := none }

/-- The plugin that announces the mode for listings. -/
def listing : Plugin := { inert "listing" "listing" with modes := [Mode.listing] }

/-- The actions that a plugin adds to a mode. -/
def actionsFor (plugin : Plugin) (mode : Mode) : List Action :=
  match plugin.actions with
  | some contribute => contribute mode
  | none => []

/-- What the host tells a plugin about itself. -/
inductive Signal where
  | activate
  | deactivate
  deriving DecidableEq, Repr

/-- Whether a plugin is active after a signal. -/
def Signal.leavesActive : Signal → Bool
  | .activate => true
  | .deactivate => false

/-- Whether a plugin is active: at first, and after each signal. -/
def activity (signals : List Signal) : List Bool := false :: signals.map Signal.leavesActive

end Plugin

end ListingEditor
