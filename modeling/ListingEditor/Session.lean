import ListingEditor.Plugin
import ListingEditor.Preference.Store

/-!
Sessions: a mode activated for a buffer. A session never changes; it holds the values that the preferences
had when it was made, and the actions bound to keys.
-/

namespace ListingEditor

open Preference (Settings Store UnknownPreference)

/-- An action bound to keys. Two bindings with one `index` are the same action. -/
structure Binding where
  index : Nat
  action : Action

/-- A mode activated for a buffer. -/
structure Session where
  mode : Mode
  setup : Setup
  keymap : List (String × Binding)

/-- Binds a key. A key that is bound already keeps its place and gets the new action. -/
def bindKey (binding : Binding) : List (String × Binding) → String → List (String × Binding)
  | [], key => [(key, binding)]
  | entry :: entries, key =>
    if entry.1 = key then (key, binding) :: entries else entry :: bindKey binding entries key

/-- Binds the keys that actions ask for, one action after the other. -/
def bindActions (platform : String) (index : Nat) (keymap : List (String × Binding)) :
    List Action → List (String × Binding)
  | [] => keymap
  | action :: actions =>
    bindActions platform (index + 1)
      ((action.keysOn platform).foldl (bindKey ⟨index, action⟩) keymap) actions

/-- Texts in quotes, in brackets. -/
def quotedList (texts : List String) : String :=
  "[" ++ ", ".intercalate (texts.map Text.quoted) ++ "]"

/-- Why an attribute of a session, or of the settings it was made from, cannot be used. Where no settings were
given, the first name that is asked of them fails. -/
inductive AttributeError where
  | noSettings (name : Option String)
  | hidden (name : String)
  | unknown (name : String)
  | readOnly
  deriving DecidableEq, Repr

/-- The message about an attribute. -/
def AttributeError.message : AttributeError → String
  | .noSettings name => "'NoneType' object has no attribute '" ++ name.getD "getAll" ++ "'"
  | .hidden name => name
  | .unknown name => "MajorModeSession has no attribute " ++ name
  | .readOnly => "MajorModeSession is read-only"

namespace Session

/-- The bound keys in alphabetical order. -/
def keys (session : Session) : List String :=
  (session.keymap.map (·.1)).mergeSort fun a b => !decide (b < a)

/-- A one-line account of the session. -/
def describe (session : Session) : String :=
  "<MajorModeSession " ++ session.mode.keyword ++ ": " ++ quotedList session.keys ++ ">"

/-- The action bound to a key. -/
def binding? (session : Session) (key : String) : Option Binding := session.keymap.lookup key

/-- Whether two keys are bound to the same action, or neither is bound. -/
def sameAction (session : Session) (key other : String) : Bool :=
  (session.binding? key).map (·.index) == (session.binding? other).map (·.index)

/-- The value of a preference. -/
def value (session : Session) (keyword : String) : Value :=
  (session.setup.value? keyword).getD .absent

/-- Reads a preference as an attribute. Names with an underscore in front are hidden. -/
def read (session : Session) (name : String) : Except AttributeError Value :=
  if name.toList.head? = some '_' then .error (.hidden name)
  else
    match session.setup.value? name with
    | some value => .ok value
    | none => .error (.unknown name)

/-- The column at which a line should start, as the preferences give it; absent if the line is to be left
alone. -/
def findColumn (session : Session) (b : Buffer) (line : Int) : Except EditError Value :=
  match session.setup.indenterOptions with
  | .plain =>
    (Indenter.plain.findColumn b line).map fun column => (column.map .number).getD .absent
  | .listing commentChar commentColumn tabSize =>
    (b.lineText line).map fun text =>
      match Indent.placement commentChar.chars text with
      | .margin => .number 0
      | .comment => commentColumn
      | .code => tabSize

/-- Settings with the values of the session, from which another session can be made. -/
def settings (session : Session) : Except UnknownPreference Settings :=
  Settings.create session.mode.schema session.setup.values

/-- A buffer for the session. -/
def newBuffer (session : Session) (text : List Char) (eolMode : Int) (memory : Nat) : Buffer :=
  .ofText text (session.value "tab_size").toInt? (session.value "use_tabs").isTruthy eolMode memory

end Session

/-- What plugins get to know while a mode is activated: each is handed the settings before they are checked,
is asked for actions, and is told about the session. -/
inductive Notice where
  | prepare (plugin : Plugin) (mode : Mode) (before : Settings)
  | askActions (plugin : Plugin) (mode : Mode)
  | activated (plugin : Plugin) (session : Session)

/-- What comes of activating a mode. -/
structure Activation where
  result : Except SettingError Session
  notices : List Notice
  trace : List Log.Entry

namespace Mode

/-- The place that activation reports from. -/
def activatePlace : Log.Place := ⟨"major.py", "activate"⟩

/-- Hands the settings to the plugins, one after the other. -/
def prepareAll (mode : Mode) (settings : Settings) :
    List Plugin → Settings × List Notice × List Log.Entry
  | [] => (settings, [], [])
  | plugin :: plugins =>
    let (last, notices, trace) := mode.prepareAll (plugin.prepare mode settings) plugins
    (last, .prepare plugin mode settings :: notices,
      .debug activatePlace mode.name ("preActivate: " ++ plugin.label) :: trace)

/-- The actions of a session: those of the mode, then those of the plugins. -/
def allActions (mode : Mode) (plugins : List Plugin) : List Action :=
  mode.actions ++ plugins.flatMap (·.actionsFor mode)

/-- The session that a mode makes from settings which have been checked. -/
def sessionOf (mode : Mode) (settings : Settings) (plugins : List Plugin) (platform : String) :
    Session :=
  { mode
    setup := ⟨settings.values, mode.highlighterOptions settings, mode.indenterOptions settings⟩
    keymap := bindActions platform 0 [] (mode.allActions plugins) }

/-- Checks the settings that the plugins have left, and makes a session from them. `prepared` and `trace` are what has
happened before. -/
def conclude (mode : Mode) (last : Settings) (plugins : List Plugin) (platform : String)
    (prepared : List Notice) (trace : List Log.Entry) : Activation :=
  match mode.validate last with
  | .error e => ⟨.error e, prepared, trace⟩
  | .ok () =>
    let session := mode.sessionOf last plugins platform
    let asked := (plugins.filter (·.actions.isSome)).map (.askActions · mode)
    { result := .ok session
      notices := prepared ++ asked ++ plugins.map (.activated · session)
      trace := trace ++
        .debug activatePlace mode.name ("Activated " ++ session.describe) ::
          plugins.map fun plugin =>
            .debug activatePlace mode.name ("postActivate: " ++ plugin.label) }

/-- Activates a mode. The plugins may change the settings first; what they leave is checked, and becomes the
values of the session. -/
def activate (mode : Mode) (settings : Settings) (plugins : List Plugin) (platform : String) :
    Activation :=
  let (last, prepared, trace) := mode.prepareAll settings plugins
  mode.conclude last plugins platform prepared trace

/-- The settings at a place of a store, or the defaults of the mode where there are none. -/
def settingsAt (mode : Mode) (store : Store) (place : Option Nat) : Settings :=
  (place.bind store.get?).getD (.defaults mode.schema)

/-- Hands the object at a place to the plugins, one after the other. -/
def prepareAllAt (mode : Mode) (place : Nat) (store : Store) :
    List Plugin → Store × List Notice × List Log.Entry
  | [] => (store, [], [])
  | plugin :: plugins =>
    let (last, notices, trace) := mode.prepareAllAt place (store.modify place (plugin.prepare mode)) plugins
    (last, .prepare plugin mode (mode.settingsAt store place) :: notices,
      .debug activatePlace mode.name ("preActivate: " ++ plugin.label) :: trace)

/-- Activates a mode for the settings that a host keeps at a place of a store, or for its defaults. What the plugins
are handed, and the session is made from, is a new object. -/
def activateFrom (mode : Mode) (store : Store) (given : Option Nat) (plugins : List Plugin)
    (platform : String) : Store × Activation :=
  let copy := store.next
  let (after, prepared, trace) := mode.prepareAllAt copy (store.add (mode.settingsAt store given)) plugins
  (after, mode.conclude (mode.settingsAt after copy) plugins platform prepared trace)

end Mode

end ListingEditor
