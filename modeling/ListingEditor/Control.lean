import ListingEditor.Session

/-!
The editing control: a buffer under a session, which turns key presses into actions and styles the text as it
is shown.
-/

namespace ListingEditor

/-- A key press: the code of the key and the modifiers that are held. -/
structure KeyPress where
  code : Int
  ctrl : Bool
  alt : Bool
  shift : Bool
  deriving DecidableEq, Repr

namespace KeyPress

/-- The names of the keys that have one instead of a character: return, its twin on the number pad, and
tab. -/
def specialName? (code : Int) : Option String :=
  if code = 13 ∨ code = 370 then some "RET" else if code = 9 then some "TAB" else none

/-- The names of the special keys. -/
def specialNames : List String := ["RET", "TAB"]

/-- The name of the key without control and alt. Shift shows for special keys only, since it is part of the
character of the others; with control or alt held letters are small. -/
def plainName? (press : KeyPress) : Option String :=
  match specialName? press.code with
  | some name => some (if press.shift then "S-" ++ name else name)
  | none =>
    if 32 ≤ press.code ∧ press.code < 127 then
      let c := Char.ofNat press.code.toNat
      some (String.singleton (if press.ctrl || press.alt then c.toLower else c))
    else none

/-- The name of a key press, or none for keys that cannot be bound. -/
def name? (press : KeyPress) : Option String :=
  press.plainName?.map fun name =>
    let name := if press.alt then "M-" ++ name else name
    if press.ctrl then "C-" ++ name else name

end KeyPress

/-- What setting up the control asks of the widget. -/
inductive WidgetCall where
  | setIndent (width : Value)
  | setEdgeColumn (column : Value)
  | styleSetSpec (style : Int) (spec : String)
  | styleClearAll
  | setLexer (kind : Nat)
  | bind (event handler : String)
  deriving DecidableEq, Repr

/-- The system that the control runs on, as far as its keys depend on it. -/
inductive Host where
  | mac
  | other
  deriving DecidableEq, Repr

/-- The platform whose keys serve on a system. -/
def Host.platform : Host → String
  | .mac => "mac"
  | .other => Action.defaultPlatform

/-- The control: a session, a buffer, and the keys of a chord that has been started. -/
structure Control where
  session : Session
  buffer : Buffer
  pending : Option String

namespace Control

/-- A step of the control. -/
abbrev Act (α : Type) : Type := Step EditError Control α

/-- The name under which the control reports. -/
def owner : String := "PythonDisassemblySTC"

/-- The look of a named style; a name that is not known looks like plain text. -/
def styleSpec : String → String
  | "number_style" => "fore:#808080"
  | "keyword_style" => "fore:#00007F,bold"
  | "scalar_style" => "fore:#7F007F"
  | "class_style" => "fore:#0000FF,bold"
  | "dockey_style" => "fore:#007F7F"
  | "global_style" => "fore:#7F0000"
  | "comment_style" => "fore:#007F00,italic"
  | "string_style" => "fore:#007F00,back:#F0FFF0"
  | _ => "fore:#000000"

/-- The number of the style that all others start from. -/
def defaultStyle : Int := 32

/-- The calls that set the styles. -/
def styleCalls (styles : List (Int × String)) : List WidgetCall :=
  .styleSetSpec defaultStyle "face:Mono,size:10" :: .styleClearAll ::
    styles.map fun (number, name) => .styleSetSpec number (styleSpec name)

/-- The calls that set the control up. -/
def setupCalls (session : Session) : List WidgetCall :=
  let styles := session.setup.highlighter.styleNames.map fun (n, name) => ((n : Int), name)
  [.setIndent (session.value "tab_size"), .setEdgeColumn (session.value "comment_column")] ++
    styleCalls styles ++
    [.setLexer 0, .bind "EVT_STC_STYLENEEDED" "OnStyleNeeded", .bind "EVT_KEY_DOWN" "OnKeyDown",
      .bind "EVT_CHAR" "OnChar"]

/-- A control that shows a text under a session. -/
def ofSession (session : Session) (text : List Char) (memory : Nat) : Control :=
  ⟨session, session.newBuffer text 2 memory, none⟩

/-- Carries out a command on the buffer. -/
def onBuffer {α : Type} (command : Command α) : Act α := fun control =>
  let outcome := command control.buffer
  ⟨outcome.result, { control with buffer := outcome.state }, outcome.trace⟩

/-- The keys pressed so far, with one more. -/
def chord (pending : Option String) (name : String) : String :=
  match pending with
  | some keys => keys ++ " " ++ name
  | none => name

/-- Whether some bound key goes on after the given keys. -/
def startsChord (session : Session) (keys : String) : Bool :=
  session.keymap.any fun entry => (keys ++ " ").toList.isPrefixOf entry.1.toList

/-- Runs the action bound to a key, or to the chord that it completes, and tells whether the key was used.
A key that starts a chord is used too; any other ends a chord that has been started. -/
def processKey (name : String) : Act Bool := do
  let keys ← Step.look fun control => chord control.pending name
  Step.change fun control => { control with pending := none }
  match ← Step.look (·.session.binding? keys) with
  | some binding => do
    Step.report ⟨"wxstc.py", "processKey"⟩ owner
      ("key " ++ keys ++ ": " ++ binding.action.describe)
    let setup ← Step.look (·.session.setup)
    let _ ← onBuffer (binding.action.perform setup 1)
    return true
  | none =>
    if ← Step.look (startsChord ·.session keys) then
      Step.change fun control => { control with pending := some keys }
      return true
    else return false

/-- Whether a name has a modifier in front. -/
def hasModifier (name : String) : Bool :=
  ["C-".toList, "M-".toList, "S-".toList].any (·.isPrefixOf name.toList)

/-- A key goes down, and the control tells whether it used it. Plain characters are left to `keyTyped`, unless a
chord has been started. -/
def keyDown (press : KeyPress) : Act Bool := do
  match press.name? with
  | none => return false
  | some name =>
    let started ← Step.look fun control => control.pending.any (· != "")
    if KeyPress.specialNames.contains name || hasModifier name || started then processKey name
    else return false

/-- A character is typed, and the control tells whether it used it. -/
def keyTyped (code : Int) : Act Bool :=
  match (KeyPress.mk code false false false).name? with
  | some name => processKey name
  | none => return false

/-- Text up to a position is about to be shown. -/
def styleNeeded (position : Int) : Act Unit := do
  let start ← Step.look (·.buffer.endStyled)
  let highlighter ← Step.look (·.session.setup.highlighter)
  onBuffer (highlighter.styleText start position)

end Control

end ListingEditor
