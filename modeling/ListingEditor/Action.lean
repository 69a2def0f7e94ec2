import ListingEditor.Highlight
import ListingEditor.Region
import ListingEditor.Value

/-!
Actions: what keys do. An action asks for keys by platform and, when one of them is pressed, edits the buffer
with what the session has set up.
-/

namespace ListingEditor

/-- What a highlighter is made from: nothing, or values of preferences. -/
inductive Highlighter.Options where
  | plain
  | listing (commentChar sourceInComments : Value)
  deriving DecidableEq, Repr

/-- The highlighter that is made from some values. -/
def Highlighter.ofOptions : Options → Highlighter
  | .plain => .plain
  | .listing commentChar sourceInComments => .listing commentChar.chars sourceInComments.isTruthy

/-- What an indenter is made from: nothing, or values of preferences. -/
inductive Indenter.Options where
  | plain
  | listing (commentChar commentColumn tabSize : Value)
  deriving DecidableEq, Repr

/-- The indenter that is made from some values. -/
def Indenter.ofOptions : Options → Indenter
  | .plain => .plain
  | .listing commentChar commentColumn tabSize => .listing ⟨commentChar.chars, commentColumn.column, tabSize.column⟩

/-- What a session gives its actions to work with: the values of the preferences, and what the highlighter and the
indenter are made from. -/
structure Setup where
  values : List (String × Value)
  highlighterOptions : Highlighter.Options
  indenterOptions : Indenter.Options

/-- The highlighter of a session. -/
def Setup.highlighter (setup : Setup) : Highlighter := .ofOptions setup.highlighterOptions

/-- The indenter of a session. -/
def Setup.indenter (setup : Setup) : Indenter := .ofOptions setup.indenterOptions

/-- The value of a preference. -/
def Setup.value? (setup : Setup) (keyword : String) : Option Value := setup.values.lookup keyword

/-- A named action, the keys it asks for on each platform, and what it does when it is called with a repeat count.
An action works on the buffer: the control, with the keys that are pending there, is out of its reach. -/
structure Action where
  title : Option String
  nickname : Option String
  bindings : List (String × List String)
  perform : Setup → Int → Command Value

namespace Action

/-- The platform whose keys serve where an action has none for the platform at hand. -/
def defaultPlatform : String := "default"

/-- The keys that an action asks for on a platform. -/
def keysOn (action : Action) (platform : String) : List String :=
  ((action.bindings.lookup platform).or (action.bindings.lookup defaultPlatform)).getD []

/-- A one-line account of the action. -/
def describe (action : Action) : String :=
  action.title.getD "None" ++ " (" ++ action.nickname.getD "None" ++ ")"

/-- The action without a behaviour of its own. -/
def abstract : Action :=
  { title := none, nickname := none, bindings := []
    perform := fun _ _ => Step.fail .notImplemented }

/-- Types a colon; behind a word that stands alone it makes a label of it. -/
def electricColon : Action :=
  { title := some "Electric Colon", nickname := some "electric-colon"
    bindings := [(defaultPlatform, [":"])]
    perform := fun setup count => do
      Command.times count.toNat do
        if ← setup.indenter.electricChar [':'] then pure ()
        else Step.change (·.typeText [':'])
      return .absent }

/-- Breaks the line and indents the new one. -/
def electricReturn : Action :=
  { title := some "Electric Return", nickname := some "newline-and-indent"
    bindings := [(defaultPlatform, ["RET", "S-RET"])]
    perform := fun setup count => do
      Command.times count.toNat setup.indenter.breakLine
      return .absent }

/-- Reindents the line or the selected lines. -/
def reindent : Action :=
  { title := some "Reindent", nickname := some "indent-for-tab-command"
    bindings := [(defaultPlatform, ["TAB"])]
    perform := fun setup _ => do
      Region.reindent setup.indenter
      return .absent }

/-- Comments the line or the selected lines, or removes their comments. A repeat count of four always removes
them. -/
def toggleComments : Action :=
  { title := some "&Comment Region", nickname := some "comment-region"
    bindings := [(defaultPlatform, ["C-c ;"]), ("mac", ["C-3"])]
    perform := fun setup count =>
      match setup.value? "comment_char" with
      | some (.text marker) => do
        let added ← Region.toggleComments marker.toList (if count = 4 then some false else none)
        return .flag added
      | _ => Step.fail (.noPreference "comment_char") }

end Action

end ListingEditor
