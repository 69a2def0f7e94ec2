import ListingEditor.Modeline
import ListingEditor.Plugin
import ListingEditor.Step
import ListingEditor.Text.Utf8

/-!
Finding the mode of a file. The modes that plugins announce are asked in turn, the more specific ones first:
for a keyword, for a modeline, for the name of the file, and for its first characters.
-/

namespace ListingEditor

open Preference (Settings)

/-- Inserts an element in front of the first one that it descends from, or else at the end. -/
def insertBySpecificity {α : Type} (descends : α → α → Bool) (x : α) : List α → List α
  | [] => [x]
  | y :: ys => if descends x y then x :: y :: ys else y :: insertBySpecificity descends x ys

/-- Adds an element that is not in the list yet. -/
def addNew {α : Type} [BEq α] (xs : List α) (x : α) : List α := if xs.contains x then xs else xs ++ [x]

/-- Each element once, and every element before those that it descends from. Otherwise the order stays. -/
def orderBySpecificity {α : Type} [BEq α] (descends : α → α → Bool) (xs : List α) : List α :=
  (xs.foldl addNew []).foldl (fun ordered x => insertBySpecificity descends x ordered) []

/-- The modes in the order in which they are asked, and those that have been left out of the current
search. -/
structure Matcher where
  modes : List Mode
  skipped : List Mode

/-- The beginning of a file, as text or as octets. -/
inductive Header where
  | text (cs : List Char)
  | octets (bs : List UInt8)

/-- The text of a header. -/
def Header.chars : Header → List Char
  | .text cs => cs
  | .octets bs => Text.Utf8.decode bs

/-- How the log shows a mode. -/
def Mode.shown (mode : Mode) : String := "<class '" ++ mode.label ++ "'>"

namespace Matcher

/-- A stage of the search. -/
abbrev Stage (α : Type) : Type := Step VerifyError Matcher α

/-- The name under which the search reports. -/
def owner : String := "MajorModeMatcherDriver"

/-- Reports from a stage of the search. -/
def say (procedure text : String) : Stage Unit :=
  Step.report ⟨"majormodematcher.py", procedure⟩ owner text

/-- How the log shows a mode that may be missing. -/
def showMode (mode : Option Mode) : String := (mode.map Mode.shown).getD "None"

/-- How the log shows modes. -/
def showModes (modes : List Mode) : String := "[" ++ ", ".intercalate (modes.map Mode.shown) ++ "]"

/-- A search among the modes that plugins announce. -/
def ofPlugins (plugins : List Plugin) : Matcher :=
  ⟨orderBySpecificity Mode.descendsFrom (plugins.flatMap (·.modes)), []⟩

/-- What is reported when a search is set up. -/
def setupTrace (matcher : Matcher) : List Log.Entry :=
  [.debug ⟨"majormodematcher.py", "__init__"⟩ owner
    ("Currently active major modes: " ++ showModes matcher.modes)]

/-- The modes that have not been left out. -/
def active (matcher : Matcher) : List Mode :=
  matcher.modes.filter fun mode => !matcher.skipped.contains mode

/-- Leaves a mode out of the current search. -/
def ignore (mode : Mode) : Stage Unit := do
  say "ignoreMode" ("Ignoring mode " ++ mode.shown)
  Step.change fun matcher => { matcher with skipped := addNew matcher.skipped mode }

/-- The first of some modes that passes a test. -/
def first? (test : Mode → Except VerifyError Bool) : List Mode → Except VerifyError (Option Mode)
  | [] => .ok none
  | mode :: modes =>
    match test mode with
    | .ok true => .ok (some mode)
    | .ok false => first? test modes
    | .error e => .error e

/-- The modes that pass a test. One whose test asks for it is left out. -/
def scan (test : Mode → Except VerifyError Bool) : List Mode → Stage (List Mode)
  | [] => pure []
  | mode :: modes =>
    match test mode with
    | .ok true => do
      let rest ← scan test modes
      return mode :: rest
    | .ok false => scan test modes
    | .error (.skip _) => do
      ignore mode
      scan test modes
    | .error e => Step.fail e

/-- Whether the magic test of a mode says yes. -/
def identifies (header : List Char) (mode : Mode) : Except VerifyError Bool :=
  (mode.verifyMagic header).map (· == some true)

/-- Whether the magic test of a mode has no opinion. -/
def toleratesHeader (header : List Char) (mode : Mode) : Except VerifyError Bool :=
  (mode.verifyMagic header).map Option.isNone

/-- The mode for a keyword. -/
def findByKeyword (keyword : List Char) : Stage (Option Mode) :=
  Step.ask fun matcher => first? (·.verifyKeyword keyword) matcher.active

/-- How the log shows the variables of a modeline. -/
def showVariables (modeline : Option Modeline) : String :=
  match modeline with
  | none => "None"
  | some m =>
    let shown := m.assignments.map fun (name, value) =>
      String.ofList (Text.quote name) ++ ": " ++ String.ofList (Text.quote value)
    "\x7b" ++ ", ".intercalate shown ++ "\x7d"

/-- The mode that the modeline of a file names. -/
def findByModeline (header : List Char) : Stage (Option Mode) := do
  let modeline := Modeline.ofHeader? header
  let name := modeline.bind (·.mode)
  say "scanEmacs" ("modename = " ++ (name.map String.ofList).getD "None" ++ ", settings = " ++
    showVariables modeline)
  match name with
  | some name => findByKeyword name
  | none => return none

/-- The modes that accept the name of a file. -/
def scanFilename (filename : List Char) : Stage (List Mode) := do
  let modes ← Step.look active
  scan (fun mode => mode.verifyFilename (Settings.defaults mode.schema) filename) modes

/-- The modes that know a file by its first characters. -/
def scanMagic (header : List Char) : Stage (List Mode) := do
  let modes ← Step.look active
  scan (identifies header) modes

/-- What the name of a file leads to: a mode that is certain, or one to fall back on. -/
inductive ByName where
  | certain (mode : Mode)
  | fallback (mode : Option Mode)

/-- Looks for a mode by the name of a file. With a header, a mode that knows the header is certain, and one that
has no opinion on it can be fallen back on. -/
def findByName (filename header : List Char) : Stage ByName := do
  let modes ← scanFilename filename
  say "match" ("scanFilename matches " ++ showModes modes)
  match modes with
  | [] => return .fallback none
  | mode :: _ =>
    if header.isEmpty then return .certain mode
    else
      match ← Step.ask fun _ => first? (identifies header) modes with
      | some known => return .certain known
      | none => return .fallback (← Step.ask fun _ => first? (toleratesHeader header) modes)

/-- Looks for a mode by the first characters of a file. -/
def findByMagic (header : List Char) (fallback : Option Mode) : Stage (Option Mode) := do
  if header.isEmpty then return fallback
  else
    let modes ← scanMagic header
    say "match" ("scanMagic matches " ++ showModes modes)
    return modes.head?.or fallback

/-- Looks for a mode by a keyword, if there is one. -/
def byKeyword (keyword : List Char) : Stage (Option Mode) := do
  if keyword.isEmpty then return none
  else
    let mode ← findByKeyword keyword
    say "match" ("matchKeyword matches " ++ showMode mode)
    return mode

/-- Looks for a mode by a modeline, if there is a header. -/
def byModeline (header : List Char) : Stage (Option Mode) := do
  if header.isEmpty then return none
  else
    let mode ← findByModeline header
    say "match" ("scanEmacs matches " ++ showMode mode)
    return mode

/-- Looks for a mode by the name of a file, if there is one. -/
def byName (filename header : List Char) : Stage ByName := do
  if filename.isEmpty then return .fallback none
  else findByName filename header

/-- Finds the mode for a file. What is more certain is tried first: a keyword, a modeline, the name of the file
and its first characters. Missing parts are empty. -/
def find (filename header keyword : List Char) : Stage (Option Mode) := do
  Step.change fun matcher => { matcher with skipped := [] }
  match ← byKeyword keyword with
  | some mode => return some mode
  | none =>
    match ← byModeline header with
    | some mode => return some mode
    | none =>
      match ← byName filename header with
      | .certain mode => return some mode
      | .fallback mode => findByMagic header mode

end Matcher

end ListingEditor
