import ListingEditor.Text.Blank
import ListingEditor.Text.Digit

/-!
Log entries. What a log line says does not depend on whether it is written: every part of the program reports
what it does, and the policy of the log says whose reports are written, and how.
-/

namespace ListingEditor.Log

/-- How serious an entry is. Debugging has a log of its own; the others share one. -/
inductive Severity where
  | debug
  | warning
  | error
  deriving DecidableEq, Repr

/-- What a line of the given severity starts with. -/
def Severity.mark : Severity → String
  | .debug => ""
  | .warning => "WARNING: "
  | .error => "ERROR: "

/-- The procedure that reports, and the file it is listed under. -/
structure Place where
  file : String
  procedure : String
  deriving DecidableEq, Repr

/-- One report: its severity, the level its owner has to be at, where it comes from, on whose behalf, and
what it says. Without a level it is written always. -/
structure Entry where
  severity : Severity
  level : Option Int
  place : Place
  owner : Option String
  text : String
  deriving DecidableEq, Repr

/-- A report that is written when its owner is being debugged. -/
def Entry.debug (place : Place) (owner : String) (text : String) : Entry :=
  ⟨.debug, some 1, place, some owner, text⟩

/-- A report of an error. -/
def Entry.error (place : Place) (owner : String) (text : String) : Entry :=
  ⟨.error, none, place, some owner, text⟩

/-- Where an entry comes from, in the form in which a line shows it. Line numbers are not kept. -/
def Entry.origin (entry : Entry) : String :=
  let owner := match entry.owner with
    | some name => name ++ "."
    | none => ""
  entry.place.file ++ ":N " ++ owner ++ entry.place.procedure ++ ": "

/-- The line of an entry, with its origin if that is asked for. -/
def Entry.line (entry : Entry) (withOrigin : Bool) : String :=
  entry.severity.mark ++ (if withOrigin then entry.origin else "") ++ entry.text ++ "\n"

/-- A line number and the space behind it, at the start of a text, without the number. -/
def hideNumber? (text : List Char) : Option (List Char) :=
  let rest := text.dropWhile Text.isDigit
  if rest.length < text.length ∧ rest.head? = some ' ' then some ('N' :: rest) else none

/-- What a listed file's name ends in. -/
def fileEnding : List Char := ".py".toList

/-- A line without the line number that it starts with, if a file is named in front of it. -/
def hideOrigin (line : List Char) : List Char :=
  let file := line.takeWhile fun c => c != ':' && !Text.isSpace c
  match line.drop file.length with
  | ':' :: rest =>
    if fileEnding.isSuffixOf file ∧ fileEnding.length < file.length then
      match hideNumber? rest with
      | some hidden => file ++ ':' :: hidden
      | none => line
    else line
  | _ => line

/-- A line of a log without the line number of its origin, which may stand behind the mark of a severity. -/
def hideLineNumber (line : List Char) : List Char :=
  let marks := [Severity.error.mark.toList, Severity.warning.mark.toList]
  match marks.find? (·.isPrefixOf line) with
  | some mark => mark ++ hideOrigin (line.drop mark.length)
  | none => hideOrigin line

/-- The text of a log without line numbers, which change with every edit of a file. -/
def hideLineNumbers (text : String) : String :=
  String.ofList (['\n'].intercalate ((text.toList.splitOn '\n').map hideLineNumber))

/-- How a log is written: whether lines tell where they come from, and the level of each owner. -/
structure Policy where
  withOrigin : Bool
  levels : List (String × Int)
  deriving DecidableEq, Repr

namespace Policy

/-- The level of an owner, which is zero unless it has been set. -/
def levelOf (policy : Policy) (owner : String) : Int := (policy.levels.lookup owner).getD 0

/-- Sets the level of an owner. -/
def setLevel (policy : Policy) (owner : String) (level : Int) : Policy :=
  { policy with levels := (owner, level) :: policy.levels }

/-- Whether an entry is written. -/
def admits (policy : Policy) (entry : Entry) : Bool :=
  match entry.level, entry.owner with
  | some level, some owner => level ≤ policy.levelOf owner
  | _, _ => true

/-- The text of the entries that are written. -/
def render (policy : Policy) (entries : List Entry) : String :=
  hideLineNumbers (String.join ((entries.filter policy.admits).map (·.line policy.withOrigin)))

/-- What the entries add to the log for debugging. -/
def debugText (policy : Policy) (entries : List Entry) : String :=
  policy.render (entries.filter (·.severity == .debug))

/-- What the entries add to the log of errors and warnings. -/
def errorText (policy : Policy) (entries : List Entry) : String :=
  policy.render (entries.filter (·.severity != .debug))

end Policy

end ListingEditor.Log
