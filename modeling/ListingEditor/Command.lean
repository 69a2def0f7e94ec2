import ListingEditor.Buffer.Lines
import ListingEditor.Step

/-!
Editing commands: steps on a buffer.
-/

namespace ListingEditor

/-- A step of editing. -/
abbrev Command (α : Type) : Type := Step EditError Buffer α

namespace Command

/-- Makes the changes of a command one group, which is closed also when the command fails. -/
def grouped {α : Type} (command : Command α) : Command α := fun b =>
  let inner := command b.beginUndo
  { inner with state := inner.state.endUndo }

/-- Does a command a number of times. -/
def times : Nat → Command Unit → Command Unit
  | 0, _ => pure ()
  | count + 1, command => do
    command
    times count command

/-- Does a command for `count` lines from `first` on. -/
def forLines (first : Int) : Nat → (Int → Command Unit) → Command Unit
  | 0, _ => pure ()
  | count + 1, command => do
    command first
    forLines (first + 1) count command

/-- How many lines there are from one to another, both included. -/
def lineSpan (first last : Int) : Nat := (last - first + 1).toNat

end Command

end ListingEditor
