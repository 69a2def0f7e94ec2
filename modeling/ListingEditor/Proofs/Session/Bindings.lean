import ListingEditor.Proofs.Control.Chord
import ListingEditor.Proofs.Session.Activation

/-!
Which action a key goes to. Of all the actions that ask for it, those of the mode first and then those of the plugins,
it is the last one.
-/

namespace ListingEditor

namespace Action

/-- The action, with its place among others, that a key goes to: it asks for the key, and none behind it does. -/
structure Wins (platform : String) (actions : List Action) (key : String) (place : Nat) (action : Action) : Prop where
  placed : actions[place]? = some action
  asks : key ∈ action.keysOn platform
  last : ∀ later other, place < later → actions[later]? = some other → key ∉ other.keysOn platform

variable {platform key : String} {first action : Action} {actions : List Action} {place : Nat}

theorem Wins.unique {place' : Nat} {action' : Action} (hwins : Wins platform actions key place action)
    (hwins' : Wins platform actions key place' action') : place = place' ∧ action = action' := by
  obtain hlt | heq | hgt := Nat.lt_trichotomy place place'
  · exact absurd hwins'.asks (hwins.last place' action' hlt hwins'.placed)
  · subst heq
    exact ⟨rfl, Option.some.inj (hwins.placed.symm.trans hwins'.placed)⟩
  · exact absurd hwins.asks (hwins'.last place action hgt hwins.placed)

end Action

open ListingEditor.Action (Wins)
open Preference (Settings Store)

namespace Mode

end Mode

end ListingEditor
