import ListingEditor.Listing.Classify
import ListingEditor.Pattern.Parser

/-!
Rules of the user's own choice: the standard rules by number, opcode names under another category, and search
patterns. Choosing a rule can fail, and so can applying one.
-/

namespace ListingEditor.Listing

/-- Why rules of the user's own cannot be used. -/
inductive RuleError where
  | noSuchRule
  | badPattern (fault : Pattern.Fault)
  | noSuchGroup
  deriving DecidableEq, Repr

/-- The message of a rule error. The faults of patterns have none. -/
def RuleError.message : RuleError → String
  | .noSuchRule => "list index out of range"
  | .badPattern _ => ""
  | .noSuchGroup => "no such group"

/-- A rule as the user asks for it. -/
inductive RuleChoice where
  | standard (index : Int)
  | mnemonics (category : Category)
  | search (source : String) (anyCase : Bool) (group : Int) (category : Category)
  deriving DecidableEq, Repr

/-- A rule that has been chosen, and the texts to which it cannot be applied. -/
structure ChosenRule where
  rule : Rule
  fails : List Char → Bool

/-- A standard rule by its number. A negative number counts from the last rule. -/
def Rule.standard? (index : Int) : Option Rule :=
  let place := if index < 0 then index + standard.length else index
  if place < 0 then none else standard[place.toNat]?

/-- Whether a pattern has a group of the given number, number zero being the whole match. -/
def hasGroup (pattern : Pattern) (group : Int) : Bool := 0 ≤ group && group ≤ pattern.groupCount

/-- The rule that was asked for. A pattern rule fails where the pattern matches but has no such group. -/
def RuleChoice.resolve : RuleChoice → Except RuleError ChosenRule
  | .standard index =>
    match Rule.standard? index with
    | some rule => .ok ⟨rule, fun _ => false⟩
    | none => .error .noSuchRule
  | .mnemonics category => .ok ⟨Rule.mnemonicAs category, fun _ => false⟩
  | .search source anyCase group category =>
    match Pattern.ofString source anyCase with
    | .ok pattern =>
      .ok ⟨Rule.ofPattern pattern group.toNat category,
        fun text => !hasGroup pattern group && pattern.occursIn text⟩
    | .error fault => .error (.badPattern fault)

/-- Classifies a line with rules of the user's own. Gives the rules as well. -/
def classifyChosen (choices : List RuleChoice) (marker : List Char) (sourceInComments : Bool)
    (text : List Char) : Except RuleError (List Rule × List Span) := do
  let chosen ← choices.mapM RuleChoice.resolve
  let rules := chosen.map (·.rule)
  if chosen.any fun choice => choice.fails (code marker text) then .error .noSuchGroup
  else return (rules, classifyWith rules marker sourceInComments text)

end ListingEditor.Listing
