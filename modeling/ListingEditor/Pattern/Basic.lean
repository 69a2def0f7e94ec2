import ListingEditor.Pattern.CharClass

/-!
Search patterns: what they are and how they match. A pattern is matched by trying its alternatives in
order, so the first way that lets the whole pattern succeed is the one that is reported.
-/

namespace ListingEditor.Pattern

/-- How a repetition chooses its length: as long as possible, as short as possible, or as long as
possible without ever giving a part back. -/
inductive Appetite where
  | greedy
  | reluctant
  | possessive
  deriving DecidableEq, Repr

/-- The structure of a pattern. -/
inductive Node where
  | nothing
  | one (cls : CharClass)
  | dot
  | textStart
  | textEnd
  | lastLineEnd
  | wordEdge (negated : Bool)
  | seq (first second : Node)
  | alt (first second : Node)
  | group (index : Nat) (body : Node)
  | loop (body : Node) (least : Nat) (most : Option Nat) (appetite : Appetite)
  deriving Repr

/-- A place in the searched text: the character before it, its offset, the text after it, and the groups
that have matched on the way to it, last first. -/
structure Cursor where
  previous : Option Char
  offset : Nat
  rest : List Char
  groups : List (Nat × Nat × Nat)

/-- The place behind the next character. -/
def Cursor.next (s : Cursor) (c : Char) (rest : List Char) : Cursor :=
  { s with previous := some c, offset := s.offset + 1, rest }

/-- A way to match from a place, given what has to match after it. -/
abbrev Matcher := Cursor → (Cursor → Option Cursor) → Option Cursor

/-- Up to `count` repetitions of a matcher. A repetition that starts where the one before it started is
not tried, so an empty repetition is the last. -/
def Matcher.upTo (m : Matcher) (longest : Bool) : Nat → Option Nat → Matcher
  | 0, _, s, k => k s
  | count + 1, last, s, k =>
    if last = some s.offset then k s
    else
      let more := fun _ : Unit => m s fun t => Matcher.upTo m longest count (some s.offset) t k
      if longest then (more ()).or (k s) else (k s).or (more ())

/-- Exactly `count` repetitions of a matcher. -/
def Matcher.times (m : Matcher) : Nat → Matcher
  | 0, s, k => k s
  | count + 1, s, k => m s fun t => Matcher.times m count t k

/-- Whether a word starts or ends at a place or, with `negated`, whether none does. In an empty text
neither is the case. -/
def Cursor.atWordEdge (s : Cursor) (negated : Bool) : Bool :=
  (s.previous.isSome || !s.rest.isEmpty) &&
    (s.previous.any Text.isWord != s.rest.head?.any Text.isWord) != negated

/-- Matches a pattern. -/
def Node.run (anyCase : Bool) : Node → Matcher
  | .nothing, s, k => k s
  | .one cls, s, k =>
    match s.rest with
    | [] => none
    | c :: rest => if cls.holds anyCase c then k (s.next c rest) else none
  | .dot, s, k =>
    match s.rest with
    | [] => none
    | c :: rest => if c ≠ '\n' then k (s.next c rest) else none
  | .textStart, s, k => if s.previous.isNone then k s else none
  | .textEnd, s, k => if s.rest.isEmpty then k s else none
  | .lastLineEnd, s, k => if s.rest.isEmpty || s.rest == ['\n'] then k s else none
  | .wordEdge negated, s, k => if s.atWordEdge negated then k s else none
  | .seq first second, s, k => first.run anyCase s fun t => second.run anyCase t k
  | .alt first second, s, k => (first.run anyCase s k).or (second.run anyCase s k)
  | .group index body, s, k =>
    body.run anyCase s fun t => k { t with groups := (index, s.offset, t.offset) :: t.groups }
  | .loop body least most appetite, s, k =>
    let m := body.run anyCase
    let extra := fun t : Cursor => match most with
      | some n => min (n - least) (t.rest.length + 2)
      | none => t.rest.length + 2
    match appetite with
    | .greedy => Matcher.times m least s fun t => Matcher.upTo m true (extra t) none t k
    | .reluctant => Matcher.times m least s fun t => Matcher.upTo m false (extra t) none t k
    | .possessive =>
      (Matcher.times m least s fun t => Matcher.upTo m true (extra t) none t some).bind k

end ListingEditor.Pattern

namespace ListingEditor

/-- A search pattern: the text it was written as, its structure, and how many groups it has. -/
structure Pattern where
  source : String
  node : Pattern.Node
  groupCount : Nat
  anyCase : Bool

namespace Pattern

/-- A match: where it starts and stops, and where its groups do. -/
structure Found where
  start : Nat
  stop : Nat
  groups : List (Nat × Nat × Nat)

/-- The extent of a numbered group, number zero being the whole match. -/
def Found.extent? (found : Found) (index : Nat) : Option (Nat × Nat) :=
  if index = 0 then some (found.start, found.stop) else found.groups.lookup index

/-- The match that starts at a place, if there is one; with `nonempty`, one that is not empty. -/
def matchAt? (p : Pattern) (nonempty : Bool) (previous : Option Char) (offset : Nat)
    (rest : List Char) : Option Found :=
  (p.node.run p.anyCase ⟨previous, offset, rest, []⟩ fun t =>
    if nonempty && t.offset == offset then none else some t).map
      fun t => ⟨offset, t.offset, t.groups⟩

/-- The matches that start at a place: one, or an empty one and then one that is not. -/
def matchesAt (p : Pattern) (previous : Option Char) (offset : Nat) (rest : List Char) :
    List Found :=
  match p.matchAt? false previous offset rest with
  | none => []
  | some found =>
    if offset < found.stop then [found]
    else found :: (p.matchAt? true previous offset rest).toList

/-- The matches in the rest of a text, of which the first `skip` characters belong to a match that has
been reported. -/
def findAllFrom (p : Pattern) (skip : Nat) (previous : Option Char) (offset : Nat) :
    List Char → List Found
  | [] => if skip = 0 then p.matchesAt previous offset [] else []
  | c :: rest =>
    if skip = 0 then
      let here := p.matchesAt previous offset (c :: rest)
      let stop := (here.getLast?.map (·.stop)).getD offset
      here ++ p.findAllFrom (stop - offset - 1) (some c) (offset + 1) rest
    else p.findAllFrom (skip - 1) (some c) (offset + 1) rest

/-- All matches in a text from left to right. A match starts where the one before it stopped, or
later. -/
def findAll (p : Pattern) (text : List Char) : List Found := p.findAllFrom 0 none 0 text

/-- Whether the pattern matches somewhere in the rest of a text. -/
def occursFrom (p : Pattern) (previous : Option Char) (offset : Nat) : List Char → Bool
  | [] => (p.matchAt? false previous offset []).isSome
  | c :: rest =>
    (p.matchAt? false previous offset (c :: rest)).isSome ||
      p.occursFrom (some c) (offset + 1) rest

/-- Whether the pattern matches somewhere in a text. -/
def occursIn (p : Pattern) (text : List Char) : Bool := p.occursFrom none 0 text

end Pattern

end ListingEditor
