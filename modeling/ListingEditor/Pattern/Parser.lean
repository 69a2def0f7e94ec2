import ListingEditor.Pattern.Basic

/-!
Reading search patterns. A pattern is written with literal characters, escapes, sets in square brackets,
the repetitions `*`, `+`, `?` and counts in braces (with a further `?` or `+` for the appetite),
alternatives, groups, and the ends `^` and `$`.
-/

namespace ListingEditor.Pattern

/-- Why a text is no pattern. -/
inductive Fault where
  | nothingToRepeat
  | repeatedRepetition
  | unclosedGroup
  | unopenedGroup
  | unclosedSet
  | badRange
  | badBounds
  | badEscape
  deriving DecidableEq, Repr

/-- The signs a pattern is made of. -/
inductive Sign where
  | node (n : Node)
  | anchor (n : Node)
  | times (least : Nat) (most : Option Nat) (appetite : Appetite)
  | opening (captures : Bool)
  | closing
  | bar

/-- The kind that an escaped letter names. -/
def kindEscape? : Char → Option (Kind × Bool)
  | 'd' => some (.digit, false)
  | 'D' => some (.digit, true)
  | 'w' => some (.word, false)
  | 'W' => some (.word, true)
  | 's' => some (.space, false)
  | 'S' => some (.space, true)
  | _ => none

/-- The character that an escaped character stands for. Letters and digits without a meaning of their
own cannot be escaped. -/
def charEscape? (c : Char) : Option Char :=
  match c with
  | 'n' => some '\n'
  | 't' => some '\t'
  | 'r' => some '\r'
  | 'f' => some '\x0c'
  | 'v' => some '\x0b'
  | 'a' => some '\x07'
  | _ => if c.isAlphanum then none else some c

/-- What an escape outside a set stands for. -/
def escapeSign? (c : Char) : Option Sign :=
  match c with
  | 'b' => some (.anchor (.wordEdge false))
  | 'B' => some (.anchor (.wordEdge true))
  | 'A' => some (.anchor .textStart)
  | 'Z' => some (.anchor .textEnd)
  | _ =>
    match kindEscape? c with
    | some (k, negated) => some (.node (.one ⟨false, [.kind k negated]⟩))
    | none => (charEscape? c).map fun d => .node (.one (CharClass.single d))

/-- The member of a set that was read last and may still start a range. -/
inductive LastItem where
  | none
  | char (c : Char)
  | kind
  deriving DecidableEq

/-- A set of which only a part has been read. `dash` says that a range has been started. -/
structure OpenSet where
  negated : Bool
  items : List ClassItem
  last : LastItem
  dash : Bool
  fresh : Bool

/-- The set once its bracket closes: a dash that starts no range is a member. -/
def OpenSet.close (s : OpenSet) : CharClass :=
  let last := match s.last with
    | .char c => [ClassItem.single c]
    | _ => []
  let dash := if s.dash then [ClassItem.single '-'] else []
  ⟨s.negated, (s.items ++ last ++ dash).eraseDups⟩

/-- The set after a member that is a character. -/
def OpenSet.addChar (s : OpenSet) (c : Char) : Except Fault OpenSet :=
  match s.dash, s.last with
  | true, .char d =>
    if d ≤ c then
      .ok { s with items := s.items ++ [.range d c], last := .none, dash := false, fresh := false }
    else .error .badRange
  | true, _ => .error .badRange
  | false, .char d =>
    .ok { s with items := s.items ++ [.single d], last := .char c, fresh := false }
  | false, _ => .ok { s with last := .char c, fresh := false }

/-- The set after a member that is a kind of characters. -/
def OpenSet.addKind (s : OpenSet) (k : Kind) (negated : Bool) : Except Fault OpenSet :=
  if s.dash then .error .badRange
  else
    let before := match s.last with
      | .char c => s.items ++ [.single c]
      | _ => s.items
    .ok { s with items := before ++ [.kind k negated], last := .kind, fresh := false }

/-- The set after an unescaped character that does not close it. -/
def OpenSet.add (s : OpenSet) (c : Char) : Except Fault OpenSet :=
  if c = '-' ∧ s.last ≠ .none ∧ !s.dash then .ok { s with dash := true, fresh := false }
  else s.addChar c

/-- The set after an escaped character. -/
def OpenSet.addEscape (s : OpenSet) (c : Char) : Except Fault OpenSet :=
  match kindEscape? c with
  | some (k, negated) => s.addKind k negated
  | none =>
    if c = 'b' then s.addChar '\x08'
    else
      match charEscape? c with
      | some d => s.addChar d
      | none => .error .badEscape

/-- What has been read when the next character is looked at. -/
inductive Stage where
  | plain
  | escape
  | opening
  | openingMark
  | repetition (least : Nat) (most : Option Nat)
  | bounds (read : List Char)
  | setStart
  | set (s : OpenSet)
  | setEscape (s : OpenSet)

/-- The number that ASCII digits write. -/
def countOf (digits : List Char) : Nat := digits.foldl (fun n c => n * 10 + (c.toNat - '0'.toNat)) 0

/-- The counts of a repetition, given what stands between its braces: one number, or two with a comma between
them, either of which may be missing. -/
def boundsOf (read : List Char) : Nat × Option Nat :=
  let least := read.takeWhile (· != ',')
  match read.dropWhile (· != ',') with
  | [] => (countOf least, some (countOf least))
  | _ :: most => (countOf least, if most.isEmpty then none else some (countOf most))

/-- Braces that hold no counts stand for themselves. -/
def braceSigns (read : List Char) : List Sign :=
  ('{' :: read).map fun c => .node (.one (.single c))

/-- The sign that an unescaped character is, or the stage that it leads to. -/
def plainSign (c : Char) : Sum Sign Stage :=
  match c with
  | '\\' => .inr .escape
  | '(' => .inr .opening
  | ')' => .inl .closing
  | '|' => .inl .bar
  | '[' => .inr .setStart
  | '*' => .inr (.repetition 0 none)
  | '+' => .inr (.repetition 1 none)
  | '?' => .inr (.repetition 0 (some 1))
  | '^' => .inl (.anchor .textStart)
  | '$' => .inl (.anchor .lastLineEnd)
  | '{' => .inr (.bounds [])
  | '.' => .inl (.node .dot)
  | _ => .inl (.node (.one (.single c)))

/-- The signs of the rest of a pattern. -/
def readSigns : Stage → List Char → Except Fault (List Sign)
  | .plain, [] => .ok []
  | .opening, [] => .ok [.opening true]
  | .repetition least most, [] => .ok [.times least most .greedy]
  | .bounds read, [] => .ok (braceSigns read)
  | .escape, [] => .error .badEscape
  | .openingMark, [] => .error .unclosedGroup
  | .setStart, [] | .set _, [] | .setEscape _, [] => .error .unclosedSet
  | .plain, c :: cs =>
    match plainSign c with
    | .inl sign => (sign :: ·) <$> readSigns .plain cs
    | .inr stage => readSigns stage cs
  | .escape, c :: cs =>
    match escapeSign? c with
    | some sign => (sign :: ·) <$> readSigns .plain cs
    | none => .error .badEscape
  | .opening, c :: cs =>
    if c = '?' then readSigns .openingMark cs
    else
      match plainSign c with
      | .inl sign => (fun signs => .opening true :: sign :: signs) <$> readSigns .plain cs
      | .inr stage => (.opening true :: ·) <$> readSigns stage cs
  | .openingMark, c :: cs =>
    if c = ':' then (.opening false :: ·) <$> readSigns .plain cs else .error .unclosedGroup
  | .repetition least most, c :: cs =>
    if c = '?' then (.times least most .reluctant :: ·) <$> readSigns .plain cs
    else if c = '+' then (.times least most .possessive :: ·) <$> readSigns .plain cs
    else
      match plainSign c with
      | .inl sign => (fun signs => .times least most .greedy :: sign :: signs) <$> readSigns .plain cs
      | .inr stage => (.times least most .greedy :: ·) <$> readSigns stage cs
  | .bounds read, c :: cs =>
    if c = '}' ∧ read ≠ [] then
      let (least, most) := boundsOf read
      if most.any (· < least) then .error .badBounds else readSigns (.repetition least most) cs
    else if c.isDigit ∨ (c = ',' ∧ ',' ∉ read) then readSigns (.bounds (read ++ [c])) cs
    else
      match plainSign c with
      | .inl sign => (fun signs => braceSigns read ++ sign :: signs) <$> readSigns .plain cs
      | .inr stage => (braceSigns read ++ ·) <$> readSigns stage cs
  | .setStart, c :: cs =>
    if c = '^' then readSigns (.set ⟨true, [], .none, false, true⟩) cs
    else if c = '\\' then readSigns (.setEscape ⟨false, [], .none, false, true⟩) cs
    else
      match OpenSet.add ⟨false, [], .none, false, true⟩ c with
      | .ok s => readSigns (.set s) cs
      | .error fault => .error fault
  | .set s, c :: cs =>
    if c = ']' ∧ !s.fresh then (.node (.one s.close) :: ·) <$> readSigns .plain cs
    else if c = '\\' then readSigns (.setEscape s) cs
    else
      match s.add c with
      | .ok t => readSigns (.set t) cs
      | .error fault => .error fault
  | .setEscape s, c :: cs =>
    match s.addEscape c with
    | .ok t => readSigns (.set t) cs
    | .error fault => .error fault

/-- Whether two parts are one and the same test on the next character or on the place. -/
def Node.sameTest : Node → Node → Bool
  | .one a, .one b => a = b
  | .wordEdge a, .wordEdge b => a = b
  | .dot, .dot | .textStart, .textStart | .textEnd, .textEnd | .lastLineEnd, .lastLineEnd => true
  | _, _ => false

/-- The set of characters that an alternative stands for, if it is no more than that. -/
def setOf? : List Node → Option CharClass
  | [.one cls] => if cls.negated then none else some cls
  | _ => none

/-- Parts one after the other as one pattern. -/
def Node.sequence (parts : List Node) : Node := parts.foldr .seq .nothing

/-- Alternatives that have nothing in common at their start as one pattern. If each of them is a set of
characters, they are one set together. -/
def Node.choice (first : List Node) (others : List (List Node)) : Node :=
  match (first :: others).mapM setOf? with
  | some classes => .one (.union classes)
  | none => others.foldl (fun tried alternative => .alt tried (sequence alternative)) (sequence first)

/-- Alternatives as one pattern. What all of them start with is taken out in front. -/
def Node.ofAlternatives : List Node → List (List Node) → Node
  | first, [] => sequence first
  | [], others => choice [] others
  | part :: first, others =>
    if others.all fun alternative => alternative.head?.any part.sameTest then
      .seq part (ofAlternatives first (others.map List.tail))
    else choice (part :: first) others

/-- A group that has been opened: the alternatives before the current one, last first, and the parts of the
current one, last first. `index` is the number of a group that is reported. -/
structure OpenGroup where
  index : Option Nat
  alternatives : List (List Node)
  parts : List (Node × Bool)

/-- The parts of the current alternative in order. -/
def OpenGroup.current (g : OpenGroup) : List Node := g.parts.reverse.map (·.1)

/-- What a group matches, once it closes. -/
def OpenGroup.node (g : OpenGroup) : Node :=
  match (g.current :: g.alternatives).reverse with
  | [] => .nothing
  | first :: others => .ofAlternatives first others

/-- The parts with one more, which may be repeated if `repeatable` holds. -/
def OpenGroup.push (g : OpenGroup) (n : Node) (repeatable : Bool) : OpenGroup :=
  { g with parts := (n, repeatable) :: g.parts }

/-- Builds the pattern from its signs. `count` is the number of groups so far, `g` the innermost open
group and `outer` the ones around it. -/
def build (count : Nat) (g : OpenGroup) (outer : List OpenGroup) :
    List Sign → Except Fault (Node × Nat)
  | [] => if outer.isEmpty then .ok (g.node, count) else .error .unclosedGroup
  | .node n :: signs => build count (g.push n true) outer signs
  | .anchor n :: signs => build count (g.push n false) outer signs
  | .times least most appetite :: signs =>
    match g.parts with
    | [] => .error .nothingToRepeat
    | (body, true) :: parts =>
      build count { g with parts := (.loop body least most appetite, false) :: parts } outer signs
    | (.loop .., false) :: _ => .error .repeatedRepetition
    | (_, false) :: _ => .error .nothingToRepeat
  | .opening captures :: signs =>
    if captures then build (count + 1) ⟨some (count + 1), [], []⟩ (g :: outer) signs
    else build count ⟨none, [], []⟩ (g :: outer) signs
  | .closing :: signs =>
    match outer with
    | [] => .error .unopenedGroup
    | around :: outer =>
      let body := match g.index with
        | some index => .group index g.node
        | none => g.node
      build count (around.push body true) outer signs
  | .bar :: signs =>
    build count { g with alternatives := g.current :: g.alternatives, parts := [] } outer signs

/-- Reads a pattern. -/
def ofString (source : String) (anyCase : Bool) : Except Fault Pattern := do
  let signs ← readSigns .plain source.toList
  let (node, groupCount) ← build 0 ⟨none, [], []⟩ [] signs
  return { source, node, groupCount, anyCase }

end ListingEditor.Pattern
