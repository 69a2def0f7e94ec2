import ListingEditor.Text.Blank
import ListingEditor.Text.Case
import ListingEditor.Text.Word

/-!
Sets of characters in search patterns, and what they hold when case does not matter.
-/

namespace ListingEditor.Pattern

/-- The kinds of characters that an escape can name. -/
inductive Kind where
  | digit
  | word
  | space
  deriving DecidableEq, Repr

/-- Whether a character is of a kind. -/
def Kind.holds : Kind → Char → Bool
  | .digit => Text.isDigit
  | .word => Text.isWord
  | .space => Text.isSpace

/-- One member of a set of characters. -/
inductive ClassItem where
  | single (c : Char)
  | range (least greatest : Char)
  | kind (k : Kind) (negated : Bool)
  deriving DecidableEq, Repr

/-- A set of characters: those that one of the items names, or all others. -/
structure CharClass where
  negated : Bool
  items : List ClassItem
  deriving DecidableEq, Repr

/-- Small letters that are variants of one letter, such as the two forms of the Greek sigma. -/
def letterForms : List (List Nat) := [
    [0x69, 0x131], [0x73, 0x17f], [0xb5, 0x3bc], [0x345, 0x3b9, 0x1fbe], [0x390, 0x1fd3],
    [0x3b0, 0x1fe3], [0x3b2, 0x3d0], [0x3b5, 0x3f5], [0x3b8, 0x3d1], [0x3ba, 0x3f0],
    [0x3c0, 0x3d6], [0x3c1, 0x3f1], [0x3c2, 0x3c3], [0x3c6, 0x3d5], [0x432, 0x1c80],
    [0x434, 0x1c81], [0x43e, 0x1c82], [0x441, 0x1c83], [0x442, 0x1c84, 0x1c85], [0x44a, 0x1c86],
    [0x463, 0x1c87], [0xa64b, 0x1c88], [0x1e61, 0x1e9b], [0xfb05, 0xfb06]]

/-- The small letter of a character. That of the dotted capital I is the plain i. -/
def smallLetter (c : Char) : Char := if c.toNat = 0x130 then 'i' else Text.lowerChar c

/-- A small letter and its capitals. -/
def withCapitals (small : Char) : List Char :=
  let capitals := Text.caseRuns.filterMap fun run =>
    let n := ((small.toNat : Int) - run.shift).toNat
    if run.holds n then some (Char.ofNat n) else none
  let dotted := if small = 'i' then [Char.ofNat 0x130] else []
  small :: small.toUpper :: dotted ++ capitals

/-- The characters that differ from a character in case, or in the form of a small letter, at most. -/
def caseVariants (c : Char) : List Char :=
  let small := smallLetter c
  let forms := (letterForms.find? (·.contains small.toNat)).getD []
  (small :: forms.map Char.ofNat).flatMap withCapitals

/-- Small letters whose capital form is written with several letters, with the first of these. -/
def firstCapitals : List (Nat × Nat) := [
    (0xdf, 0x53), (0x149, 0x2bc), (0x1f0, 0x4a), (0x390, 0x399), (0x3b0, 0x3a5), (0x587, 0x535),
    (0x1e96, 0x48), (0x1e97, 0x54), (0x1e98, 0x57), (0x1e99, 0x59), (0x1e9a, 0x41),
    (0x1f50, 0x3a5), (0x1f52, 0x3a5), (0x1f54, 0x3a5), (0x1f56, 0x3a5), (0x1f80, 0x1f08),
    (0x1f81, 0x1f09), (0x1f82, 0x1f0a), (0x1f83, 0x1f0b), (0x1f84, 0x1f0c), (0x1f85, 0x1f0d),
    (0x1f86, 0x1f0e), (0x1f87, 0x1f0f), (0x1f90, 0x1f28), (0x1f91, 0x1f29), (0x1f92, 0x1f2a),
    (0x1f93, 0x1f2b), (0x1f94, 0x1f2c), (0x1f95, 0x1f2d), (0x1f96, 0x1f2e), (0x1f97, 0x1f2f),
    (0x1fa0, 0x1f68), (0x1fa1, 0x1f69), (0x1fa2, 0x1f6a), (0x1fa3, 0x1f6b), (0x1fa4, 0x1f6c),
    (0x1fa5, 0x1f6d), (0x1fa6, 0x1f6e), (0x1fa7, 0x1f6f), (0x1fb2, 0x1fba), (0x1fb3, 0x391),
    (0x1fb4, 0x386), (0x1fb6, 0x391), (0x1fb7, 0x391), (0x1fc2, 0x1fca), (0x1fc3, 0x397),
    (0x1fc4, 0x389), (0x1fc6, 0x397), (0x1fc7, 0x397), (0x1fd2, 0x399), (0x1fd3, 0x399),
    (0x1fd6, 0x399), (0x1fd7, 0x399), (0x1fe2, 0x3a5), (0x1fe3, 0x3a5), (0x1fe4, 0x3a1),
    (0x1fe6, 0x3a5), (0x1fe7, 0x3a5), (0x1ff2, 0x1ffa), (0x1ff3, 0x3a9), (0x1ff4, 0x38f),
    (0x1ff6, 0x3a9), (0x1ff7, 0x3a9), (0xfb00, 0x46), (0xfb01, 0x46), (0xfb02, 0x46),
    (0xfb03, 0x46), (0xfb04, 0x46), (0xfb05, 0x53), (0xfb06, 0x53), (0xfb13, 0x544),
    (0xfb14, 0x544), (0xfb15, 0x544), (0xfb16, 0x54e), (0xfb17, 0x544)]

/-- Whether an item names a character. -/
def ClassItem.holds (c : Char) : ClassItem → Bool
  | .single d => c == d
  | .range lo hi => lo ≤ c && c ≤ hi
  | .kind k negated => k.holds c != negated

/-- The greatest code point of the plane within which sets fold case fully. -/
def foldedPlane : Nat := 0xffff

/-- Whether an item of a set names a character when case does not matter. Beyond the folded plane a single
item names the small letter only if it is written small; a range that reaches there also holds the letters
whose capital form starts in it. -/
def ClassItem.holdsAnyCase (c : Char) : ClassItem → Bool
  | .single d =>
    if foldedPlane < d.toNat then smallLetter c == d else (caseVariants c).contains d
  | .range lo hi =>
    let capital := (firstCapitals.lookup (smallLetter c).toNat).filter fun n =>
      foldedPlane < hi.toNat && lo.toNat ≤ n && n ≤ hi.toNat
    capital.isSome || (caseVariants c).any fun d => lo ≤ d && d ≤ hi
  | .kind k negated => k.holds c != negated

/-- The set that holds a single character. -/
def CharClass.single (c : Char) : CharClass := ⟨false, [.single c]⟩

/-- The set of what either of some sets holds. -/
def CharClass.union (classes : List CharClass) : CharClass :=
  ⟨false, (classes.flatMap (·.items)).eraseDups⟩

/-- Whether a character is in the set. With `anyCase` a set that was written as a single character holds all
its case variants, wherever they are. -/
def CharClass.holds (cls : CharClass) (anyCase : Bool) (c : Char) : Bool :=
  let named :=
    if anyCase then
      match cls.items with
      | [.single d] => (caseVariants c).contains d
      | items => items.any (·.holdsAnyCase c)
    else cls.items.any (·.holds c)
  named != cls.negated

end ListingEditor.Pattern
