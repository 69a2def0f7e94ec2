import ListingEditor.Double.Basic
import ListingEditor.Text.Blank
import ListingEditor.Text.Digit

/-!
Decimal numerals as users write them: with a sign, a point, an exponent, digits of any script, and underscores
between digits. A numeral stands for the double-precision number nearest to it.
-/

namespace ListingEditor.Numeral

/-- White space that may surround a numeral. The four separator controls of ASCII are not among it. -/
def isSurround (c : Char) : Bool := Text.isSpace c && !(0x1c ≤ c.toNat && c.toNat ≤ 0x1f)

/-- A digit of any script as an ASCII digit; other characters stay. -/
def plainDigit (c : Char) : Char :=
  match Text.digitValue? c with
  | some n => Char.ofNat ('0'.toNat + n)
  | none => c

/-- Whether every underscore stands between two digits. `previous` is the character before the text. -/
def underscoresFit (previous : Char) : List Char → Bool
  | [] => previous != '_'
  | c :: cs =>
    (c != '_' || previous.isDigit) && (previous != '_' || c.isDigit) && underscoresFit c cs

/-- The number that ASCII digits write. -/
def digitsValue (digits : List Char) : Nat :=
  digits.foldl (fun n c => n * 10 + (c.toNat - '0'.toNat)) 0

/-- Takes a sign off the front of a text; true means minus. -/
def takeSign : List Char → Bool × List Char
  | '-' :: cs => (true, cs)
  | '+' :: cs => (false, cs)
  | cs => (false, cs)

/-- The exponent that the rest of a numeral writes, if that is all it holds. -/
def exponent? : List Char → Option Int
  | [] => some 0
  | c :: cs =>
    if c = 'e' ∨ c = 'E' then
      let (negative, digits) := takeSign cs
      if digits.isEmpty || !digits.all Char.isDigit then none
      else some (if negative then -(digitsValue digits : Int) else digitsValue digits)
    else none

/-- Reads a number without its sign. -/
def unsigned? (negative : Bool) (cs : List Char) : Option Double :=
  let whole := cs.takeWhile Char.isDigit
  let rest := cs.dropWhile Char.isDigit
  let (fraction, rest) := match rest with
    | '.' :: tail => (tail.takeWhile Char.isDigit, tail.dropWhile Char.isDigit)
    | tail => ([], tail)
  if whole.isEmpty && fraction.isEmpty then none
  else
    (exponent? rest).map fun exponent =>
      Double.ofDecimal negative (digitsValue (whole ++ fraction)) (exponent - fraction.length)

/-- Reads a numeral, or one of the words for what is no number. -/
def read? (text : List Char) : Option Double :=
  let cs := (Text.trimEnd isSurround (Text.trimStart isSurround text)).map plainDigit
  if underscoresFit ' ' cs then
    let (negative, rest) := takeSign (cs.filter (· != '_'))
    let word := String.ofList (rest.map (·.toLower))
    if word = "inf" ∨ word = "infinity" then some (.infinite negative)
    else if word = "nan" then some .undefined
    else unsigned? negative rest
  else none

/-- Why a numeral gives no whole number. -/
inductive Fault where
  | malformed (text : List Char)
  | infinite
  | undefined
  deriving DecidableEq, Repr

/-- The whole number that a numeral stands for, its fraction cut off. -/
def toInt (text : List Char) : Except Fault Int :=
  match read? text with
  | none => .error (.malformed text)
  | some (.infinite _) => .error .infinite
  | some .undefined => .error .undefined
  | some (.finite negative mantissa exponent) =>
    .ok (Double.wholePart negative mantissa exponent)

end ListingEditor.Numeral
