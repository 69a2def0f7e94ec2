import ListingEditor.Double.Basic

/-!
Doubles as text: with the fewest digits that read back as the same double and, of those, the nearest ones.
-/

namespace ListingEditor.Double

/-- The decimal point of a positive quotient: the least number of digits in front of it, which is negative if
zeros come first. The quotient has to be above ten to the power of -340. -/
def pointOf (num den : Nat) : Int :=
  ((Nat.toDigits 10 (num * Nat.pow 10 340 / den)).length : Int) - 340

/-- The whole part and the rest, as a quotient, of a quotient divided by ten to the power of `exponent`. -/
def onGrid (num den : Nat) (exponent : Int) : Nat × Nat × Nat :=
  let den := den * Nat.pow 10 exponent.toNat
  let num := num * Nat.pow 10 (-exponent).toNat
  (num / den, num % den, den)

/-- The decimal on a grid that reads back as the given double and lies nearest to it; half-way goes to the even
one. -/
def hit? (mantissa : Nat) (exponent : Int) (num den : Nat) (grid : Int) : Option Nat :=
  let (below, rest, unit) := onGrid num den grid
  let readsBack := fun digits => ofDecimal false digits grid = .finite false mantissa exponent
  let nearBelow := 2 * rest < unit ∨ (2 * rest = unit ∧ below % 2 = 0)
  if readsBack below ∧ (nearBelow ∨ ¬ readsBack (below + 1)) then some below
  else if readsBack (below + 1) then some (below + 1)
  else none

/-- The shortest digits of a positive double, and the power of ten of the last one. Seventeen digits always read
back. -/
def shortest (mantissa : Nat) (exponent : Int) : Nat × Int :=
  let (num, den) := quotient mantissa exponent
  let point := pointOf num den
  ((List.range 17).findSome? fun n : Nat =>
    let grid := point - (n + 1 : Nat)
    (hit? mantissa exponent num den grid).map fun digits => (digits, grid)).getD (0, 0)

/-- Digits without the zeros at their end. -/
def withoutZeros (digits : List Char) : List Char := (digits.reverse.dropWhile (· == '0')).reverse

/-- Digits with a point behind the first `point` of them, zeros being put in where there are none. -/
def positional (digits : List Char) (point : Int) : List Char :=
  let whole := if 0 < point then digits.take point.toNat else ['0']
  let filled := whole ++ List.replicate (point.toNat - digits.length) '0'
  let fraction := List.replicate (-point).toNat '0' ++ digits.drop point.toNat
  filled ++ '.' :: (if fraction.isEmpty then ['0'] else fraction)

/-- Digits with a point behind the first, and an exponent of at least two digits. -/
def scientific (digits : List Char) (point : Int) : List Char :=
  let exponent := point - 1
  let size := Nat.toDigits 10 exponent.natAbs
  let fraction := digits.drop 1
  digits.take 1 ++ (if fraction.isEmpty then [] else '.' :: fraction) ++
    'e' :: (if exponent < 0 then '-' else '+') ::
      (if size.length < 2 then '0' :: size else size)

/-- A positive double as text. One from 10^-4 up to, not including, 10^16 is written out; others get an
exponent. -/
def positiveText (mantissa : Nat) (exponent : Int) : List Char :=
  let (number, grid) := shortest mantissa exponent
  let written := Nat.toDigits 10 number
  let point : Int := written.length + grid
  let digits := withoutZeros written
  if -4 < point ∧ point ≤ 16 then positional digits point else scientific digits point

/-- A double as text. -/
def render : Double → String
  | .finite negative mantissa exponent =>
    (if negative then "-" else "") ++
      if mantissa = 0 then "0.0" else String.ofList (positiveText mantissa exponent)
  | .infinite negative => if negative then "-inf" else "inf"
  | .undefined => "nan"

end ListingEditor.Double
