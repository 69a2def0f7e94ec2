/-!
Double-precision numbers. A decimal stands for the double nearest to it, and half-way goes to the one with the
even mantissa.
-/

namespace ListingEditor

/-- A double-precision number: a whole number below two to the power of 53 times a power of two, with a sign
that zero has too, an infinity, or what is no number. -/
inductive Double where
  | finite (negative : Bool) (mantissa : Nat) (exponent : Int)
  | infinite (negative : Bool)
  | undefined
  deriving DecidableEq, Repr

namespace Double

/-- The whole number nearest to a quotient; half-way goes to the even one. -/
def roundQuotient (num den : Nat) : Nat :=
  let q := num / den
  let r := num % den
  if 2 * r < den then q else if den < 2 * r then q + 1 else if q % 2 = 0 then q else q + 1

/-- A quotient divided by two to the power of `shift`, rounded to a whole number. -/
def roundScaled (num den : Nat) (shift : Int) : Nat :=
  if 0 ≤ shift then roundQuotient num (den <<< shift.toNat)
  else roundQuotient (num <<< (-shift).toNat) den

/-- The exponent that gives a mantissa of 53 binary digits to a quotient, or the least one there is. -/
def exponentFor (num den : Nat) : Int :=
  let guess : Int := (num.log2 : Int) - den.log2 - 52
  let short := if 0 ≤ guess then num < den <<< (guess.toNat + 52)
    else num <<< (-guess).toNat < den <<< 52
  max (if short then guess - 1 else guess) (-1074)

/-- The double nearest to a quotient of positive numbers. Rounding up can add a binary digit, which the
exponent takes over; from two to the power of 1024 on there are only infinities. -/
def ofQuotient (negative : Bool) (num den : Nat) : Double :=
  let exponent := exponentFor num den
  let mantissa := roundScaled num den exponent
  let (mantissa, exponent) :=
    if mantissa = 1 <<< 53 then (1 <<< 52, exponent + 1) else (mantissa, exponent)
  if 971 < exponent then .infinite negative else .finite negative mantissa exponent

/-- The double nearest to `digits` times ten to the power of `exponent`. Its size shows at once when it is far
out of range. -/
def ofDecimal (negative : Bool) (digits : Nat) (exponent : Int) : Double :=
  let magnitude : Int := (Nat.toDigits 10 digits).length + exponent
  if digits = 0 ∨ magnitude < -400 then .finite negative 0 0
  else if 400 < magnitude then .infinite negative
  else if 0 ≤ exponent then ofQuotient negative (digits * Nat.pow 10 exponent.toNat) 1
  else ofQuotient negative digits (Nat.pow 10 (-exponent).toNat)

/-- A finite double as a quotient. -/
def quotient (mantissa : Nat) (exponent : Int) : Nat × Nat :=
  (mantissa <<< exponent.toNat, 1 <<< (-exponent).toNat)

/-- A finite double cut off at the point. -/
def wholePart (negative : Bool) (mantissa : Nat) (exponent : Int) : Int :=
  let (num, den) := quotient mantissa exponent
  if negative then -((num / den : Nat) : Int) else (num / den : Nat)

/-- Whether a double is zero, with either sign. -/
def isZero : Double → Bool
  | .finite _ mantissa _ => mantissa == 0
  | _ => false

/-- A double as a whole number divided by a positive one, if it is finite. -/
def ratio? : Double → Option (Int × Nat)
  | .finite negative mantissa exponent =>
    let (num, den) := quotient mantissa exponent
    some (if negative then -(num : Int) else num, den)
  | _ => none

end Double

end ListingEditor
