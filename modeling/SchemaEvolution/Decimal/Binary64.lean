/-!
Binary numbers of 53 significant bits, the double precision that numbers with a fraction or an
exponent have. An operation rounds its exact result to the nearest representable number, a tie to
the even one. A decimal is read in two such steps, its digits first and then their product with a
power of ten, so that what is read can differ from the number nearest to the decimal.
-/

namespace SchemaEvolution

structure Decimal where
  digits : Nat
  exponent : Int
  deriving DecidableEq, Repr

/-- The number `significand * 2 ^ exponent`; zero has significand zero. -/
structure Binary64 where
  significand : Nat
  exponent : Int
  deriving DecidableEq, Repr

/-- The quotient rounded to the nearest integer, a half to the even neighbour. -/
def roundQuotient (numerator denominator : Nat) : Nat :=
  let quotient := numerator / denominator
  match compare (2 * (numerator % denominator)) denominator with
  | .lt => quotient
  | .gt => quotient + 1
  | .eq => if quotient % 2 = 0 then quotient else quotient + 1

def digitCount (value : Nat) : Nat :=
  (Nat.toDigits 10 value).length

namespace Binary64

/-- The exponent of the unit in the last place of the smallest numbers. -/
def leastExponent : Int :=
  -1074

def greatestExponent : Int :=
  971

def numerator (value : Binary64) : Nat :=
  value.significand * Nat.pow 2 value.exponent.toNat

def denominator (value : Binary64) : Nat :=
  Nat.pow 2 (-value.exponent).toNat

/-- The exponent of the greatest power of two that a positive quotient reaches. -/
def leadingExponent (numerator denominator : Nat) : Int :=
  let guess : Int := numerator.log2 - denominator.log2
  if denominator * Nat.pow 2 guess.toNat ≤ numerator * Nat.pow 2 (-guess).toNat then guess
  else guess - 1

/-- The nearest number to a quotient, or none beyond the greatest one. -/
def ofQuotient? (numerator denominator : Nat) : Option Binary64 :=
  let exponent := max (leadingExponent numerator denominator - 52) leastExponent
  let significand :=
    roundQuotient (numerator * Nat.pow 2 (-exponent).toNat) (denominator * Nat.pow 2 exponent.toNat)
  let rounded : Binary64 :=
    if significand = Nat.pow 2 53 then ⟨Nat.pow 2 52, exponent + 1⟩ else ⟨significand, exponent⟩
  if rounded.exponent > greatestExponent then none else some rounded

def times? (left right : Binary64) : Option Binary64 :=
  ofQuotient? (left.numerator * right.numerator) (left.denominator * right.denominator)

def over? (left right : Binary64) : Option Binary64 :=
  ofQuotient? (left.numerator * right.denominator) (left.denominator * right.numerator)

def greatestPower : Nat :=
  308

def powerOfTen? (exponent : Nat) : Option Binary64 :=
  ofQuotient? (Nat.pow 10 exponent) 1

/-- The number times a power of ten. An exponent below the range of powers is gone through in steps
of the greatest one; above the range, only zero has a product. -/
def scaled? (size : Binary64) (exponent : Int) : Option Binary64 :=
  if exponent.natAbs ≤ greatestPower then do
    let power ← powerOfTen? exponent.natAbs
    if 0 ≤ exponent then size.times? power else size.over? power
  else if size.significand = 0 then some size
  else if 0 ≤ exponent then none
  else do
    let power ← powerOfTen? greatestPower
    let quotient ← size.over? power
    quotient.scaled? (exponent + greatestPower)
termination_by exponent.natAbs
decreasing_by
  unfold greatestPower at *
  omega

def ofDecimal? (decimal : Decimal) : Option Binary64 := do
  let size ← ofQuotient? decimal.digits 1
  size.scaled? decimal.exponent

end Binary64

end SchemaEvolution
