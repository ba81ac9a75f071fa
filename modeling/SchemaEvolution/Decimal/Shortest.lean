import SchemaEvolution.Decimal.Binary64

/-!
Writing a binary number with the fewest decimal digits that read back to it. The numbers that round
to it form an interval; of the decimals in that interval with the fewest digits the closest is
taken, and of two equally close ones the even one.
-/

namespace SchemaEvolution.Binary64

/-- The gap to the next smaller number is half the gap to the next greater one. -/
def narrowBelow (value : Binary64) : Bool :=
  value.significand == Nat.pow 2 52 && value.exponent > leastExponent

def compareToQuarters (decimal : Decimal) (quarters : Nat) (exponent : Int) : Ordering :=
  let shift := exponent - 2
  compare (decimal.digits * Nat.pow 10 decimal.exponent.toNat * Nat.pow 2 (-shift).toNat)
    (quarters * Nat.pow 2 shift.toNat * Nat.pow 10 (-decimal.exponent).toNat)

/-- The decimal lies among the numbers that round to this one. The ends of that interval belong to
it when the significand is even. -/
def readsBack (value : Binary64) (decimal : Decimal) : Bool :=
  let low := 4 * value.significand - (if value.narrowBelow then 1 else 2)
  let high := 4 * value.significand + 2
  let closed := value.significand % 2 == 0
  let fromLow := compareToQuarters decimal low value.exponent
  let toHigh := compareToQuarters decimal high value.exponent
  (fromLow == .gt || (closed && fromLow == .eq)) && (toHigh == .lt || (closed && toHigh == .eq))

def decimalMagnitude (value : Binary64) : Int :=
  if value.denominator ≤ value.numerator then
    digitCount (value.numerator / value.denominator)
  else
    1 - digitCount ((value.denominator - 1) / value.numerator)

/-- The decimal with that many digits that stands for the positive number, if there is one: one of
its two neighbours on the grid of those decimals. -/
def withDigits? (value : Binary64) (count : Nat) : Option Decimal :=
  let exponent := value.decimalMagnitude - count
  let scaled := value.numerator * Nat.pow 10 (-exponent).toNat
  let unit := value.denominator * Nat.pow 10 exponent.toNat
  let below : Decimal := ⟨scaled / unit, exponent⟩
  let above : Decimal := ⟨scaled / unit + 1, exponent⟩
  match value.readsBack below, value.readsBack above with
  | true, true => some ⟨roundQuotient scaled unit, exponent⟩
  | true, false => some below
  | false, true => some above
  | false, false => none

/-- The shortest decimal that reads back to the positive number. Seventeen digits suffice for every
number; were they not to, the number's exact value would be written. -/
def shortest (value : Binary64) : Decimal :=
  match (List.range 17).findSome? fun index => value.withDigits? (index + 1) with
  | some decimal => decimal
  | none =>
      ⟨value.numerator * Nat.pow 5 (-value.exponent).toNat,
        if value.exponent < 0 then value.exponent else 0⟩

def stripZeros (digits : List Char) : List Char × Nat :=
  let zeros := digits.reverse.takeWhile (· == '0')
  (digits.take (digits.length - zeros.length), zeros.length)

/-- Digits with a point: plain while the leading digit stands between the sixth place after the
point and the sixteenth before it, otherwise one digit before the point and a signed exponent. A
plain number always has a digit on both sides of the point. -/
def layout (digits : List Char) (leading : Int) : List Char :=
  if 0 ≤ leading ∧ leading ≤ 15 then
    let whole := leading.toNat + 1
    let fraction := digits.drop whole
    digits.take whole ++ List.replicate (whole - digits.length) '0' ++
      '.' :: (if fraction.isEmpty then ['0'] else fraction)
  else if -5 ≤ leading ∧ leading < 0 then
    '0' :: '.' :: (List.replicate ((-leading).toNat - 1) '0' ++ digits)
  else
    let fraction := digits.drop 1
    digits.take 1 ++ (if fraction.isEmpty then [] else '.' :: fraction) ++
      'e' :: (if 0 ≤ leading then '+' else '-') :: Nat.toDigits 10 leading.natAbs

def chars (value : Binary64) : List Char :=
  if value.significand = 0 then ['0', '.', '0']
  else
    let decimal := value.shortest
    let (digits, zeros) := stripZeros (Nat.toDigits 10 decimal.digits)
    layout digits (decimal.exponent + zeros + digits.length - 1)

end SchemaEvolution.Binary64
