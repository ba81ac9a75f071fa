import SchemaEvolution.Decimal.Binary64

/-!
Numerals: an optional sign, a whole part without leading zeros, then an optional fraction and an
optional exponent. A fraction or exponent that is not complete does not belong to the numeral.
-/

namespace SchemaEvolution

/-- A numeral, part by part. An absent fraction or exponent has no digits. -/
structure Numeral where
  negative : Bool
  whole : List Char
  fraction : List Char
  exponentSign : List Char
  exponent : List Char
  deriving DecidableEq, Repr

def digitsValue (digits : List Char) : Nat :=
  digits.foldl (fun value digit => value * 10 + (digit.toNat - '0'.toNat)) 0

namespace Numeral

def isDigit (c : Char) : Bool :=
  '0' ≤ c && c ≤ '9'

def readDigits (text : List Char) : List Char × List Char :=
  (text.takeWhile isDigit, text.dropWhile isDigit)

def readWhole? : List Char → Option (List Char × List Char)
  | '0' :: rest => some (['0'], rest)
  | text =>
      match readDigits text with
      | ([], _) => none
      | found => some found

def readFraction (text : List Char) : List Char × List Char :=
  match text with
  | '.' :: rest =>
      match readDigits rest with
      | ([], _) => ([], text)
      | found => found
  | _ => ([], text)

def readSign : List Char → List Char × List Char
  | '+' :: rest => (['+'], rest)
  | '-' :: rest => (['-'], rest)
  | text => ([], text)

def readExponent (text : List Char) : (List Char × List Char) × List Char :=
  match text with
  | mark :: rest =>
      if mark = 'e' ∨ mark = 'E' then
        let (sign, afterSign) := readSign rest
        match readDigits afterSign with
        | ([], _) => (([], []), text)
        | (digits, afterDigits) => ((sign, digits), afterDigits)
      else (([], []), text)
  | [] => (([], []), text)

def readMinus : List Char → Bool × List Char
  | '-' :: rest => (true, rest)
  | text => (false, text)

def read? (text : List Char) : Option (Numeral × List Char) :=
  let (negative, unsigned) := readMinus text
  match readWhole? unsigned with
  | none => none
  | some (whole, afterWhole) =>
      let (fraction, afterFraction) := readFraction afterWhole
      let ((exponentSign, exponent), rest) := readExponent afterFraction
      some (⟨negative, whole, fraction, exponentSign, exponent⟩, rest)

theorem length_readDigits_le (text : List Char) : (readDigits text).2.length ≤ text.length :=
  (List.dropWhile_sublist _).length_le

theorem length_of_readWhole? {text whole rest : List Char}
    (found : readWhole? text = some (whole, rest)) : rest.length < text.length := by
  unfold readWhole? at found
  split at found
  · cases found
    simp
  · split at found
    · cases found
    · rename_i other _ someDigits
      cases found
      unfold readDigits at *
      cases text with
      | nil => simp at someDigits
      | cons head tail =>
          by_cases digit : isDigit head = true
          · have := (List.dropWhile_sublist isDigit (l := tail)).length_le
            simp only [List.dropWhile_cons, digit, if_true, List.length_cons]
            omega
          · simp [digit] at someDigits

theorem length_readFraction_le (text : List Char) :
    (readFraction text).2.length ≤ text.length := by
  unfold readFraction
  split
  · rename_i rest
    have := length_readDigits_le rest
    split
    · simp
    · simp only [List.length_cons]
      omega
  · simp

theorem length_readSign_le (text : List Char) : (readSign text).2.length ≤ text.length := by
  unfold readSign
  split <;> simp

theorem length_readExponent_le (text : List Char) :
    (readExponent text).2.length ≤ text.length := by
  unfold readExponent
  split
  · rename_i mark rest
    split
    · have afterSign := length_readSign_le rest
      have afterDigits := length_readDigits_le (readSign rest).2
      dsimp only
      split
      · simp
      · rename_i found
        rw [found] at afterDigits
        dsimp only at afterDigits ⊢
        simp only [List.length_cons]
        omega
    · simp
  · simp

theorem length_readMinus_le (text : List Char) : (readMinus text).2.length ≤ text.length := by
  unfold readMinus
  split <;> simp

theorem length_of_read? {text rest : List Char} {numeral : Numeral}
    (found : read? text = some (numeral, rest)) : rest.length < text.length := by
  unfold read? at found
  dsimp only at found
  split at found
  · cases found
  · rename_i whole afterWhole wholeFound
    cases found
    have := length_readMinus_le text
    have := length_of_readWhole? wholeFound
    have := length_readFraction_le afterWhole
    have := length_readExponent_le (readFraction afterWhole).2
    omega

/-- The characters of a numeral, its exponent behind a small letter. -/
def chars (numeral : Numeral) : List Char :=
  (if numeral.negative then ['-'] else []) ++ numeral.whole ++
    (if numeral.fraction.isEmpty then [] else '.' :: numeral.fraction) ++
    (if numeral.exponent.isEmpty then [] else 'e' :: (numeral.exponentSign ++ numeral.exponent))

def isInteger (numeral : Numeral) : Bool :=
  numeral.fraction.isEmpty && numeral.exponent.isEmpty

/-- Digits put behind a value as long as it stays in a 64-bit word, and the digits that are left. -/
def appendDigits (value : Nat) : List Char → Nat × List Char
  | [] => (value, [])
  | digit :: rest =>
      let next := value * 10 + digitsValue [digit]
      if next < Nat.pow 2 64 then appendDigits next rest else (value, digit :: rest)

/-- The size of the number that the numeral writes. Digits that do not fit the word any more are
passed over, in the whole part and once more in the fraction; those of the whole part still count.
-/
def decimal (numeral : Numeral) : Decimal :=
  let (whole, uncounted) := appendDigits 0 numeral.whole
  let (digits, unread) := appendDigits whole numeral.fraction
  let exponent : Int := digitsValue numeral.exponent
  { digits
    exponent :=
      (if numeral.exponentSign = ['-'] then -exponent else exponent) + uncounted.length
        - (numeral.fraction.length - unread.length : Nat) }

def binary64? (numeral : Numeral) : Option Binary64 :=
  Binary64.ofDecimal? numeral.decimal

end Numeral

end SchemaEvolution
