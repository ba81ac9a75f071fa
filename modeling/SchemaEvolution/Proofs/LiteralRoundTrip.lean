import SchemaEvolution.Proofs.LiteralText

/-!
The round trip of values. The integers that are held as integers are the decimal texts of numbers in
the range of 64-bit words. Values that are built from these, from strings, names and fixed words are
read back from their texts, and values without floats that were read are of that sort.
-/

namespace SchemaEvolution

theorem digitChar_of_isDigit {c : Char} (digit : c.isDigit = true) :
    c.toNat - '0'.toNat < 10 ∧ Nat.digitChar (c.toNat - '0'.toNat) = c := by
  have code : 48 ≤ c.toNat ∧ c.toNat ≤ 57 := by
    simp only [Char.isDigit, Bool.and_eq_true, decide_eq_true_eq, ge_iff_le,
      UInt32.le_iff_toNat_le] at digit
    exact digit
  have zero : '0'.toNat = 48 := rfl
  have small : c.toNat - '0'.toNat < 10 := by omega
  refine ⟨small, Char.toNat_inj.mp ?_⟩
  rw [Nat.toNat_digitChar_of_lt_ten small]
  omega

theorem toDigits_append_of_pos {digits : List Char} (allDigits : ∀ c ∈ digits, c.isDigit = true)
    {value : Nat} (positive : 0 < value) :
    Nat.toDigits 10 value ++ digits =
      Nat.toDigits 10
        (digits.foldl (fun value digit => value * 10 + (digit.toNat - '0'.toNat)) value) := by
  induction digits generalizing value with
  | nil => exact List.append_nil _
  | cons c digits ih =>
      obtain ⟨digit, others⟩ := List.forall_mem_cons.mp allDigits
      obtain ⟨small, isChar⟩ := digitChar_of_isDigit digit
      have first : Nat.toDigits 10 value ++ [c] =
          Nat.toDigits 10 (value * 10 + (c.toNat - '0'.toNat)) := by
        have both := Nat.toDigits_append_toDigits (by decide : 1 < 10) positive small
        rwa [Nat.toDigits_of_lt_base small, isChar, Nat.mul_comm] at both
      rw [List.foldl_cons, ← ih others (by omega), ← first, List.append_assoc]
      rfl

theorem IsWhole.eq_toDigits {digits : List Char} (isWhole : IsWhole digits) :
    digits = Nat.toDigits 10 (digitsValue digits) := by
  obtain ⟨first, rest, rfl⟩ := List.exists_cons_of_ne_nil isWhole.notEmpty
  obtain ⟨digit, others⟩ := List.forall_mem_cons.mp isWhole.allDigits
  obtain ⟨small, isChar⟩ := digitChar_of_isDigit digit
  by_cases zero : first = '0'
  · rw [isWhole.noZero (congrArg some zero)]
    rfl
  · have positive : 0 < first.toNat - '0'.toNat := by
      refine Nat.pos_of_ne_zero fun none => zero ?_
      rw [← isChar, none]
      rfl
    have all := toDigits_append_of_pos others positive
    rw [Nat.toDigits_of_lt_base small, isChar] at all
    rw [digitsValue, List.foldl_cons, Nat.zero_mul, Nat.zero_add, ← all]
    rfl

theorem digitsValue_toDigits (number : Nat) : digitsValue (Nat.toDigits 10 number) = number := by
  have value := Nat.ofDigitChars_ten_toDigits (n := number)
  rw [Nat.ofDigitChars_eq_foldl] at value
  simpa only [digitsValue, Nat.mul_comm] using value

theorem toDigits_of_head?_zero {number : Nat} (zero : (Nat.toDigits 10 number).head? = some '0') :
    Nat.toDigits 10 number = ['0'] := by
  induction number using Nat.strongRecOn with
  | ind number ih =>
      by_cases small : number < 10
      · rw [Nat.toDigits_of_lt_base small] at zero ⊢
        exact congrArg (· :: []) (Option.some.inj zero)
      · have split := Nat.toDigits_of_base_le (by decide : 1 < 10) (Nat.le_of_not_lt small)
        rw [split, List.head?_append_of_ne_nil _ Nat.toDigits_ne_nil] at zero
        have front := ih (number / 10) (by omega) zero
        have value := digitsValue_toDigits (number / 10)
        rw [front] at value
        have none : 0 = number / 10 := value
        omega

theorem isWhole_toDigits (number : Nat) : IsWhole (Nat.toDigits 10 number) where
  notEmpty := Nat.toDigits_ne_nil
  allDigits _ := Nat.isDigit_of_mem_toDigits (by decide) (by decide)
  noZero := toDigits_of_head?_zero

theorem isWordSized_true_iff (size : Nat) :
    Grammar.isWordSized true size = true ↔ 0 < size ∧ size ≤ 2 ^ 63 := by
  simp [Grammar.isWordSized]

theorem isWordSized_false_iff (size : Nat) :
    Grammar.isWordSized false size = true ↔ size < 2 ^ 64 := by
  simp [Grammar.isWordSized]

theorem toList_toString_natCast (number : Nat) :
    (toString (number : Int)).toList = Nat.toDigits 10 number := by
  rw [Int.toString_eq_repr, Int.repr_eq_if, if_pos (Int.natCast_nonneg _), Int.toNat_natCast,
    Nat.repr_eq_ofList_toDigits, String.toList_ofList]

theorem toList_toString_neg {number : Nat} (positive : 0 < number) :
    (toString (-(number : Int))).toList = '-' :: Nat.toDigits 10 number := by
  have digits : (String.ofList (Nat.toDigits 10 number)).toList = Nat.toDigits 10 number :=
    String.toList_ofList
  rw [Int.toString_eq_repr, Int.repr_eq_if, if_neg (by omega), Int.neg_neg, Int.toNat_natCast,
    Nat.repr_eq_ofList_toDigits, String.toList_append, digits]
  rfl

/-- An integer that is held as one is the decimal text of a number in the range of words. -/
theorem isWordText_iff (chars : List Char) :
    IsWordText chars ↔
      ∃ number : Int, -2 ^ 63 ≤ number ∧ number < 2 ^ 64 ∧ chars = (toString number).toList := by
  constructor
  · rintro ⟨negative, whole, rfl, isWhole, sized⟩
    cases negative with
    | true =>
        obtain ⟨positive, most⟩ := (isWordSized_true_iff _).mp sized
        refine ⟨-(digitsValue whole : Int), by omega, by omega, ?_⟩
        rw [toList_toString_neg positive, ← isWhole.eq_toDigits]
        rfl
    | false =>
        have most := (isWordSized_false_iff _).mp sized
        refine ⟨(digitsValue whole : Int), by omega, by omega, ?_⟩
        rw [toList_toString_natCast, ← isWhole.eq_toDigits]
        rfl
  · rintro ⟨number, least, most, rfl⟩
    by_cases negative : number < 0
    · obtain ⟨size, rfl⟩ : ∃ size : Nat, number = -(size : Int) := ⟨number.natAbs, by omega⟩
      have positive : 0 < size := by omega
      refine ⟨true, Nat.toDigits 10 size, toList_toString_neg positive, isWhole_toDigits size, ?_⟩
      rw [digitsValue_toDigits, isWordSized_true_iff]
      omega
    · obtain ⟨size, rfl⟩ := Int.eq_ofNat_of_zero_le (Int.not_lt.mp negative)
      refine ⟨false, Nat.toDigits 10 size, toList_toString_natCast size, isWhole_toDigits size, ?_⟩
      rw [digitsValue_toDigits, isWordSized_false_iff]
      omega

namespace Value

/-- No number with a fraction or exponent stands in the value, integers are the decimal texts of
numbers in the range of words, enum values are names that start with none of the fixed words, and
the fields of an object have names in ascending order. -/
def exact : Rules where
  int chars :=
    ∃ number : Int, -2 ^ 63 ≤ number ∧ number < 2 ^ 64 ∧ chars = (toString number).toList
  float _ := False
  enum := IsLiteralName
  names names := (∀ name ∈ names, Text.isName name.toList = true) ∧ names.Pairwise (· < ·)

theorem obeys_exact_iff (value : Value) : value.Obeys exact ↔ value.Obeys literal := by
  have forth : exact.Imply exact literal :=
    ⟨fun chars word _ => (isWordText_iff chars).mpr word, fun _ _ float => float,
      fun _ name _ => name, fun _ names _ => names⟩
  have back : literal.Imply literal exact :=
    ⟨fun chars word _ => (isWordText_iff chars).mp word, fun _ _ float => float,
      fun _ name _ => name, fun _ names _ => names⟩
  exact ⟨fun obeys => Obeys.of_both forth value obeys obeys,
    fun obeys => Obeys.of_both back value obeys obeys⟩

/-- Exact values are read back from their texts, and values without floats that are read are exact.
-/
theorem exact_values_round_trip :
    (∀ value : Value, value.Obeys exact → parse value.text = .ok value) ∧
      ∀ (input : String) (value : Value), parse input = .ok value → value.Obeys floatless →
        value.Obeys exact ∧ parse value.text = .ok value := by
  constructor
  · intro value obeys
    exact parse_text ((obeys_exact_iff value).mp obeys)
  · intro input value read noFloat
    have obeys := obeys_literal (obeys_readable_of_parse read) noFloat
    exact ⟨(obeys_exact_iff value).mpr obeys, parse_text obeys⟩

def deepDefault : Value :=
  .list [.object [("a", .int "-9223372036854775808"), ("b", .string "\"\n\\ \u0001")],
    .enum "RED", .list [], .object [], .boolean false, .null]

theorem deepDefault_read_back : parse deepDefault.text = .ok deepDefault := by
  have least : ∃ number : Int, -2 ^ 63 ≤ number ∧ number < 2 ^ 64 ∧
      "-9223372036854775808".toList = (toString number).toList := ⟨-2 ^ 63, by decide, by decide, rfl⟩
  have red : IsLiteralName "RED".toList := ⟨rfl, by decide⟩
  have areNames : ∀ name ∈ ["a", "b"], Text.isName name.toList = true := by decide
  have names : exact.names ["a", "b"] := ⟨areNames, by decide⟩
  have noNames : exact.names [] := ⟨fun _ none => absurd none List.not_mem_nil, List.Pairwise.nil⟩
  exact exact_values_round_trip.1 deepDefault
    ⟨⟨names, least, trivial, trivial⟩, red, trivial, ⟨noNames, trivial⟩, trivial, trivial, trivial⟩

end Value

end SchemaEvolution
