import Mathlib.Tactic.IntervalCases
import SchemaEvolution.Json.Parse

/-!
The text of a JSON value determines the value, as long as no number stands in it: numbers are held
as text that nothing closes. Each part of a text tells where it ends, so what stands behind it is
determined too, and parts can be read off one after another.
-/

namespace SchemaEvolution

theorem Text.hexValue?_lowerHexDigit {value : Nat} (small : value < 16) :
    hexValue? (lowerHexDigit value) = some value := by
  interval_cases value <;> rfl

theorem Text.hexDigits_four (digit : Nat → Char) (value : Nat) :
    hexDigits digit 4 value =
      [digit (value / 16 / 16 / 16 % 16), digit (value / 16 / 16 % 16), digit (value / 16 % 16),
        digit (value % 16)] :=
  rfl

/-- Four digits of either case write a number that they are enough for. -/
theorem Text.hexQuad?_digits {digit : Nat → Char}
    (reads : ∀ {value}, value < 16 → hexValue? (digit value) = some value) {value : Nat}
    (small : value < 65536) :
    hexQuad? (digit (value / 16 / 16 / 16 % 16)) (digit (value / 16 / 16 % 16))
      (digit (value / 16 % 16)) (digit (value % 16)) = some value := by
  have last (number : Nat) : hexValue? (digit (number % 16)) = some (number % 16) :=
    reads (Nat.mod_lt _ (by decide))
  simp only [hexQuad?, last, Option.bind_eq_bind, Option.bind_some, Option.pure_def,
    Option.some.injEq]
  omega

namespace Json

theorem readCharacter?_escape (c : Char) (rest : List Char) :
    readCharacter? (escape c ++ rest) = some (c, rest) := by
  unfold escape
  split_ifs with quote backslash backspace feed line carriage tab control
  · subst quote; rfl
  · subst backslash; rfl
  · subst backspace; rfl
  · subst feed; rfl
  · subst line; rfl
  · subst carriage; rfl
  · subst tab; rfl
  · have code : Text.hexQuad? _ _ _ _ = some c.toNat :=
      Text.hexQuad?_digits Text.hexValue?_lowerHexDigit (Nat.lt_trans control (by decide))
    have notHigh : isHighSurrogate c.toNat = false := by
      simp only [isHighSurrogate, Bool.and_eq_false_iff, decide_eq_false_iff_not]
      omega
    have notLow : isLowSurrogate c.toNat = false := by
      simp only [isLowSurrogate, Bool.and_eq_false_iff, decide_eq_false_iff_not]
      omega
    rw [Text.hexDigits_four]
    simp only [List.cons_append, List.nil_append, readCharacter?, code, notHigh, notLow,
      Option.bind_eq_bind, Option.bind_some, Bool.false_eq_true, if_false, Char.ofNat_toNat]
  · rw [List.singleton_append, readCharacter?]
    · rw [if_neg (not_or.mpr ⟨backslash, control⟩)]
    · rintro _ _ _ _ _ rfl
      exact absurd rfl backslash
    · rintro _ _ rfl
      exact absurd rfl backslash

theorem escape_append_ne_quote (c : Char) (rest behind : List Char) :
    escape c ++ rest ≠ '"' :: behind := by
  intro same
  -- Read back, both sides would start with the same character, and that would be the quote itself.
  have read := congrArg readCharacter? same
  rw [readCharacter?_escape] at read
  obtain ⟨rfl, _⟩ := Prod.mk.inj (Option.some.inj read)
  cases same

/-- A text between quotes tells where it ends. -/
theorem escaped_append_inj {left right : List Char} {leftRest rightRest : List Char}
    (same : left.flatMap escape ++ '"' :: leftRest = right.flatMap escape ++ '"' :: rightRest) :
    left = right ∧ leftRest = rightRest := by
  induction left generalizing right with
  | nil =>
      cases right with
      | nil => simpa using same
      | cons d right =>
          rw [List.flatMap_cons, List.append_assoc] at same
          exact absurd same.symm (escape_append_ne_quote d _ _)
  | cons c left ih =>
      cases right with
      | nil =>
          rw [List.flatMap_cons, List.append_assoc] at same
          exact absurd same (escape_append_ne_quote c _ _)
      | cons d right =>
          rw [List.flatMap_cons, List.flatMap_cons, List.append_assoc, List.append_assoc] at same
          have read := congrArg readCharacter? same
          rw [readCharacter?_escape, readCharacter?_escape] at read
          obtain ⟨rfl, later⟩ := Prod.mk.inj (Option.some.inj read)
          obtain ⟨rfl, behind⟩ := ih later
          exact ⟨rfl, behind⟩

theorem quote_append_inj {left right : String} {leftRest rightRest : List Char}
    (same : quote left ++ leftRest = quote right ++ rightRest) :
    left = right ∧ leftRest = rightRest := by
  simp only [quote, List.cons_append, List.append_assoc, List.nil_append, List.cons.injEq,
    true_and] at same
  obtain ⟨content, behind⟩ := escaped_append_inj same
  exact ⟨String.toList_inj.mp content, behind⟩

mutual

def isNumberless : Json → Bool
  | null | bool _ | string _ => true
  | number _ => false
  | array items => itemsNumberless items
  | object members => membersNumberless members

def itemsNumberless : List Json → Bool
  | [] => true
  | item :: rest => item.isNumberless && itemsNumberless rest

def membersNumberless : List (String × Json) → Bool
  | [] => true
  | (_, value) :: rest => value.isNumberless && membersNumberless rest

end

theorem newLine_append (level : Nat) (rest : List Char) :
    newLine level ++ rest = '\n' :: (List.replicate (2 * level) ' ' ++ rest) :=
  rfl

mutual

/-- The text of a value tells where it ends. -/
theorem prettyChars_append_inj (level : Nat) {leftRest rightRest : List Char} :
    (left right : Json) → left.isNumberless = true → right.isNumberless = true →
      prettyChars level left ++ leftRest = prettyChars level right ++ rightRest →
      left = right ∧ leftRest = rightRest
  | null, right, _, rightPlain, same | bool true, right, _, rightPlain, same
  | bool false, right, _, rightPlain, same | array [], right, _, rightPlain, same
  | object [], right, _, rightPlain, same => by
      rcases right with _ | (_ | _) | _ | _ | (_ | ⟨_, _⟩) | (_ | ⟨_, _⟩)
      all_goals simp_all [prettyChars, quote, isNumberless, newLine]
  | string left, right, _, rightPlain, same => by
      rcases right with _ | (_ | _) | _ | _ | (_ | ⟨_, _⟩) | (_ | ⟨_, _⟩)
      case string right =>
        obtain ⟨rfl, behind⟩ := quote_append_inj same
        exact ⟨rfl, behind⟩
      all_goals simp_all [prettyChars, quote, isNumberless]
  | array (left :: lefts), right, leftPlain, rightPlain, same => by
      rcases right with _ | (_ | _) | _ | _ | (_ | ⟨_, _⟩) | (_ | ⟨_, _⟩)
      case array.cons right rights =>
        simp only [prettyChars, List.cons_append, List.append_assoc, List.cons.injEq, true_and,
          newLine_append, List.append_cancel_left_eq] at same
        obtain ⟨items, behind⟩ := prettyItems_append_inj (level + 1) (left :: lefts)
          (right :: rights) (by simp) (by simp) leftPlain rightPlain same
        rw [items]
        simpa using behind
      all_goals simp_all [prettyChars, quote, isNumberless, newLine]
  | object (left :: lefts), right, leftPlain, rightPlain, same => by
      rcases right with _ | (_ | _) | _ | _ | (_ | ⟨_, _⟩) | (_ | ⟨_, _⟩)
      case object.cons right rights =>
        simp only [prettyChars, List.cons_append, List.append_assoc, List.cons.injEq, true_and,
          newLine_append, List.append_cancel_left_eq] at same
        obtain ⟨members, behind⟩ := prettyMembers_append_inj (level + 1) (left :: lefts)
          (right :: rights) (by simp) (by simp) leftPlain rightPlain same
        rw [members]
        simpa using behind
      all_goals simp_all [prettyChars, quote, isNumberless, newLine]

theorem prettyItems_append_inj (level : Nat) {leftRest rightRest : List Char} :
    (lefts rights : List Json) → lefts ≠ [] → rights ≠ [] → itemsNumberless lefts = true →
      itemsNumberless rights = true →
      prettyItems level lefts ++ '\n' :: leftRest = prettyItems level rights ++ '\n' :: rightRest →
      lefts = rights ∧ leftRest = rightRest
  | [], _, leftSome, _, _, _, _ => absurd rfl leftSome
  | _, [], _, rightSome, _, _, _ => absurd rfl rightSome
  | [left], [right], _, _, leftPlain, rightPlain, same => by
      simp only [itemsNumberless, Bool.and_true] at leftPlain rightPlain
      obtain ⟨rfl, behind⟩ := prettyChars_append_inj level left right leftPlain rightPlain same
      exact ⟨rfl, (List.cons.inj behind).2⟩
  | [left], right :: next :: rights, _, _, leftPlain, rightPlain, same => by
      simp only [itemsNumberless, Bool.and_eq_true] at leftPlain rightPlain
      simp only [prettyItems, List.append_assoc, List.cons_append] at same
      obtain ⟨_, behind⟩ := prettyChars_append_inj level left right leftPlain.1 rightPlain.1 same
      cases behind
  | left :: next :: lefts, [right], _, _, leftPlain, rightPlain, same => by
      simp only [itemsNumberless, Bool.and_eq_true] at leftPlain rightPlain
      simp only [prettyItems, List.append_assoc, List.cons_append] at same
      obtain ⟨_, behind⟩ := prettyChars_append_inj level left right leftPlain.1 rightPlain.1 same
      cases behind
  | left :: nextLeft :: lefts, right :: nextRight :: rights, _, _, leftPlain, rightPlain, same => by
      rw [itemsNumberless, Bool.and_eq_true] at leftPlain rightPlain
      simp only [prettyItems, List.append_assoc, List.cons_append] at same
      obtain ⟨rfl, behind⟩ := prettyChars_append_inj level left right leftPlain.1 rightPlain.1 same
      simp only [List.cons.injEq, true_and, List.append_cancel_left_eq] at behind
      obtain ⟨items, behind⟩ := prettyItems_append_inj level (nextLeft :: lefts)
        (nextRight :: rights) (by simp) (by simp) leftPlain.2 rightPlain.2 behind
      exact ⟨congrArg (left :: ·) items, behind⟩

theorem prettyMembers_append_inj (level : Nat) {leftRest rightRest : List Char} :
    (lefts rights : List (String × Json)) → lefts ≠ [] → rights ≠ [] →
      membersNumberless lefts = true → membersNumberless rights = true →
      prettyMembers level lefts ++ '\n' :: leftRest =
        prettyMembers level rights ++ '\n' :: rightRest →
      lefts = rights ∧ leftRest = rightRest
  | [], _, leftSome, _, _, _, _ => absurd rfl leftSome
  | _, [], _, rightSome, _, _, _ => absurd rfl rightSome
  | [(leftName, left)], [(rightName, right)], _, _, leftPlain, rightPlain, same => by
      simp only [membersNumberless, Bool.and_true] at leftPlain rightPlain
      simp only [prettyMembers, List.append_assoc, List.cons_append] at same
      obtain ⟨rfl, value⟩ := quote_append_inj same
      simp only [List.cons.injEq, true_and] at value
      obtain ⟨rfl, behind⟩ := prettyChars_append_inj level left right leftPlain rightPlain value
      exact ⟨rfl, (List.cons.inj behind).2⟩
  | [(leftName, left)], (rightName, right) :: next :: rights, _, _, leftPlain, rightPlain, same => by
      simp only [membersNumberless, Bool.and_eq_true] at leftPlain rightPlain
      simp only [prettyMembers, List.append_assoc, List.cons_append] at same
      obtain ⟨_, value⟩ := quote_append_inj same
      simp only [List.cons.injEq, true_and] at value
      obtain ⟨_, behind⟩ := prettyChars_append_inj level left right leftPlain.1 rightPlain.1 value
      cases behind
  | (leftName, left) :: next :: lefts, [(rightName, right)], _, _, leftPlain, rightPlain, same => by
      simp only [membersNumberless, Bool.and_eq_true] at leftPlain rightPlain
      simp only [prettyMembers, List.append_assoc, List.cons_append] at same
      obtain ⟨_, value⟩ := quote_append_inj same
      simp only [List.cons.injEq, true_and] at value
      obtain ⟨_, behind⟩ := prettyChars_append_inj level left right leftPlain.1 rightPlain.1 value
      cases behind
  | (leftName, left) :: nextLeft :: lefts, (rightName, right) :: nextRight :: rights, _, _,
      leftPlain, rightPlain, same => by
      rw [membersNumberless, Bool.and_eq_true] at leftPlain rightPlain
      simp only [prettyMembers, List.append_assoc, List.cons_append] at same
      obtain ⟨rfl, value⟩ := quote_append_inj same
      simp only [List.cons.injEq, true_and] at value
      obtain ⟨rfl, behind⟩ := prettyChars_append_inj level left right leftPlain.1 rightPlain.1 value
      simp only [List.cons.injEq, true_and, List.append_cancel_left_eq] at behind
      obtain ⟨members, behind⟩ := prettyMembers_append_inj level (nextLeft :: lefts)
        (nextRight :: rights) (by simp) (by simp) leftPlain.2 rightPlain.2 behind
      exact ⟨congrArg ((leftName, left) :: ·) members, behind⟩

end

/-- Of values without numbers no two have the same text. -/
theorem pretty_inj {left right : Json} (leftPlain : left.isNumberless = true)
    (rightPlain : right.isNumberless = true) (same : left.pretty = right.pretty) :
    left = right := by
  have chars := String.ofList_injective same
  exact (prettyChars_append_inj 0 left right leftPlain rightPlain
    (congrArg (· ++ []) chars)).1

end Json

end SchemaEvolution
