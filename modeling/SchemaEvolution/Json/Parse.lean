import SchemaEvolution.Decimal.Numeral
import SchemaEvolution.Json

/-!
Reading JSON text. Of members with one name the last counts. A number beyond the greatest double
precision number is refused, and so is a value nested more than `nestingLimit` levels deep.
-/

namespace SchemaEvolution.Json

def nestingLimit : Nat :=
  127

def isSpace (c : Char) : Bool :=
  c == ' ' || c == '\t' || c == '\n' || c == '\r'

def skipSpace (text : List Char) : List Char :=
  text.dropWhile isSpace

theorem length_skipSpace_le (text : List Char) : (skipSpace text).length ≤ text.length :=
  (List.dropWhile_sublist _).length_le

def afterLiteral? : List Char → List Char → Option (List Char)
  | [], text => some text
  | _ :: _, [] => none
  | expected :: word, c :: rest => if c = expected then afterLiteral? word rest else none

theorem length_of_afterLiteral? {word text rest : List Char}
    (found : afterLiteral? word text = some rest) : rest.length + word.length = text.length := by
  induction word generalizing text with
  | nil => cases found; rfl
  | cons expected word ih =>
      cases text with
      | nil => cases found
      | cons c tail =>
          unfold afterLiteral? at found
          split at found
          · have := ih found
            simp only [List.length_cons]
            omega
          · cases found

def shortEscape? : Char → Option Char
  | '"' => some '"'
  | '\\' => some '\\'
  | '/' => some '/'
  | 'b' => some '\x08'
  | 'f' => some '\x0c'
  | 'n' => some '\n'
  | 'r' => some '\r'
  | 't' => some '\t'
  | _ => none

def isHighSurrogate (code : Nat) : Bool :=
  0xD800 ≤ code && code < 0xDC00

def isLowSurrogate (code : Nat) : Bool :=
  0xDC00 ≤ code && code < 0xE000

/-- The character that is written at the start of a string's content. Surrogates stand in pairs, and
no character below the blank stands for itself. -/
def readCharacter? : List Char → Option (Char × List Char)
  | '\\' :: 'u' :: a :: b :: c :: d :: rest => do
      let first ← Text.hexQuad? a b c d
      if isHighSurrogate first then
        match rest with
        | '\\' :: 'u' :: e :: f :: g :: h :: behind => do
            let second ← (Text.hexQuad? e f g h).filter isLowSurrogate
            return (Char.ofNat (0x10000 + (first - 0xD800) * 0x400 + (second - 0xDC00)), behind)
        | _ => none
      else if isLowSurrogate first then none
      else some (Char.ofNat first, rest)
  | '\\' :: letter :: rest => (shortEscape? letter).map fun character => (character, rest)
  | c :: rest => if c = '\\' ∨ c.toNat < 0x20 then none else some (c, rest)
  | [] => none

theorem length_of_readCharacter? {text rest : List Char} {character : Char}
    (found : readCharacter? text = some (character, rest)) : rest.length < text.length := by
  unfold readCharacter? at found
  split at found
  · obtain ⟨first, _, behindFirst⟩ := Option.bind_eq_some_iff.mp found
    split at behindFirst
    · split at behindFirst
      · obtain ⟨second, _, isRead⟩ := Option.bind_eq_some_iff.mp behindFirst
        obtain ⟨_, rfl⟩ := Prod.mk.inj (Option.some.inj isRead)
        simp only [List.length_cons]
        omega
      · cases behindFirst
    · split at behindFirst
      · cases behindFirst
      · obtain ⟨_, rfl⟩ := Prod.mk.inj (Option.some.inj behindFirst)
        simp only [List.length_cons]
        omega
  · simp only [Option.map_eq_some_iff, Prod.mk.injEq] at found
    obtain ⟨_, _, _, rfl⟩ := found
    simp only [List.length_cons]
    omega
  · split at found
    · cases found
    · simp only [Option.some.injEq, Prod.mk.injEq] at found
      simp [found.2]
  · cases found

abbrev After (text : List Char) : Type :=
  { rest : List Char // rest.length < text.length }

/-- What is left of a part at the end of a text is left of the text. -/
def After.within {inner text : List Char} (rest : After inner)
    (part : inner.length ≤ text.length) : After text :=
  ⟨rest.1, Nat.lt_of_lt_of_le rest.2 part⟩

def readContent? (text : List Char) : Option (List Char × After text) :=
  match text with
  | '"' :: rest => some ([], ⟨rest, by simp⟩)
  | text =>
      match found : readCharacter? text with
      | some (character, rest) =>
          have shorter := length_of_readCharacter? found
          (readContent? rest).map fun (content, after) =>
            (character :: content, after.within (Nat.le_of_lt shorter))
      | none => none
termination_by text.length

def readNumber? (text : List Char) : Option (Json × After text) :=
  match found : Numeral.read? text with
  | some (numeral, rest) =>
      numeral.binary64?.map fun _ =>
        (number (String.ofList numeral.chars), ⟨rest, Numeral.length_of_read? found⟩)
  | none => none

def readWord? (text : List Char) : Option (Json × After text) :=
  match isNull : afterLiteral? ['n', 'u', 'l', 'l'] text with
  | some rest => some (null, ⟨rest, by have := length_of_afterLiteral? isNull; simp at this; omega⟩)
  | none =>
  match isTrue : afterLiteral? ['t', 'r', 'u', 'e'] text with
  | some rest =>
      some (bool true, ⟨rest, by have := length_of_afterLiteral? isTrue; simp at this; omega⟩)
  | none =>
  match isFalse : afterLiteral? ['f', 'a', 'l', 's', 'e'] text with
  | some rest =>
      some (bool false, ⟨rest, by have := length_of_afterLiteral? isFalse; simp at this; omega⟩)
  | none => none

def readMemberName? : (text : List Char) → Option (String × After text)
  | '"' :: inside =>
      match readContent? inside with
      | some (name, rest) =>
          match next : skipSpace rest.1 with
          | ':' :: more =>
              some (String.ofList name, ⟨skipSpace more, by
                have := rest.2
                have := length_skipSpace_le rest.1
                have := length_skipSpace_le more
                simp only [next, List.length_cons] at *
                omega⟩)
          | _ => none
      | none => none
  | _ => none

theorem length_behind {text start rest : List Char} {c : Char} (skipped : skipSpace text = start)
    (next : start = c :: rest) : rest.length < text.length := by
  have := length_skipSpace_le text
  rw [skipped, next, List.length_cons] at this
  omega

mutual

/-- A value that may hold `depth` levels of arrays and objects. -/
def readValue? (depth : Nat) (text : List Char) : Option (Json × After text) :=
  match text with
  | '"' :: inside =>
      (readContent? inside).map fun (content, rest) =>
        (string (String.ofList content), rest.within (by simp))
  | '[' :: inside =>
      match depth with
      | 0 => none
      | depth + 1 =>
          match next : skipSpace inside with
          | ']' :: rest =>
              some (array [], ⟨rest, Nat.lt_succ_of_lt (length_behind next rfl)⟩)
          | _ =>
              (readItems? depth (skipSpace inside)).map fun (items, rest) =>
                (array items, rest.within (Nat.le_succ_of_le (length_skipSpace_le inside)))
  | '\x7b' :: inside =>
      match depth with
      | 0 => none
      | depth + 1 =>
          match next : skipSpace inside with
          | '\x7d' :: rest =>
              some (object [], ⟨rest, Nat.lt_succ_of_lt (length_behind next rfl)⟩)
          | _ =>
              (readMembers? depth (skipSpace inside)).map fun (members, rest) =>
                (object (sortEntries members),
                  rest.within (Nat.le_succ_of_le (length_skipSpace_le inside)))
  | text => (readWord? text).or (readNumber? text)
termination_by 2 * text.length
decreasing_by
  all_goals
    have := length_skipSpace_le inside
    simp only [List.length_cons]
    omega

def readItems? (depth : Nat) (text : List Char) : Option (List Json × After text) :=
  match readValue? depth text with
  | some (item, ⟨afterItem, shorter⟩) =>
      match next : skipSpace afterItem with
      | ']' :: rest => some ([item], ⟨rest, Nat.lt_trans (length_behind next rfl) shorter⟩)
      | ',' :: more =>
          have nearer : (skipSpace more).length < text.length :=
            Nat.lt_of_le_of_lt (length_skipSpace_le more)
              (Nat.lt_trans (length_behind next rfl) shorter)
          (readItems? depth (skipSpace more)).map fun (items, rest) =>
            (item :: items, rest.within (Nat.le_of_lt nearer))
      | _ => none
  | none => none
termination_by 2 * text.length + 1

def readMembers? (depth : Nat) (text : List Char) : Option (List (String × Json) × After text) :=
  match readMemberName? text with
  | some (name, ⟨afterName, named⟩) =>
      match readValue? depth afterName with
      | some (value, ⟨afterValue, shorter⟩) =>
          match next : skipSpace afterValue with
          | '\x7d' :: rest =>
              some ([(name, value)],
                ⟨rest, Nat.lt_trans (Nat.lt_trans (length_behind next rfl) shorter) named⟩)
          | ',' :: more =>
              have nearer : (skipSpace more).length < text.length :=
                Nat.lt_of_le_of_lt (length_skipSpace_le more)
                  (Nat.lt_trans (Nat.lt_trans (length_behind next rfl) shorter) named)
              (readMembers? depth (skipSpace more)).map fun (members, rest) =>
                ((name, value) :: members, rest.within (Nat.le_of_lt nearer))
          | _ => none
      | none => none
  | none => none
termination_by 2 * text.length + 1

end

def parse? (text : String) : Option Json :=
  match readValue? nestingLimit (skipSpace text.toList) with
  | some (json, rest) => if (skipSpace rest.1).isEmpty then some json else none
  | none => none

end SchemaEvolution.Json
