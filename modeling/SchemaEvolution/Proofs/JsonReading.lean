import SchemaEvolution.Proofs.JsonText

/-!
What is written as JSON over several lines is read back, as long as no number stands in it and it is
not nested too deep. The reader puts members in name order and keeps the last one of each name;
apart from that the value is the same.
-/

namespace SchemaEvolution.Json

mutual

/-- The value with the members of all objects in name order, the last one of each name. -/
def normalized : Json → Json
  | null => null
  | bool value => bool value
  | number text => number text
  | string content => string content
  | array items => array (normalizedItems items)
  | object members => object (sortEntries (normalizedMembers members))

def normalizedItems : List Json → List Json
  | [] => []
  | item :: rest => item.normalized :: normalizedItems rest

def normalizedMembers : List (String × Json) → List (String × Json)
  | [] => []
  | (name, value) :: rest => (name, value.normalized) :: normalizedMembers rest

end

mutual

def height : Json → Nat
  | null | bool _ | number _ | string _ => 0
  | array items => itemsHeight items + 1
  | object members => membersHeight members + 1

def itemsHeight : List Json → Nat
  | [] => 0
  | item :: rest => max item.height (itemsHeight rest)

def membersHeight : List (String × Json) → Nat
  | [] => 0
  | (_, value) :: rest => max value.height (membersHeight rest)

end

/-- A reader has found a value at the start of a text and left a rest of it. -/
def Finds {α : Type} {text : List Char} (read : Option (α × After text)) (value : α)
    (rest : List Char) : Prop :=
  ∃ after, read = some (value, after) ∧ after.1 = rest

theorem finds_readContent? (content rest : List Char) :
    Finds (readContent? (content.flatMap escape ++ '"' :: rest)) content rest := by
  induction content with
  | nil =>
      rw [List.flatMap_nil, List.nil_append, readContent?]
      exact ⟨_, rfl, rfl⟩
  | cons c content ih =>
      have first := readCharacter?_escape c (content.flatMap escape ++ '"' :: rest)
      rw [List.flatMap_cons, List.append_assoc, readContent?]
      · split
        · rename_i character more found
          rw [first] at found
          cases found
          obtain ⟨after, read, left⟩ := ih
          rw [read]
          exact ⟨_, rfl, left⟩
        · rename_i unread
          rw [first] at unread
          cases unread
      · exact fun behind => escape_append_ne_quote c _ behind

theorem skipSpace_newLine (level : Nat) (rest : List Char) :
    skipSpace (newLine level ++ rest) = skipSpace rest := by
  have blanks (count : Nat) : skipSpace (List.replicate count ' ' ++ rest) = skipSpace rest := by
    induction count with
    | zero => rfl
    | succ count ih => exact ih
  exact blanks (2 * level)

theorem skipSpace_cons_of_not_isSpace {c : Char} (solid : isSpace c = false) (rest : List Char) :
    skipSpace (c :: rest) = c :: rest :=
  List.dropWhile_cons_of_neg (by simp [solid])

/-- The text of a value starts with a character that is no blank and closes nothing. -/
theorem exists_prettyChars_eq_cons (level : Nat) {json : Json} (plain : json.isNumberless = true) :
    ∃ c rest, prettyChars level json = c :: rest ∧ isSpace c = false ∧ c ≠ ']' := by
  rcases json with _ | (_ | _) | _ | _ | (_ | ⟨_, _⟩) | (_ | ⟨_, _⟩)
  case number => cases plain
  all_goals
    simp only [prettyChars, quote]
    exact ⟨_, _, rfl, by decide, by decide⟩

theorem finds_readMemberName? (name : String) {text rest : List Char}
    (solid : skipSpace text = rest) :
    Finds (readMemberName? (quote name ++ ':' :: ' ' :: text)) name rest := by
  obtain ⟨after, read, left⟩ := finds_readContent? name.toList (':' :: ' ' :: text)
  have colon : skipSpace after.1 = ':' :: ' ' :: text := by
    rw [left]
    exact skipSpace_cons_of_not_isSpace (by decide) _
  have opened : quote name ++ ':' :: ' ' :: text =
      '"' :: (name.toList.flatMap escape ++ '"' :: ':' :: ' ' :: text) := by
    simp [quote]
  rw [opened, readMemberName?, read]
  dsimp only
  split
  · rename_i more next
    rw [colon] at next
    cases next
    refine ⟨_, by rw [String.ofList_toList], ?_⟩
    exact solid
  · rename_i other
    exact absurd colon (other _)

section Steps

variable {depth : Nat} {text inside rest : List Char}

theorem finds_readValue?_word {c : Char} {value : Json} (finds : Finds (readWord? (c :: text)) value rest)
    (noString : c ≠ '"') (noArray : c ≠ '[') (noObject : c ≠ '\x7b') :
    Finds (readValue? depth (c :: text)) value rest := by
  obtain ⟨after, read, left⟩ := finds
  rw [readValue?, read]
  · exact ⟨after, rfl, left⟩
  · exact fun _ same => noString (List.cons.inj same).1
  · exact fun _ same => noArray (List.cons.inj same).1
  · exact fun _ same => noObject (List.cons.inj same).1

theorem finds_readValue?_string {content : List Char}
    (finds : Finds (readContent? inside) content rest) :
    Finds (readValue? depth ('"' :: inside)) (string (String.ofList content)) rest := by
  obtain ⟨after, read, left⟩ := finds
  rw [readValue?, read]
  exact ⟨_, rfl, left⟩

theorem finds_readValue?_noItems (closed : skipSpace inside = ']' :: rest) :
    Finds (readValue? (depth + 1) ('[' :: inside)) (array []) rest := by
  rw [readValue?]
  split
  · rename_i behind next
    rw [closed] at next
    cases next
    exact ⟨_, rfl, rfl⟩
  · rename_i unclosed
    exact absurd closed (unclosed _)

theorem finds_readValue?_items {items : List Json} (closes : ∀ rest, skipSpace inside ≠ ']' :: rest)
    (finds : Finds (readItems? depth (skipSpace inside)) items rest) :
    Finds (readValue? (depth + 1) ('[' :: inside)) (array items) rest := by
  obtain ⟨after, read, left⟩ := finds
  rw [readValue?]
  split
  · rename_i behind next
    exact absurd next (closes behind)
  · rw [read]
    exact ⟨_, rfl, left⟩

theorem finds_readValue?_noMembers (closed : skipSpace inside = '\x7d' :: rest) :
    Finds (readValue? (depth + 1) ('\x7b' :: inside)) (object []) rest := by
  rw [readValue?]
  split
  · rename_i behind next
    rw [closed] at next
    cases next
    exact ⟨_, rfl, rfl⟩
  · rename_i unclosed
    exact absurd closed (unclosed _)

theorem finds_readValue?_members {members : List (String × Json)}
    (closes : ∀ rest, skipSpace inside ≠ '\x7d' :: rest)
    (finds : Finds (readMembers? depth (skipSpace inside)) members rest) :
    Finds (readValue? (depth + 1) ('\x7b' :: inside)) (object (sortEntries members)) rest := by
  obtain ⟨after, read, left⟩ := finds
  rw [readValue?]
  split
  · rename_i behind next
    exact absurd next (closes behind)
  · rw [read]
    exact ⟨_, rfl, left⟩

theorem finds_readItems?_last {item : Json} (finds : Finds (readValue? depth text) item inside)
    (closed : skipSpace inside = ']' :: rest) : Finds (readItems? depth text) [item] rest := by
  obtain ⟨⟨after, shorter⟩, read, rfl⟩ := finds
  rw [readItems?, read]
  dsimp only
  split
  · rename_i behind next
    rw [closed] at next
    cases next
    exact ⟨_, rfl, rfl⟩
  · rename_i more next
    rw [closed] at next
    cases next
  · rename_i unclosed _
    exact absurd closed (unclosed _)

theorem finds_readItems?_more {item : Json} {items : List Json} {more : List Char}
    (finds : Finds (readValue? depth text) item inside) (goesOn : skipSpace inside = ',' :: more)
    (findsMore : Finds (readItems? depth (skipSpace more)) items rest) :
    Finds (readItems? depth text) (item :: items) rest := by
  obtain ⟨⟨after, shorter⟩, read, rfl⟩ := finds
  obtain ⟨later, readMore, left⟩ := findsMore
  rw [readItems?, read]
  dsimp only
  split
  · rename_i behind next
    rw [goesOn] at next
    cases next
  · rename_i other next
    rw [goesOn] at next
    cases next
    rw [readMore]
    exact ⟨_, rfl, left⟩
  · rename_i ends
    exact absurd goesOn (ends _)

theorem finds_readMembers?_last {name : String} {value : Json} {named : List Char}
    (findsName : Finds (readMemberName? text) name named)
    (finds : Finds (readValue? depth named) value inside)
    (closed : skipSpace inside = '\x7d' :: rest) :
    Finds (readMembers? depth text) [(name, value)] rest := by
  obtain ⟨⟨afterName, _⟩, readName, rfl⟩ := findsName
  obtain ⟨⟨after, shorter⟩, read, rfl⟩ := finds
  rw [readMembers?, readName]
  dsimp only
  rw [read]
  dsimp only
  split
  · rename_i behind next
    rw [closed] at next
    cases next
    exact ⟨_, rfl, rfl⟩
  · rename_i more next
    rw [closed] at next
    cases next
  · rename_i unclosed _
    exact absurd closed (unclosed _)

theorem finds_readMembers?_more {name : String} {value : Json} {named more : List Char}
    {members : List (String × Json)} (findsName : Finds (readMemberName? text) name named)
    (finds : Finds (readValue? depth named) value inside)
    (goesOn : skipSpace inside = ',' :: more)
    (findsMore : Finds (readMembers? depth (skipSpace more)) members rest) :
    Finds (readMembers? depth text) ((name, value) :: members) rest := by
  obtain ⟨⟨afterName, _⟩, readName, rfl⟩ := findsName
  obtain ⟨⟨after, shorter⟩, read, rfl⟩ := finds
  obtain ⟨later, readMore, left⟩ := findsMore
  rw [readMembers?, readName]
  dsimp only
  rw [read]
  dsimp only
  split
  · rename_i behind next
    rw [goesOn] at next
    cases next
  · rename_i other next
    rw [goesOn] at next
    cases next
    rw [readMore]
    exact ⟨_, rfl, left⟩
  · rename_i ends
    exact absurd goesOn (ends _)

end Steps

/-! ### What is written is read back -/

theorem skipSpace_prettyChars (level : Nat) {json : Json} (plain : json.isNumberless = true)
    (rest : List Char) :
    skipSpace (prettyChars level json ++ rest) = prettyChars level json ++ rest := by
  obtain ⟨c, more, starts, solid, _⟩ := exists_prettyChars_eq_cons level plain
  rw [starts, List.cons_append, skipSpace_cons_of_not_isSpace solid]

theorem exists_prettyItems_eq_cons (level : Nat) {item : Json} (plain : item.isNumberless = true)
    (items : List Json) :
    ∃ c rest, prettyItems level (item :: items) = c :: rest ∧ isSpace c = false ∧ c ≠ ']' := by
  obtain ⟨c, rest, starts, solid, closes⟩ := exists_prettyChars_eq_cons level plain
  cases items with
  | nil => exact ⟨c, rest, starts, solid, closes⟩
  | cons next items =>
      exact ⟨c, _, by rw [prettyItems, starts, List.cons_append], solid, closes⟩

theorem exists_prettyMembers_eq_cons (level : Nat) (member : String × Json)
    (members : List (String × Json)) :
    ∃ rest, prettyMembers level (member :: members) = '"' :: rest := by
  obtain ⟨name, value⟩ := member
  cases members <;> exact ⟨_, by rw [prettyMembers, quote, List.cons_append]⟩

theorem skipSpace_newLine_prettyItems (level : Nat) {item : Json} (plain : item.isNumberless = true)
    (items : List Json) (rest : List Char) :
    skipSpace (newLine level ++ (prettyItems level (item :: items) ++ rest)) =
      prettyItems level (item :: items) ++ rest := by
  obtain ⟨c, more, starts, solid, _⟩ := exists_prettyItems_eq_cons level plain items
  rw [skipSpace_newLine, starts, List.cons_append, skipSpace_cons_of_not_isSpace solid]

theorem skipSpace_newLine_prettyMembers (level : Nat) (member : String × Json)
    (members : List (String × Json)) (rest : List Char) :
    skipSpace (newLine level ++ (prettyMembers level (member :: members) ++ rest)) =
      prettyMembers level (member :: members) ++ rest := by
  obtain ⟨more, starts⟩ := exists_prettyMembers_eq_cons level member members
  rw [skipSpace_newLine, starts, List.cons_append, skipSpace_cons_of_not_isSpace (by decide)]

mutual

/-- A value is read off the front of any text that it stands before. -/
theorem finds_readValue? (level : Nat) (rest : List Char) :
    (depth : Nat) → (json : Json) → json.isNumberless = true → json.height ≤ depth →
      Finds (readValue? depth (prettyChars level json ++ rest)) json.normalized rest
  | _, null, _, _ | _, bool true, _, _ | _, bool false, _, _ =>
      finds_readValue?_word ⟨_, rfl, rfl⟩ (by decide) (by decide) (by decide)
  | depth, string content, _, _ => by
      have finds : Finds (readValue? depth ('"' :: (content.toList.flatMap escape ++ '"' :: rest)))
          (string (String.ofList content.toList)) rest :=
        finds_readValue?_string (finds_readContent? content.toList rest)
      have opened : prettyChars level (string content) ++ rest =
          '"' :: (content.toList.flatMap escape ++ '"' :: rest) := by simp [prettyChars, quote]
      rw [String.ofList_toList] at finds
      rwa [opened, normalized]
  | 0, array _, _, shallow | 0, object _, _, shallow => absurd shallow (by simp [height])
  | depth + 1, array [], _, _ =>
      finds_readValue?_noItems (skipSpace_cons_of_not_isSpace (by decide) rest)
  | depth + 1, array (item :: items), plain, shallow => by
      have finds := finds_readItems? (level + 1) level rest depth (item :: items)
        (List.cons_ne_nil _ _) plain (Nat.le_of_succ_le_succ shallow)
      have itemPlain : item.isNumberless = true := (Bool.and_eq_true_iff.mp plain).1
      obtain ⟨c, more, starts, _, closes⟩ :=
        exists_prettyItems_eq_cons (level + 1) itemPlain items
      have skipped := skipSpace_newLine_prettyItems (level + 1) itemPlain items
        (newLine level ++ ']' :: rest)
      rw [← skipped] at finds
      have opened : prettyChars level (array (item :: items)) ++ rest =
          '[' :: (newLine (level + 1) ++
            (prettyItems (level + 1) (item :: items) ++ (newLine level ++ ']' :: rest))) := by
        simp [prettyChars]
      rw [opened, normalized]
      refine finds_readValue?_items (fun behind closed => ?_) finds
      rw [skipped, starts] at closed
      exact closes (List.cons.inj closed).1
  | depth + 1, object [], _, _ =>
      finds_readValue?_noMembers (skipSpace_cons_of_not_isSpace (by decide) rest)
  | depth + 1, object (member :: members), plain, shallow => by
      have finds := finds_readMembers? (level + 1) level rest depth (member :: members)
        (List.cons_ne_nil _ _) plain (Nat.le_of_succ_le_succ shallow)
      obtain ⟨more, starts⟩ := exists_prettyMembers_eq_cons (level + 1) member members
      have skipped := skipSpace_newLine_prettyMembers (level + 1) member members
        (newLine level ++ '\x7d' :: rest)
      rw [← skipped] at finds
      have opened : prettyChars level (object (member :: members)) ++ rest =
          '\x7b' :: (newLine (level + 1) ++
            (prettyMembers (level + 1) (member :: members) ++ (newLine level ++ '\x7d' :: rest))) := by
        simp [prettyChars]
      rw [opened, normalized]
      refine finds_readValue?_members (fun behind closed => ?_) finds
      rw [skipped, starts] at closed
      exact absurd (List.cons.inj closed).1 (by decide)

/-- Items are read up to the bracket that closes them, which stands on a line of its own. -/
theorem finds_readItems? (level outer : Nat) (rest : List Char) :
    (depth : Nat) → (items : List Json) → items ≠ [] → itemsNumberless items = true →
      itemsHeight items ≤ depth →
      Finds (readItems? depth (prettyItems level items ++ (newLine outer ++ ']' :: rest)))
        (normalizedItems items) rest
  | _, [], isSome, _, _ => absurd rfl isSome
  | depth, [item], _, plain, shallow => by
      rw [itemsNumberless, Bool.and_eq_true] at plain
      rw [itemsHeight, Nat.max_le] at shallow
      have finds := finds_readValue? level (newLine outer ++ ']' :: rest) depth item plain.1 shallow.1
      refine finds_readItems?_last finds ?_
      rw [skipSpace_newLine]
      exact skipSpace_cons_of_not_isSpace (by decide) rest
  | depth, item :: next :: items, _, plain, shallow => by
      rw [itemsNumberless, Bool.and_eq_true] at plain
      rw [itemsHeight, Nat.max_le] at shallow
      have finds := finds_readValue? level (',' :: (newLine level ++
        (prettyItems level (next :: items) ++ (newLine outer ++ ']' :: rest)))) depth item plain.1
        shallow.1
      have findsMore := finds_readItems? level outer rest depth (next :: items)
        (List.cons_ne_nil _ _) plain.2 shallow.2
      have nextPlain : next.isNumberless = true := (Bool.and_eq_true_iff.mp plain.2).1
      rw [← skipSpace_newLine_prettyItems level nextPlain] at findsMore
      have opened : prettyItems level (item :: next :: items) ++ (newLine outer ++ ']' :: rest) =
          prettyChars level item ++ ',' :: (newLine level ++
            (prettyItems level (next :: items) ++ (newLine outer ++ ']' :: rest))) := by
        simp [prettyItems]
      rw [opened, normalizedItems]
      exact finds_readItems?_more finds (skipSpace_cons_of_not_isSpace (by decide) _) findsMore

theorem finds_readMembers? (level outer : Nat) (rest : List Char) :
    (depth : Nat) → (members : List (String × Json)) → members ≠ [] →
      membersNumberless members = true → membersHeight members ≤ depth →
      Finds (readMembers? depth (prettyMembers level members ++ (newLine outer ++ '\x7d' :: rest)))
        (normalizedMembers members) rest
  | _, [], isSome, _, _ => absurd rfl isSome
  | depth, [(name, value)], _, plain, shallow => by
      rw [membersNumberless, Bool.and_eq_true] at plain
      rw [membersHeight, Nat.max_le] at shallow
      have finds := finds_readValue? level (newLine outer ++ '\x7d' :: rest) depth value plain.1
        shallow.1
      have findsName := finds_readMemberName? name (skipSpace_prettyChars level plain.1
        (newLine outer ++ '\x7d' :: rest))
      have opened : prettyMembers level [(name, value)] ++ (newLine outer ++ '\x7d' :: rest) =
          quote name ++ ':' :: ' ' ::
            (prettyChars level value ++ (newLine outer ++ '\x7d' :: rest)) := by
        simp [prettyMembers]
      rw [opened, normalizedMembers]
      refine finds_readMembers?_last findsName finds ?_
      rw [skipSpace_newLine]
      exact skipSpace_cons_of_not_isSpace (by decide) rest
  | depth, (name, value) :: next :: members, _, plain, shallow => by
      rw [membersNumberless, Bool.and_eq_true] at plain
      rw [membersHeight, Nat.max_le] at shallow
      have finds := finds_readValue? level (',' :: (newLine level ++
        (prettyMembers level (next :: members) ++ (newLine outer ++ '\x7d' :: rest)))) depth value
        plain.1 shallow.1
      have findsName := finds_readMemberName? name (skipSpace_prettyChars level plain.1
        (',' :: (newLine level ++
          (prettyMembers level (next :: members) ++ (newLine outer ++ '\x7d' :: rest)))))
      have findsMore := finds_readMembers? level outer rest depth (next :: members)
        (List.cons_ne_nil _ _) plain.2 shallow.2
      rw [← skipSpace_newLine_prettyMembers level] at findsMore
      have opened : prettyMembers level ((name, value) :: next :: members) ++
            (newLine outer ++ '\x7d' :: rest) =
          quote name ++ ':' :: ' ' :: (prettyChars level value ++ ',' :: (newLine level ++
            (prettyMembers level (next :: members) ++ (newLine outer ++ '\x7d' :: rest)))) := by
        simp [prettyMembers]
      rw [opened, normalizedMembers]
      exact finds_readMembers?_more findsName finds (skipSpace_cons_of_not_isSpace (by decide) _)
        findsMore

end

end SchemaEvolution.Json
