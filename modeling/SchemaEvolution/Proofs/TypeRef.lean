import SchemaEvolution.TypeRef.Compatibility
import SchemaEvolution.TypeRef.Parse

/-!
Type references and their texts. A reference may stand in for itself, and the text of a reference
over a name tells the whole reference; references that were read from a text are of that sort.
-/

namespace SchemaEvolution

theorem Text.isNameChar_of_mem {chars : List Char} {c : Char} (name : isName chars = true)
    (member : c ∈ chars) : isNameChar c = true := by
  cases chars with
  | nil => cases name
  | cons first rest =>
      obtain ⟨start, others⟩ := Bool.and_eq_true_iff.mp name
      rcases List.mem_cons.mp member with rfl | later
      · simp [isNameChar, start]
      · exact List.all_eq_true.mp others c later

theorem Text.not_isName_of_mem {chars : List Char} {mark : Char}
    (isMark : isNameChar mark = false) (member : mark ∈ chars) :
    isName chars = false := by
  cases isName : isName chars with
  | false => rfl
  | true =>
      rw [isNameChar_of_mem isName member] at isMark
      cases isMark

section Taken

variable {α : Type} {p : α → Bool} {word rest : List α} (inside : ∀ item ∈ word, p item = true)
variable (outside : ∀ item ∈ rest.head?, p item = false)

include inside outside

theorem takeWhile_append_of_ends : (word ++ rest).takeWhile p = word := by
  rw [List.takeWhile_append_of_pos inside]
  cases rest with
  | nil => simp
  | cons item rest => simp [outside item rfl]

theorem dropWhile_append_of_ends : (word ++ rest).dropWhile p = rest := by
  rw [List.dropWhile_append_of_pos inside]
  cases rest with
  | nil => rfl
  | cons item rest => simp [outside item rfl]

end Taken

section Readings

variable {ε η α β : Type}

theorem ok_of_map_ok {result : Except ε α} {f : α → β} {value : β}
    (mapped : result.map f = .ok value) : ∃ inner, result = .ok inner ∧ f inner = value := by
  cases result with
  | error error => cases mapped
  | ok inner =>
      cases mapped
      exact ⟨inner, rfl, rfl⟩

theorem ok_of_bind_ok {first : Except ε α} {next : α → Except ε β} {value : β}
    (found : (first >>= next) = .ok value) :
    ∃ middle, first = .ok middle ∧ next middle = .ok value := by
  cases first with
  | error error => cases found
  | ok middle => exact ⟨middle, rfl, found⟩

theorem ok_of_mapError_ok {result : Except ε α} {f : ε → η} {value : α}
    (found : result.mapError f = .ok value) : result = .ok value := by
  cases result with
  | error error => cases found
  | ok inner =>
      cases found
      rfl

end Readings

namespace TypeRef

theorem layerMismatch_self (type : TypeRef) : type.layerMismatch type = none := by
  induction type with
  | named name => rfl
  | list item ih => exact ih
  | nonNull inner ih => exact ih

theorem mismatch_self (type : TypeRef) : type.mismatch type = none := by
  unfold mismatch
  rw [if_pos rfl]
  exact layerMismatch_self type

theorem layerMismatch_trans {first second third : TypeRef}
    (toSecond : first.layerMismatch second = none)
    (toThird : second.layerMismatch third = none) : first.layerMismatch third = none := by
  induction first generalizing second third with
  | named name =>
      cases second with
      | named middle => cases third <;> exact toThird
      | list item | nonNull inner => cases toSecond
  | list item ih =>
      cases second with
      | named middle | nonNull inner => cases toSecond
      | list middle =>
          cases third with
          | named last | nonNull inner => cases toThird
          | list last => exact ih toSecond toThird
  | nonNull inner ih =>
      cases second with
      | nonNull middle => cases third <;> exact ih toSecond toThird
      | named middle | list middle =>
          cases third with
          | nonNull last => cases toThird
          | named last | list last => exact ih toSecond toThird

theorem mismatch_trans {first second third : TypeRef} (toSecond : first.mismatch second = none)
    (toThird : second.mismatch third = none) : first.mismatch third = none := by
  unfold mismatch at *
  split at toSecond
  · rename_i sameSecond
    split at toThird
    · rename_i sameThird
      rw [if_pos (sameSecond.trans sameThird)]
      exact layerMismatch_trans toSecond toThird
    · cases toThird
  · cases toSecond

theorem eq_of_layerMismatch {left right : TypeRef} (sameName : left.name = right.name)
    (forth : left.layerMismatch right = none) (back : right.layerMismatch left = none) :
    left = right := by
  induction left generalizing right with
  | named name =>
      cases right with
      | named other => exact congrArg named sameName
      | list item | nonNull inner => cases forth
  | list item ih =>
      cases right with
      | named other | nonNull inner => cases forth
      | list other => exact congrArg list (ih sameName forth back)
  | nonNull inner ih =>
      cases right with
      | named other | list other => cases back
      | nonNull other => exact congrArg nonNull (ih sameName forth back)

/-- References that can replace each other are the same, marks on marks included. -/
theorem eq_of_mismatch {left right : TypeRef} (forth : left.mismatch right = none)
    (back : right.mismatch left = none) : left = right := by
  unfold mismatch at *
  split at forth
  · rename_i sameName
    rw [if_pos sameName.symm] at back
    exact eq_of_layerMismatch sameName forth back
  · cases forth

def IsNamed (type : TypeRef) : Prop :=
  Text.isName type.name.toList = true

private theorem not_isName_list (item : TypeRef) : Text.isName item.list.chars = false :=
  Text.not_isName_of_mem (by decide : Text.isNameChar '[' = false) List.mem_cons_self

private theorem not_isName_nonNull (inner : TypeRef) : Text.isName inner.nonNull.chars = false :=
  Text.not_isName_of_mem (by decide : Text.isNameChar '!' = false)
    (List.mem_append_right _ (List.mem_singleton_self _))

private theorem chars_list_ne_nonNull (item inner : TypeRef) :
    item.list.chars ≠ inner.nonNull.chars := by
  intro same
  change ('[' :: item.chars) ++ [']'] = inner.chars ++ ['!'] at same
  exact absurd (List.append_inj_right' same rfl) (by decide)

theorem chars_inj {left right : TypeRef} (leftNamed : left.IsNamed) (rightNamed : right.IsNamed)
    (same : left.chars = right.chars) : left = right := by
  -- A name has neither marks nor brackets in it, and of these the last character tells the layer.
  induction left generalizing right with
  | named leftName =>
      have isName : Text.isName right.chars = true := same ▸ leftNamed
      cases right with
      | named rightName => exact congrArg named (String.toList_inj.mp same)
      | list item =>
          rw [not_isName_list] at isName
          cases isName
      | nonNull inner =>
          rw [not_isName_nonNull] at isName
          cases isName
  | list leftItem ih =>
      cases right with
      | named rightName =>
          have isName : Text.isName leftItem.list.chars = true := same ▸ rightNamed
          rw [not_isName_list] at isName
          cases isName
      | list rightItem =>
          have items : leftItem.chars = rightItem.chars :=
            List.append_cancel_right (List.cons.inj same).2
          have itemNamed : rightItem.IsNamed := rightNamed
          rw [ih leftNamed itemNamed items]
      | nonNull inner => exact absurd same (chars_list_ne_nonNull leftItem inner)
  | nonNull leftInner ih =>
      cases right with
      | named rightName =>
          have isName : Text.isName leftInner.nonNull.chars = true := same ▸ rightNamed
          rw [not_isName_nonNull] at isName
          cases isName
      | list item => exact absurd same.symm (chars_list_ne_nonNull item leftInner)
      | nonNull rightInner =>
          have inners : leftInner.chars = rightInner.chars := List.append_cancel_right same
          have innerNamed : rightInner.IsNamed := rightNamed
          rw [ih leftNamed innerNamed inners]

theorem text_inj {left right : TypeRef} (leftNamed : left.IsNamed) (rightNamed : right.IsNamed)
    (same : left.text = right.text) : left = right :=
  chars_inj leftNamed rightNamed (String.ofList_injective same)

theorem isNamed_of_parseTrimmed {text : List Char} {type : TypeRef}
    (read : parseTrimmed text = .ok type) : type.IsNamed := by
  fun_induction parseTrimmed text generalizing type with
  | case1 => cases read
  | case2 text inner marked single ih =>
      obtain ⟨innerType, innerRead, rfl⟩ := ok_of_map_ok read
      have innerNamed := ih innerRead
      exact innerNamed
  | case3 text unmarked inner opened item closed ih =>
      obtain ⟨itemType, itemRead, rfl⟩ := ok_of_map_ok read
      have itemNamed := ih itemRead
      exact itemNamed
  | case4 => cases read
  | case5 text unmarked unopened isName =>
      cases read
      simpa [IsNamed, name] using isName
  | case6 => cases read

theorem isNamed_of_parse {input : String} {type : TypeRef} (read : parse input = .ok type) :
    type.IsNamed :=
  isNamed_of_parseTrimmed (ok_of_mapError_ok read)

end TypeRef

end SchemaEvolution
