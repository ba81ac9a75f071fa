/-!
The categories of a difference. The first three break clients, the last two only endanger them.
-/

namespace SchemaEvolution

inductive Category where
  | missing
  | stricter
  | invalid
  | addition
  | different
  deriving DecidableEq, Repr

namespace Category

def all : List Category :=
  [missing, stricter, invalid, addition, different]

def id : Category → String
  | missing => "MISSING"
  | stricter => "STRICTER"
  | invalid => "INVALID"
  | addition => "ADDITION"
  | different => "DIFFERENT"

def description : Category → String
  | missing => "The new API is missing something the old API had."
  | stricter => "The new API has become stricter for existing clients."
  | invalid => "The new API has changed the shape of something in an incompatible way."
  | addition => "The new API has added something."
  | different => "The new API has changed a value."

def ofId? (id : String) : Option Category :=
  all.find? fun category => category.id == id

theorem ofId?_id (category : Category) : ofId? category.id = some category := by
  cases category <;> decide

end Category

structure UnknownCategory where
  input : String
  deriving DecidableEq, Repr

def UnknownCategory.message (error : UnknownCategory) : String :=
  s!"Unknown difference category: {error.input}"

def Category.parse (input : String) : Except UnknownCategory Category :=
  match ofId? input with
  | some category => .ok category
  | none => .error ⟨input⟩

end SchemaEvolution
