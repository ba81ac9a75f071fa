import SchemaEvolution.Category
import SchemaEvolution.Document

/-!
What a comparison reports: where something was looked at or found, what was found, and why.
-/

namespace SchemaEvolution

structure Location where
  typeName : String
  fieldName? : Option String
  kind? : Option TypeKind
  deriving DecidableEq, Repr

def Location.text (location : Location) : String :=
  match location.fieldName? with
  | some field => location.typeName ++ "." ++ field
  | none => location.typeName

/-- What was found. Progress is no finding, so it has neither category nor components. The
components are the names or texts involved, in a fixed order for each reason. -/
inductive Finding where
  | progress
  | breaking (category : Category) (components : List String)
  | dangerous (category : Category) (components : List String)
  deriving DecidableEq, Repr

namespace Finding

def level : Finding → String
  | progress => "INFO"
  | breaking _ _ => "BREAKING"
  | dangerous _ _ => "DANGEROUS"

def category? : Finding → Option Category
  | progress => none
  | breaking category _ => some category
  | dangerous category _ => some category

def components : Finding → List String
  | progress => []
  | breaking _ components => components
  | dangerous _ components => components

end Finding

structure Event where
  location : Location
  finding : Finding
  reason : String
  deriving DecidableEq, Repr

namespace Event

def progress (location : Location) (reason : String) : Event :=
  ⟨location, .progress, reason⟩

def breaking (category : Category) (location : Location) (components : List String)
    (reason : String) : Event :=
  ⟨location, .breaking category components, reason⟩

def dangerous (category : Category) (location : Location) (components : List String)
    (reason : String) : Event :=
  ⟨location, .dangerous category components, reason⟩

def category? (event : Event) : Option Category :=
  event.finding.category?

def isProgress (event : Event) : Bool :=
  match event.finding with
  | .progress => true
  | _ => false

def isBreaking (event : Event) : Bool :=
  match event.finding with
  | .breaking _ _ => true
  | _ => false

def isDangerous (event : Event) : Bool :=
  match event.finding with
  | .dangerous _ _ => true
  | _ => false

def text (event : Event) : String :=
  let kind := (event.location.kind?.map TypeKind.text).getD "-"
  s!"{event.finding.level} - '{kind}' : '{event.location.text}' : {event.reason}"

end Event

end SchemaEvolution
