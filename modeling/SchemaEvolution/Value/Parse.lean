import SchemaEvolution.Grammar.Definition

/-!
Reading a constant value from its text. The text is read where a schema holds it, as the default of
the only field of an input type; whatever else the text brings along, such as another field or the
end of the type, is refused.
-/

namespace SchemaEvolution

inductive ValueFault where
  | malformed
  | trailingInput
  | directives
  | missingValue
  deriving DecidableEq, Repr

structure ValueError where
  input : String
  fault : ValueFault
  deriving DecidableEq, Repr

/-- The reason of a fault; that of a malformed text is left to whoever reports it. -/
def ValueFault.reason? : ValueFault → Option String
  | .malformed => none
  | .trailingInput => some "unexpected trailing input"
  | .directives => some "directives are not allowed in constant values"
  | .missingValue => some "expected a value"

def ValueError.message? (error : ValueError) : Option String :=
  error.fault.reason?.map fun reason => s!"invalid literal '{error.input}': {reason}"

namespace Value

/-- The schema that holds a text as the default of its only field. The line end in front of the
brace closes a comment at the end of the text. -/
def holder (text : List Char) : List Char :=
  "input Literal \x7b value: Int = ".toList ++ text ++ ['\n', '\x7d']

def ofOutline (outline : List Grammar.Outline) : Except ValueFault Value :=
  match outline with
  | [.input [field]] =>
      if field.hasDirectives then .error .directives
      else
        match field.defaultValue? with
        | some value => .ok value
        | none => .error .missingValue
  | _ => .error .trailingInput

def parse (input : String) : Except ValueError Value :=
  match Grammar.outline? (holder input.toList) with
  | some outline => (ofOutline outline).mapError (ValueError.mk input)
  | none => .error ⟨input, .malformed⟩

end Value

end SchemaEvolution
