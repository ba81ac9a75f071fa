import SchemaEvolution.Text.Blank
import SchemaEvolution.Text.Name
import SchemaEvolution.TypeRef

/-!
Reading a type reference from its text. Blanks may stand at both ends, inside the brackets and
before a non-null mark; two marks may not touch.
-/

namespace SchemaEvolution

inductive TypeRefFault where
  | doubledMark
  | unbalancedBrackets
  | noName
  deriving DecidableEq, Repr

def TypeRefFault.reason : TypeRefFault → String
  | .doubledMark => "double non-null marker"
  | .unbalancedBrackets => "unbalanced list brackets"
  | .noName => "expected a type name"

structure TypeRefError where
  input : String
  fault : TypeRefFault
  deriving DecidableEq, Repr

def TypeRefError.message (error : TypeRefError) : String :=
  s!"invalid type reference '{error.input}': {error.fault.reason}"

namespace TypeRef

def beforeLast? (last : Char) (text : List Char) : Option (List Char) :=
  if text.getLast? = some last then some text.dropLast else none

theorem length_of_beforeLast? {last : Char} {text inner : List Char}
    (found : beforeLast? last text = some inner) : inner.length + 1 = text.length := by
  unfold beforeLast? at found
  split at found
  · rename_i present
    cases text with
    | nil => simp at present
    | cons head rest => cases found; simp
  · cases found

def afterBracket? : List Char → Option (List Char)
  | '[' :: rest => some rest
  | _ => none

theorem length_of_afterBracket? {text inner : List Char}
    (found : afterBracket? text = some inner) : inner.length + 1 = text.length := by
  unfold afterBracket? at found
  split at found
  · cases found; simp
  · cases found

/-- Reads a text without blanks at its ends, the outermost layer first: a mark at the end comes
before brackets at both ends. -/
def parseTrimmed (text : List Char) : Except TypeRefFault TypeRef :=
  match _marked : beforeLast? '!' text with
  | some inner =>
      if inner.getLast? = some '!' then .error .doubledMark
      else (parseTrimmed (Text.trimEnd inner)).map nonNull
  | none =>
      match _opened : afterBracket? text with
      | some inner =>
          match _closed : beforeLast? ']' inner with
          | some item => (parseTrimmed (Text.trim item)).map list
          | none => .error .unbalancedBrackets
      | none =>
          if Text.isName text then .ok (named (String.ofList text)) else .error .noName
termination_by text.length
decreasing_by
  · have := length_of_beforeLast? _marked
    have := Text.length_trimEnd_le inner
    omega
  · have := length_of_beforeLast? _closed
    have := length_of_afterBracket? _opened
    have := Text.length_trim_le item
    omega

def parse (input : String) : Except TypeRefError TypeRef :=
  (parseTrimmed (Text.trim input.toList)).mapError (TypeRefError.mk input)

end TypeRef

end SchemaEvolution
