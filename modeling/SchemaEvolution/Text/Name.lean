/-!
The names of a schema: a letter or underscore, then letters, digits and underscores, all ASCII.
-/

namespace SchemaEvolution.Text

def isNameStart (c : Char) : Bool :=
  c.isAlpha || c == '_'

def isNameChar (c : Char) : Bool :=
  isNameStart c || c.isDigit

def isName : List Char → Bool
  | [] => false
  | first :: rest => isNameStart first && rest.all isNameChar

end SchemaEvolution.Text
