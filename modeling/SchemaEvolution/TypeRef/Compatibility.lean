import SchemaEvolution.Category
import SchemaEvolution.TypeRef

/-!
When one type reference may stand in for another: the named type is the same, the lists nest
equally deep, and no position that could be null has lost that.
-/

namespace SchemaEvolution.TypeRef

/-- Compares the layers from the outside in. A mark of the old reference may disappear; a mark that
only the new one has is stricter; lists have to meet lists. Of marks on marks, each meets one mark
of the other side. -/
def layerMismatch : TypeRef → TypeRef → Option Category
  | nonNull old, nonNull new => layerMismatch old new
  | nonNull old, new => layerMismatch old new
  | _, nonNull _ => some .stricter
  | list old, list new => layerMismatch old new
  | named _, named _ => none
  | _, _ => some .invalid

/-- Why `new` cannot replace `old`, or nothing if it can. -/
def mismatch (old new : TypeRef) : Option Category :=
  if old.name = new.name then layerMismatch old new else some .invalid

end SchemaEvolution.TypeRef
