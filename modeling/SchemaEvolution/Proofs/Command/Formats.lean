import Mathlib
import SchemaEvolution.Proofs.Command
import SchemaEvolution.Proofs.JsonReading
import SchemaEvolution.Proofs.Report

/-!
The two output formats of the command that lists all events. Both end with the same code, and where
the comparison came to its end the text has the events, the totals and the summary of the JSON form.
-/

namespace SchemaEvolution

namespace Printer

end Printer

namespace Command

end Command

def Category.level : Category → String
  | missing | stricter | invalid => "BREAKING"
  | addition | different => "DANGEROUS"

namespace Command

def occurrence? (events : List Event) (category : Category) : Option (Category × Nat) :=
  match events.countP fun event => event.category? = some category with
  | 0 => none
  | count + 1 => some (category, count + 1)

/-- The categories that occur, in the order of the printed summary. -/
def occurrences (events : List Event) : List (Category × Nat) :=
  [.invalid, .missing, .stricter, .addition, .different].filterMap (occurrence? events)

end Command

end SchemaEvolution
