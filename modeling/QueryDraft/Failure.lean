import QueryDraft.Fault
import QueryDraft.Reading

/-!
# Failures of requests

Everything that can keep a request from being carried out. Some requests make no sense at all:
they have a value that is no text where a name is expected, one that cannot be used in its place,
such as a number where a list is expected, or an infinite number where a whole one is. Others have
an answer that cannot be written, since it repeats what no answer can hold.
-/

namespace QueryDraft

/-- A fault as a document. -/
def Fault.document (f : Fault) : Json := .obj <|
  [("error", .str f.kind), ("message", .str f.message)] ++
    (f.table?.map fun t => ("table", .str t.text)).toList ++
    (f.column?.map fun c => ("column", .str c.text)).toList

inductive Failure where
  | fault (fault : Fault)
  | badValue (why : BadValue)
  | invalid (issues : List Issue)
  | notInCatalog
  | unknownEntry (id : Json)
  | notAName
  | unusable
  | infinite
  | unwritable

namespace Failure

/-- Failures that are about the value itself, so that an entry of a list can be passed over on
their account. -/
def isDroppable : Failure → Bool
  | fault _ | badValue _ | invalid _ | notInCatalog => true
  | unknownEntry _ | notAName | unusable | infinite | unwritable => false

/-- What a failure is called where nothing more is told. -/
def summary : Failure → String
  | fault f => f.message
  | badValue why => why.message
  | invalid issues => s!"{issues.length} validation errors"
  | notInCatalog => "not in schema"
  | unknownEntry _ => "unknown entry"
  | notAName => "a name is expected"
  | unusable => "the value cannot be used here"
  | infinite => "the number is infinite"
  | unwritable => "the answer cannot be written"

end Failure

/-- What a fault is to a request. A limit that cannot be written is no fault of the draft's. -/
def Fault.failure : Fault → Failure
  | longLimit => .badValue .longNumber
  | f => .fault f

/-- A reading that must succeed. -/
def Reading.orFail {α : Type} : Reading α → Except Failure α
  | .value a => .ok a
  | .faults issues => .error (.invalid issues)

/-- A value that must be accepted. -/
def acceptOrFail {α : Type} : Except BadValue α → Except Failure α
  | .ok a => .ok a
  | .error why => .error (.badValue why)

end QueryDraft
