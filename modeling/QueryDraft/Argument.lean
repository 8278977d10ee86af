import QueryDraft.Draft.Edit

/-!
# Arguments of requests

How the JSON values that come with a request are taken as names, words, lists and numbers. A name
must be text; anything else in its place is a request that makes no sense.
-/

namespace QueryDraft

namespace Argument

/-- A table by name. -/
def table : Json → Except Failure TableId
  | .str s => acceptOrFail (TableId.parse s)
  | .tornStr _ => (Reading.fault .notUnicode).orFail
  | _ => .error .notAName

/-- A column by name. -/
def column : Json → Except Failure ColumnId
  | .str s => acceptOrFail (ColumnId.parse s)
  | .tornStr _ => (Reading.fault .notUnicode).orFail
  | _ => .error .notAName

/-- A word of a closed set; the refusal names the set and shows the value, if it can. -/
def member {α : Type} (kind : String) (ofWord? : String → Option α) (v : Json) :
    Except Failure α :=
  let found? := match v with
    | .str s => ofWord? s
    | _ => none
  match found? with
  | some a => .ok a
  | none => .error (.badValue (if v.isShowable then .notMember v.shown kind else .longNumber))

def aggregate : Json → Except Failure Aggregate := member "AggregateFunction" Aggregate.ofWord?

def operator : Json → Except Failure Operator := member "Operator" Operator.ofWord?

def direction : Json → Except Failure Direction := member "SortDirection" Direction.ofWord?

/-- The things that a value can be gone through for: items, characters or keys. -/
def items : Json → Except Failure (List Json)
  | .arr vs => .ok vs
  | .str s => .ok (s.toList.map fun c => .str (.singleton c))
  | .obj es => .ok ((Entries.merge es).map fun (k, _) => .str k)
  | .tornStr ps => .ok (ps.map fun p => .ofPoints [p])
  | .tornObj es => .ok ((Entries.merge es).map fun (k, _) => .ofPoints k)
  | _ => .error .unusable

/-- The names of columns. -/
def columnNames (v : Json) : Except Failure (List String) := do
  (← items v).mapM fun v => ((Reading.text v).under (.key "name")).orFail

/-- A whole number, a fraction being dropped. -/
def whole : Json → Except Failure Int
  | .bool b => .ok (if b then 1 else 0)
  | .int n => .ok n
  | .float .nan => .error (.badValue .notANumber)
  | .float (.infinite _) => .error .infinite
  | .float x => .ok (x.truncate?.getD 0)
  | .str s => acceptOrFail ((Text.whole s).mapError (.ofWhole (Text.quoted s)))
  | .tornStr ps => .error (.badValue (.notWhole (Text.quotedPoints ps)))
  | _ => .error .unusable

/-- Text; what counts as nothing is the empty text. -/
def textOrNothing (v : Json) : Except Failure String :=
  match v with
  | .str s => .ok s
  | v => if v.isNothing then .ok "" else .error .notAName

/-- The alias and expression of a formula that could be added; the alias is looked at first. -/
def formula (name expression : Json) : Except Failure (String × String) := do
  let name ← textOrNothing name
  if Text.isBlankText name then throw (.fault (.formula .noAlias))
  let expression ← textOrNothing expression
  match Draft.formulaFault? name expression with
  | some fault => throw (.fault (.formula fault))
  | none => return (name, expression)

/-- The id that is asked for, or a fresh one if none is. -/
def id (fresh : String) : Option Json → Reading String
  | none => .value fresh
  | some v => if v.isNothing then .value fresh else (Reading.text v).under (.key "id")

/-- The entries of an object. -/
def entries (v : Json) : Except Failure (List (String × Json)) :=
  match v.entries? with
  | some es => .ok es
  | none => .error .unusable

end Argument

end QueryDraft
