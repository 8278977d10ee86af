import QueryDraft.Draft.Check
import QueryDraft.Json.Basic
import QueryDraft.Sql.Condition
import QueryDraft.Sql.From
import QueryDraft.Sql.Select

/-!
# From drafts to SQL

`Draft.compile` turns a draft into SQL or says why it cannot: no table, else the first dangling
reference, else the first rule that is broken, else a limit that is too long to be written. Tables
that no join connects to the base table are crossed with it, which is a warning. `Draft.generate`
also insists on a positive limit, and `Draft.tryPreview` has a text to show unless the limit is too
long.
-/

namespace QueryDraft

namespace Sql

inductive Warning where
  | disagreement (d : Disagreement)
  | crossed (tables : List TableId) (base : TableId)
deriving DecidableEq, Repr

def Warning.message : Warning → String
  | disagreement d =>
    let e := Equality.ofJoin d.join
    s!"Join {e.sql} is {d.kind.word} but shares a clause with a {d.keptKind.word} join; " ++
      s!"keeping {d.keptKind.word} JOIN {d.table.text}"
  | crossed tables base =>
    let names := ", ".intercalate (tables.map fun t => s!"'{t.text}'")
    s!"Table {names} is not joined to base table '{base.text}'; " ++
      "it is cross joined (every row combined with every row)"

/-- The warnings about some groups: every disagreement, then every group but the first. -/
def warnings (base : TableId) (gs : List Group) : List Warning :=
  gs.flatMap (·.disagreements.map .disagreement) ++ gs.tail.map (.crossed ·.tables base)

/-- A query and what is to be known about it. -/
structure Compiled where
  sql : String
  warnings : List Warning
  base : TableId
  tables : List TableId
  joinCount : Nat
  unjoined : List TableId
  isGrouped : Bool
  parameters : List String
deriving DecidableEq, Repr

def Compiled.document (c : Compiled) : Json := .obj [
  ("sql", .str c.sql),
  ("warnings", .texts (c.warnings.map Warning.message)),
  ("metadata", .obj [
    ("base_table", .str c.base.text),
    ("tables", .texts (c.tables.map TableId.text)),
    ("join_count", .int c.joinCount),
    ("unjoined_tables", .texts (c.unjoined.map TableId.text)),
    ("grouped", .bool c.isGrouped),
    ("parameters", .texts c.parameters)])]

end Sql

namespace Draft

open Sql

variable (catalog : Catalog) (d : Draft)

/-- The class of a column's declared type. -/
def typeClass (c : ColumnId) : TypeClass :=
  (catalog.column? c).elim .unknown fun c => .ofDeclared c.type

/-- The conditions of the filters. -/
def conditions : Except RuleFault (List String) :=
  d.filters.mapM fun f => f.sql (typeClass catalog f.column)

/-- The first rule that the aliases of the formulas break. -/
def checkAliases : Except RuleFault Unit :=
  match aliasFault? [] d.formulas with
  | some fault => .error fault
  | none => .ok ()

/-- The query of a draft whose references are in order. -/
def compileFrom (base : TableId) : Except RuleFault Compiled := do
  d.checkAliases
  let items ← d.selectItems catalog
  let conditions ← d.conditions catalog
  let gs := groups base d.tables d.joins
  return {
    sql := assemble [
      selectClause (items.map SelectItem.sql), fromClause (gs.map Group.sql),
      whereClause conditions, groupByClause d.groupBy, orderByClause d.orderBy,
      limitClause d.limit]
    warnings := warnings base gs
    base
    tables := gs.flatMap Group.tables
    joinCount := (gs.flatMap Group.clauses).length
    unjoined := gs.tail.map Group.root
    isGrouped := d.isGrouped
    parameters := Filter.parameterNames d.filters }

/-- A query that can be written with a limit. -/
def withLimit (limit : Int) (compiled : Compiled) : Except Fault Compiled :=
  if isLimitWritable limit then .ok compiled else .error .longLimit

/-- The query of a draft. Its limit is written last. -/
def compile : Except Fault Compiled :=
  match d.tables with
  | [] => .error .noTable
  | base :: _ =>
    match d.referenceFaults catalog with
    | fault :: _ => .error (.reference fault)
    | [] => do
      let compiled ← (d.compileFrom catalog base).mapError .rule
      withLimit d.limit compiled

/-- The query of a draft that is about to be run. The refusal of a limit shows it. -/
def generate : Except Fault Compiled := do
  let compiled ← d.compile catalog
  if d.limit ≤ 0 then
    throw (if Text.isWritable d.limit then .rule (.limitNotPositive d.limit) else .longLimit)
  return compiled

/-- The query of a draft with its warnings as comments, or what is wrong as a comment. Comments
start with the mark. -/
def preview (mark : String) : String :=
  match d.compile catalog with
  | .error fault => s!"{mark} {fault.kind}: {fault.message}"
  | .ok compiled =>
    "\n".intercalate
      (compiled.sql :: compiled.warnings.map fun w => s!"{mark} warning: {w.message}")

/-- The preview of a draft. A limit that is too long is no fault of the draft's, and none is shown. -/
def tryPreview (mark : String) : Except Fault String :=
  match d.compile catalog with
  | .error .longLimit => .error .longLimit
  | _ => .ok (d.preview catalog mark)

end Draft

end QueryDraft
