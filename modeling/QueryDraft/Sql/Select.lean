import QueryDraft.Catalog.Lookup
import QueryDraft.Draft.Basic
import QueryDraft.Fault
import QueryDraft.Sql.Clause
import QueryDraft.Text.Blank

/-!
# What a query selects

With nothing picked, grouped or calculated, all columns of every selected table; otherwise the
columns, each as it is or aggregated, and then the formulas. In a grouped query every column that is
not aggregated must be among those it is grouped by.
-/

namespace QueryDraft.Sql

inductive SelectItem where
  | wholeTable (t : TableId)
  | column (c : ColumnId)
  | aggregate (c : ColumnId) (a : Aggregate) (name : String)
  | formula (expression name : String)
deriving DecidableEq, Repr

namespace SelectItem

def sql : SelectItem → String
  | wholeTable t => t.text ++ ".*"
  | column c => c.text
  | aggregate c a name => columnItem c a name
  | formula expression name => formulaItem expression name

/-- The name that an item introduces. -/
def name? : SelectItem → Option String
  | aggregate _ _ name | formula _ name => some name
  | _ => none

end SelectItem

end QueryDraft.Sql

namespace QueryDraft.Draft

open Sql

variable (catalog : Catalog) (d : Draft)

/-- The columns of the selected tables that are not aggregated. -/
def impliedColumns : List ColumnId :=
  d.tables.flatMap fun t =>
    let columns := (catalog.table? t).elim [] (·.columns)
    (columns.map fun c => t.column c.name).filter (d.aggregate · = .none)

/-- The columns that are selected without an aggregate: picked, or implied by a grouping. -/
def plainColumns : List ColumnId :=
  if !d.columns.isEmpty then d.columns.filter (d.aggregate · = .none)
  else if d.isGrouped then d.impliedColumns catalog
  else []

/-- The columns of the result in order. -/
def resultColumns : List ColumnId :=
  if !d.columns.isEmpty then d.effectiveColumns
  else d.plainColumns catalog ++ d.aggregations.keys

/-- The first column that would have to be grouped by. -/
def ungrouped? : Option ColumnId :=
  if d.isGrouped then (d.plainColumns catalog).find? (· ∉ d.groupBy) else none

/-- The columns of the result as items; `used` holds the names that are taken. -/
def columnItems : (used : List String) → List ColumnId → List SelectItem
  | _, [] => []
  | used, c :: cs =>
    let a := d.aggregate c
    if a = .none then .column c :: columnItems used cs
    else
      let name := freeAlias used c a
      .aggregate c a name :: columnItems (name :: used) cs

/-- The items of the `SELECT` clause. -/
def selectItems : Except RuleFault (List SelectItem) :=
  if d.columns.isEmpty && !d.isGrouped && d.formulas.isEmpty then
    .ok (d.tables.map .wholeTable)
  else
    match d.ungrouped? catalog with
    | some c => .error (.ungrouped c)
    | none =>
      .ok (d.columnItems (d.formulas.map Formula.name) (d.resultColumns catalog) ++
        d.formulas.map fun f => .formula f.expression f.name)

/-- The first formula, in order, that has a blank alias or one that was used before. -/
def aliasFault? : (used : List String) → List Formula → Option RuleFault
  | _, [] => none
  | used, f :: fs =>
    if Text.isBlankText f.name then some (.blankAlias f.id)
    else if f.name ∈ used then some (.repeatedAlias f.name)
    else aliasFault? (f.name :: used) fs

end QueryDraft.Draft
