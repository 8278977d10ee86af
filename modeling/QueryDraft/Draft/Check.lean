import QueryDraft.Catalog.Lookup
import QueryDraft.Draft.Basic
import QueryDraft.Fault

/-!
# Checking references

The references of a draft that dangle with respect to a catalog, in the order of the draft's
sections. A column of a table that is selected but unknown is passed over, the table itself being
reported already.
-/

namespace QueryDraft.Draft

variable (catalog : Catalog) (d : Draft)

/-- Selected tables must be in the catalog. -/
def tableFaults : List ReferenceFault :=
  (d.tables.filter (!catalog.hasTable ·)).map (.unknownTable · catalog.name)

/-- A column must belong to a selected table and exist there. -/
def columnFaults (role : Role) (c : ColumnId) : List ReferenceFault :=
  if c.table ∈ d.tables then
    match catalog.table? c.table with
    | none => []
    | some t => if t.hasColumn c.name then [] else [.unknownColumn role c]
  else [.unselectedColumn role c]

/-- A join must connect columns of two different tables. -/
def joinFaults (j : Join) : List ReferenceFault :=
  if j.source.table = j.target.table then [.selfJoin j.id j.source.table]
  else columnFaults catalog d .join j.source ++ columnFaults catalog d .join j.target

/-- All faults of a draft's references. -/
def referenceFaults : List ReferenceFault :=
  tableFaults catalog d ++
    d.columns.flatMap (columnFaults catalog d .selection) ++
    d.aggregations.keys.flatMap (columnFaults catalog d .aggregation) ++
    d.filters.flatMap (columnFaults catalog d .filter ·.column) ++
    d.groupBy.flatMap (columnFaults catalog d .grouping) ++
    d.orderBy.flatMap (columnFaults catalog d .sorting ·.column) ++
    d.joins.flatMap (joinFaults catalog d)

end QueryDraft.Draft
