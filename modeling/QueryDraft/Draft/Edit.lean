import QueryDraft.Draft.Document
import QueryDraft.Failure
import QueryDraft.Text.Lowercase

/-!
# Editing drafts

The transitions between drafts. Selecting a column or aggregate selects its table; removing a table
removes whatever refers to it; a join, filter, grouping or sort key is refused unless its tables
are selected. An entry that is changed is read again from its document, with the changes in place.
-/

namespace QueryDraft.Draft

variable (d : Draft)

/-- A draft with nothing selected. -/
def blank (limit : Int) : Draft := { limit }

/-! ### Tables -/

def addTable (t : TableId) : Draft := { d with tables := insertLast d.tables t }

/-- Removes a table and whatever refers to it. -/
def removeTable (t : TableId) : Draft :=
  if t ∈ d.tables then
    { d with
      tables := d.tables.filter (· ≠ t)
      columns := d.columns.filter (·.table ≠ t)
      aggregations := d.aggregations.filterKeys (·.table ≠ t)
      joins := d.joins.filter (!·.mentions t)
      filters := d.filters.filter (·.column.table ≠ t)
      groupBy := d.groupBy.filter (·.table ≠ t)
      orderBy := d.orderBy.filter (·.column.table ≠ t) }
  else d

def toggleTable (t : TableId) : Draft :=
  if t ∈ d.tables then d.removeTable t else d.addTable t

/-- Keeps nothing but the limit. -/
def clear : Draft := blank d.limit

/-! ### Columns and aggregates -/

/-- Selects a column, or deselects it together with its aggregate. -/
def toggleColumn (c : ColumnId) : Draft :=
  if c ∈ d.columns then
    { d with columns := d.columns.filter (· ≠ c), aggregations := d.aggregations.erase c }
  else { d.addTable c.table with columns := d.columns ++ [c] }

/-- Selects columns of a table. -/
def selectColumns (t : TableId) (names : List String) : Draft :=
  { d.addTable t with columns := (names.map t.column).foldl insertLast d.columns }

/-- Deselects columns of a table together with their aggregates. -/
def deselectColumns (t : TableId) (names : List String) : Draft :=
  let removed := names.map t.column
  { d with
    columns := d.columns.filter (· ∉ removed)
    aggregations := d.aggregations.filterKeys (· ∉ removed) }

/-- Aggregates a column, which becomes selected, or takes its aggregate away. -/
def setAggregate (c : ColumnId) (a : Aggregate) : Draft :=
  if a = .none then { d with aggregations := d.aggregations.erase c }
  else
    { d.addTable c.table with
      columns := insertLast d.columns c
      aggregations := d.aggregations.insert c a }

/-! ### Joins, filters, groupings and sort keys -/

/-- Refuses a part whose table is not selected. -/
def requireTable (role : Role) (t : TableId) : Except Fault Unit :=
  if t ∈ d.tables then .ok () else .error (.reference (.unselectedTable role t))

/-- Refuses a join of a table to itself or of a table that is not selected. -/
def checkJoin (j : Join) : Except Fault Unit :=
  if j.source.table = j.target.table then
    .error (.reference (.selfJoinRefused j.source.table))
  else do
    d.requireTable .join j.source.table
    d.requireTable .join j.target.table

/-- Appends a join; one whose id is in use changes nothing. -/
def addJoin (j : Join) : Except Fault Draft :=
  if d.joins.any (·.id == j.id) then .ok d
  else do
    d.checkJoin j
    return { d with joins := d.joins ++ [j] }

def addFilter (f : Filter) : Except Fault Draft := do
  d.requireTable .filter f.column.table
  return { d with filters := d.filters ++ [f] }

def addSort (s : SortKey) : Except Fault Draft := do
  d.requireTable .sorting s.column.table
  return { d with orderBy := d.orderBy ++ [s] }

/-- Groups by a column, or no longer does. -/
def toggleGroupBy (c : ColumnId) : Except Fault Draft :=
  if c ∈ d.groupBy then .ok { d with groupBy := d.groupBy.filter (· ≠ c) }
  else do
    d.requireTable .grouping c.table
    return { d with groupBy := d.groupBy ++ [c] }

def removeJoin (id : String) : Draft := { d with joins := d.joins.filter (·.id ≠ id) }

def removeFilter (id : String) : Draft := { d with filters := d.filters.filter (·.id ≠ id) }

def removeSort (id : String) : Draft := { d with orderBy := d.orderBy.filter (·.id ≠ id) }

/-! ### Changing an entry

The first entry with the id is read again from its own fields with the changes put over them. The
id stays. -/

/-- Replaces the first value that passes a test; `none` if no value does. -/
def replaceFirst {α : Type} (p : α → Bool) (f : α → Except Failure α) :
    List α → Except Failure (Option (List α))
  | [] => .ok none
  | a :: as =>
    if p a then (f a).map fun b => some (b :: as)
    else (replaceFirst p f as).map (·.map (a :: ·))

/-- Fields with changes put over them, except for the id. -/
def changed (fields changes : List (String × Json)) (id : String) : List (String × Json) :=
  Entries.put (Entries.putAll fields changes) "id" (.str id)

/-- An edit that must find its entry. -/
def orUnknown {α : Type} (id : String) (found : Option α) : Except Failure α :=
  match found with
  | some a => .ok a
  | none => .error (.unknownEntry (.str id))

def updateJoin (id : String) (changes : List (String × Json)) : Except Failure Draft := do
  let amend (j : Join) : Except Failure Join := do
    let j ← (Join.ofEntries id (changed j.plainEntries changes id)).orFail
    (d.checkJoin j).mapError .fault
    return j
  let joins ← replaceFirst (·.id == id) amend d.joins
  return { d with joins := ← orUnknown id joins }

def updateFilter (id : String) (changes : List (String × Json)) : Except Failure Draft := do
  let amend (f : Filter) : Except Failure Filter := do
    let f ← (Filter.ofEntries id (changed f.entries changes id)).orFail
    (d.requireTable .filter f.column.table).mapError .fault
    return f
  let filters ← replaceFirst (·.id == id) amend d.filters
  return { d with filters := ← orUnknown id filters }

def updateSort (id : String) (changes : List (String × Json)) : Except Failure Draft := do
  let amend (s : SortKey) : Except Failure SortKey := do
    let s ← (SortKey.ofEntries id (changed s.entries changes id)).orFail
    (d.requireTable .sorting s.column.table).mapError .fault
    return s
  let orderBy ← replaceFirst (·.id == id) amend d.orderBy
  return { d with orderBy := ← orUnknown id orderBy }

/-! ### Formulas and limit -/

/-- Why an alias and an expression make no formula: one of them is blank, or the parentheses do
not balance. Whether the expression is SQL is left to the database. -/
def formulaFault? (name expression : String) : Option FormulaFault :=
  let opened := expression.toList.count '('
  let closed := expression.toList.count ')'
  if Text.isBlankText name then some .noAlias
  else if Text.isBlankText expression then some .noExpression
  else if opened ≠ closed then some (.unbalanced opened closed)
  else none

/-- Appends a formula under its sanitized alias, which must not be taken. -/
def addFormula (f : Formula) : Except Fault Draft :=
  match formulaFault? f.name f.expression with
  | some fault => .error (.formula fault)
  | none =>
    let name := Text.sanitizeAlias f.name
    if d.formulas.any (·.name == name) then .error (.formula (.aliasTaken name))
    else
      let formula := { f with name, expression := Text.strip f.expression }
      .ok { d with formulas := d.formulas ++ [formula] }

def removeFormula (id : String) : Draft := { d with formulas := d.formulas.filter (·.id ≠ id) }

def setLimit (limit : Int) : Draft := { d with limit }

end QueryDraft.Draft
