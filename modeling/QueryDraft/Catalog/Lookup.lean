import QueryDraft.Catalog.Basic
import QueryDraft.Identifier.Reading

/-!
# Looking up

Tables and columns of a catalog by identifier, and by the texts of their identifiers. Of several
tables with one identifier the first counts.
-/

namespace QueryDraft.Catalog

def tableIds (c : Catalog) : List TableId := c.tables.map Table.id

def table? (c : Catalog) (t : TableId) : Option Table :=
  c.tables.find? (·.id = t)

def hasTable (c : Catalog) (t : TableId) : Bool := (c.table? t).isSome

def column? (c : Catalog) (k : ColumnId) : Option Column :=
  (c.table? k.table).bind (·.column? k.name)

theorem id_of_table? {c : Catalog} {t : TableId} {tab : Table} (h : c.table? t = some tab) :
    tab.id = t := by
  simpa using List.find?_some h

theorem mem_of_table? {c : Catalog} {t : TableId} {tab : Table} (h : c.table? t = some tab) :
    tab ∈ c.tables := List.mem_of_find?_eq_some h

theorem hasTable_iff {c : Catalog} {t : TableId} : c.hasTable t = true ↔ t ∈ c.tableIds := by
  simp [hasTable, table?, tableIds, List.find?_isSome]

theorem column?_of_table? {c : Catalog} {k : ColumnId} {tab : Table} (h : c.table? k.table = some tab) :
    c.column? k = tab.column? k.name := by
  rw [column?, h, Option.bind_some]

/-! ### By text -/

/-- The table that a text names, if there is one. -/
def findTable (c : Catalog) (s : String) : Except BadValue (Option Table) :=
  c.table? <$> TableId.parse s

/-- The table that a text names; the refusal repeats the text. -/
def getTable (c : Catalog) (s : String) : Except BadValue Table := do
  match ← c.findTable s with
  | some t => return t
  | none => throw (.unknownTable s c.name)

/-- The column that a text names, if there is one. -/
def findColumn (c : Catalog) (s : String) : Except BadValue (Option Column) :=
  c.column? <$> ColumnId.parse s

end QueryDraft.Catalog
