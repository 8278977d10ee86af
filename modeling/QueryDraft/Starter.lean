import QueryDraft.Draft.Fragment
import QueryDraft.Text.Lowercase

/-!
# Starters

Ready-made fragments for a draft with nothing selected: a list of users, a count of orders, and the
latest rows of a table that records when they were made.
-/

namespace QueryDraft

structure Starter where
  title : String
  description : String
  fragment : List (String × Json)

namespace Starter

def document (s : Starter) : Json := .obj [
  ("title", .str s.title), ("description", .str s.description), ("fragment", .obj s.fragment)]

/-- Names of tables that hold people. -/
def peopleNames : List String := ["users", "user", "customer", "customers", "cliente", "clientes"]

/-- Names of tables that hold orders. -/
def orderNames : List String := ["orders", "order", "sales", "pedidos", "vendas"]

/-- The first table with one of some names, in any case. -/
def named? (catalog : Catalog) (names : List String) : Option Table :=
  catalog.tables.find? (Text.lowercase ·.name ∈ names)

def selecting (t : Table) : String × Json := ("selectedTables", .texts [t.id.text])

def list (t : Table) : Starter where
  title := s!"List {t.name}"
  description := "Show the first 10 rows."
  fragment := [selecting t, ("limit", .int 10)]

/-- Counts the rows by the primary key, or by `id` if there is none. -/
def count (t : Table) : Starter :=
  let key := ((t.columns.find? (·.isPrimaryKey)).map Column.name).getD "id"
  let column := (t.id.column key).text
  { title := s!"Count {t.name}"
    description := "Total number of rows in the table."
    fragment := [selecting t, ("selectedColumns", .texts [column]),
      ("aggregations", .obj [(column, .str Aggregate.count.word)])] }

def recent (t : Table) : Starter where
  title := s!"Recent {t.name}"
  description := "Last 20 rows added."
  fragment := [selecting t,
    ("orderBy", .arr [.obj [("column", .str (t.id.column "created_at").text),
      ("direction", .str Direction.desc.word)]]),
    ("limit", .int 20)]

def explore (t : Table) : Starter where
  title := s!"Explore {t.name}"
  description := "Browse this table."
  fragment := [selecting t, ("limit", .int 10)]

/-- The starters for a catalog; where none fits, its first table is offered. -/
def forCatalog (catalog : Catalog) : List Starter :=
  let found :=
    ((named? catalog peopleNames).map list).toList ++
    ((named? catalog orderNames).map count).toList ++
    ((catalog.tables.find? (·.hasColumn "created_at")).map recent).toList
  if found.isEmpty then (catalog.tables.take 1).map explore else found

/-- The starters for a draft: none once a table is selected. -/
def forDraft (catalog : Catalog) (d : Draft) : List Starter :=
  if d.tables.isEmpty then forCatalog catalog else []

/-- The limit where a starter sets none. -/
def usualLimit : Int := 10

/-- Replaces what is selected by the fragment of a starter. -/
def apply (s : Starter) (d : Draft) (catalog? : Option Catalog) (ids : IdSupply) :
    Except Failure Replay :=
  d.clear.applyFragment (Entries.putAll [("limit", .int usualLimit)] s.fragment) catalog? ids

end Starter

end QueryDraft
