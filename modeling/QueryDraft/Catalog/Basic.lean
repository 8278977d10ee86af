import QueryDraft.Identifier

/-!
# Catalogs

A catalog describes the tables of a database. Of several columns with one name the first counts.
A foreign key refers to a column of a table, with or without the table's schema; without it the
reference fits a table of that name in every schema.
-/

namespace QueryDraft

structure ForeignKey where
  schema : Option String
  table : String
  column : String
deriving DecidableEq, Repr

namespace ForeignKey

/-- The reference that a text stands for: two or three parts, none of them empty. -/
def parse? (s : String) : Option ForeignKey :=
  match identifierParts s with
  | some [schema, table, column] =>
    some ⟨some (.ofList schema), .ofList table, .ofList column⟩
  | some [table, column] => some ⟨none, .ofList table, .ofList column⟩
  | _ => none

/-- Whether the reference is to a column of the table. -/
def pointsTo (k : ForeignKey) (t : TableId) : Bool :=
  k.table == t.table && k.schema.all (· == t.schema)

end ForeignKey

/-- A column and its declared type, which may be any text. -/
structure Column where
  name : String
  type : String := ""
  isPrimaryKey : Bool := false
  isForeignKey : Bool := false
  references : Option String := none
deriving DecidableEq, Repr

/-- The reference of a column that is declared a foreign key. -/
def Column.foreignKey? (c : Column) : Option ForeignKey :=
  if c.isForeignKey then c.references.bind ForeignKey.parse? else none

structure Table where
  name : String
  schema : String := publicSchema
  columns : List Column := []
  description : Option String := none
deriving DecidableEq, Repr

namespace Table

def id (t : Table) : TableId := ⟨t.schema, t.name⟩

def column? (t : Table) (name : String) : Option Column :=
  t.columns.find? (·.name == name)

def hasColumn (t : Table) (name : String) : Bool := (t.column? name).isSome

end Table

/-- Where the description of a database came from. -/
inductive Origin where
  | ai | ddl | simulated | real
deriving DecidableEq, Repr

structure Catalog where
  name : String
  tables : List Table := []
  origin : Option Origin := none
deriving DecidableEq, Repr

end QueryDraft
