import QueryDraft.Catalog.Lookup
import QueryDraft.Digest
import QueryDraft.Draft.Edit
import QueryDraft.Text.Lowercase

/-!
# Relations between tables

How two tables of a catalog are likely to be joined. A foreign key of the first table that refers to
the second comes first, then one of the second that refers to the first; last, if asked for, a key
that two namesakes in different schemas share. What is found is only a proposal.
-/

namespace QueryDraft

namespace Relation

/-- The id of a proposed join, which depends on its ends only. -/
def joinId (source target : ColumnId) : String :=
  Digest.nameId s!"join:{source.text}->{target.text}"

def propose (source : ColumnId) (kind : JoinKind) (target : ColumnId) : Join :=
  ⟨joinId source target, source, kind, target⟩

/-- The columns of one table that refer to another, with what they refer to. -/
def references (source target : Table) : List (Column × ForeignKey) :=
  (source.columns.filterMap fun c => c.foreignKey?.map (c, ·)).filter (·.2.pointsTo target.id)

/-- A left join along a foreign key; a reference that names its schema goes before one that does
not. -/
def foreignKeyJoin? (source target : Table) : Option Join :=
  let found := references source target
  ((found.find? (·.2.schema.isSome)).or found.head?).map fun (c, key) =>
    propose (source.id.column c.name) .left (target.id.column key.column)

/-- Whether a column may be the key that namesakes share. -/
def isKey (c : Column) : Bool := Text.lowercase c.name == "id" || c.isPrimaryKey

/-- An inner join of namesakes in different schemas on the first key of equal type. -/
def sharedKeyJoin? (a b : Table) : Option Join :=
  if a.name == b.name && a.schema != b.schema then
    (a.columns.find? fun c =>
        isKey c && (b.column? c.name).any (·.type == c.type)).map fun c =>
      propose (a.id.column c.name) .inner (b.id.column c.name)
  else none

/-- The join of two tables that is most likely; `heuristic` admits shared keys. -/
def between? (heuristic : Bool) (a b : Table) : Option Join :=
  if a.id = b.id then none
  else
    ((foreignKeyJoin? a b).or (foreignKeyJoin? b a)).or
      (if heuristic then sharedKeyJoin? a b else none)

/-- The join of two tables of a catalog that is most likely. -/
def infer? (catalog : Catalog) (heuristic : Bool) (a b : TableId) : Option Join :=
  (catalog.table? a).bind fun a => (catalog.table? b).bind fun b => between? heuristic a b

/-- A table by identifier or by name. -/
inductive TableRef where
  | id (t : TableId)
  | name (s : String)

/-- The table that is meant; a bad name is no table. -/
def TableRef.id? : TableRef → Option TableId
  | id t => some t
  | name s => TableId.parse? s

def inferRef? (catalog : Catalog) (heuristic : Bool) (a b : TableRef) : Option Join :=
  a.id?.bind fun a => b.id?.bind fun b => infer? catalog heuristic a b

/-- The join of two tables given by name. -/
def inferNamed? (catalog : Catalog) (heuristic : Bool) (a b : String) : Option Join :=
  inferRef? catalog heuristic (.name a) (.name b)

/-- How a table is joined to the tables of a draft: the first selected table with a relation to it
decides, in either order. -/
def suggest? (catalog : Catalog) (heuristic : Bool) (d : Draft) (t : TableId) : Option Join :=
  d.tables.findSome? fun u =>
    if u = t then none
    else (infer? catalog heuristic u t).or (infer? catalog heuristic t u)

end Relation

/-- Selects a table and joins it as suggested. -/
def Draft.acceptSuggestion (d : Draft) (catalog : Catalog) (heuristic : Bool) (t : TableId) :
    Except Fault Draft :=
  match Relation.suggest? catalog heuristic d t with
  | some j => (d.addTable t).addJoin j
  | none => .ok (d.addTable t)

end QueryDraft
