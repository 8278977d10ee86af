import QueryDraft.Draft.Basic
import QueryDraft.Text.Lowercase

/-!
# Aliases of aggregates

An aggregate is selected under the name of its column and function. If that name is taken, the
table's name is put before it, and if that is taken too, the least number that makes it free is put
behind it.
-/

namespace QueryDraft.Sql

/-- The name of an aggregate where no other name is in the way. -/
def plainAlias (c : ColumnId) (a : Aggregate) : String :=
  c.name ++ "_" ++ Text.lowercase a.word

/-- A name, and the same name with a number behind it. -/
def numbered (name : String) : Nat → String
  | 0 => name
  | n + 1 => name ++ "_" ++ toString (n + 1)

/-- The first of the numbered names that is free. -/
def firstFree (used : List String) (name : String) : String :=
  numbered name (((List.range (used.length + 1)).find? (numbered name · ∉ used)).getD 0)

/-- The name of an aggregate where some names are in use. -/
def freeAlias (used : List String) (c : ColumnId) (a : Aggregate) : String :=
  let plain := plainAlias c a
  if plain ∈ used then firstFree used (c.table.table ++ "_" ++ plain) else plain

/-- Names for aggregates in order, none of them in use before. -/
def freeAliases : (used : List String) → List (ColumnId × Aggregate) → List String
  | _, [] => []
  | used, (c, a) :: rest =>
    let name := freeAlias used c a
    name :: freeAliases (name :: used) rest

end QueryDraft.Sql
