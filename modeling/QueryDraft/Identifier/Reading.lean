import QueryDraft.Identifier
import QueryDraft.Reading

/-!
# Reading identifiers

An identifier is given as its text, or as a record of its parts. The parts of a record are taken
as they are.
-/

namespace QueryDraft

open Reading (FieldName)

namespace TableId

/-- The identifier that a text stands for. -/
def parse (s : String) : Except BadValue TableId :=
  match parse? s with
  | some t => .ok t
  | none => .error (.tableName s)

def ofParts (entries : List (String × Json)) : Reading TableId :=
  TableId.mk
    <$> Reading.field ⟨"schema_name", "schema_name"⟩ (some publicSchema) Reading.text entries
    <*> Reading.field ⟨"table_name", "table_name"⟩ none Reading.text entries

def read : Json → Reading TableId
  | .str s => match parse s with
    | .ok t => .value t
    | .error e => .fault (.refused e)
  | v => (Reading.record v).andThen ofParts

end TableId

namespace ColumnId

/-- The identifier that a text stands for. -/
def parse (s : String) : Except BadValue ColumnId :=
  match parse? s with
  | some c => .ok c
  | none => .error (.columnName s)

def ofParts (entries : List (String × Json)) : Reading ColumnId :=
  ColumnId.mk
    <$> Reading.field ⟨"table_id", "table_id"⟩ none TableId.read entries
    <*> Reading.field ⟨"name", "name"⟩ none Reading.text entries

def read : Json → Reading ColumnId
  | .str s => match parse s with
    | .ok c => .value c
    | .error e => .fault (.refused e)
  | v => (Reading.record v).andThen ofParts

end ColumnId

end QueryDraft
