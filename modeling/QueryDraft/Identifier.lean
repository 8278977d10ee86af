import QueryDraft.Text.Blank

/-!
# Table and column identifiers

A table is named by its schema and its name, a column by its table and its name; the text of either
joins the parts with dots. Reading takes the first of three or more parts as the schema and the
last part of a column's text as its name, so that a table's name may itself hold dots. A text
without a schema means the schema `public`.
-/

namespace QueryDraft

/-- The schema of tables that are named without one. -/
def publicSchema : String := "public"

/-- The dot-separated parts of a text without the blanks at its ends; `none` if one is empty. -/
def identifierParts (s : String) : Option (List (List Char)) :=
  let parts := (Text.trim Text.isBlank s.toList).splitOn '.'
  if parts.any List.isEmpty then none else some parts

/-- Parts joined by dots. -/
def dotted (parts : List (List Char)) : String := .ofList (['.'].intercalate parts)

structure TableId where
  schema : String
  table : String
deriving DecidableEq, Repr

namespace TableId

def text (t : TableId) : String := t.schema ++ "." ++ t.table

def parse? (s : String) : Option TableId :=
  match identifierParts s with
  | some [table] => some ⟨publicSchema, .ofList table⟩
  | some (schema :: rest) => some ⟨.ofList schema, dotted rest⟩
  | _ => none

end TableId

structure ColumnId where
  table : TableId
  name : String
deriving DecidableEq, Repr

namespace ColumnId

def text (c : ColumnId) : String := c.table.text ++ "." ++ c.name

def parse? (s : String) : Option ColumnId :=
  match identifierParts s with
  | some [table, name] => some ⟨⟨publicSchema, .ofList table⟩, .ofList name⟩
  | some (schema :: table :: rest) =>
    (rest.getLast?).map fun name =>
      ⟨⟨.ofList schema, dotted (table :: rest.dropLast)⟩, .ofList name⟩
  | _ => none

end ColumnId

/-- The column of a table with a name. -/
def TableId.column (t : TableId) (name : String) : ColumnId := ⟨t, name⟩

end QueryDraft
