import QueryDraft.Text.Lowercase

/-!
# Classes of column types

A declared type is any text. What it holds is told from words that occur in it, the words for
truth values being looked for first and those for numbers last.
-/

namespace QueryDraft

inductive TypeClass where
  | truth | text | number | unknown
deriving DecidableEq, Repr

namespace TypeClass

def word : TypeClass → String
  | truth => "boolean"
  | text => "string"
  | number => "number"
  | unknown => "unknown"

def textWords : List String :=
  ["char", "text", "string", "uuid", "date", "time", "json", "xml", "inet", "enum", "bytea"]

def numberWords : List String :=
  ["int", "serial", "numeric", "decimal", "real", "double", "float", "money", "number"]

/-- Whether a word occurs in a text. -/
def occurs (word text : List Char) : Bool :=
  match text with
  | [] => word.isEmpty
  | c :: cs => word.isPrefixOf (c :: cs) || occurs word cs

def ofDeclared (type : String) : TypeClass :=
  let declared := (Text.lowercase type).toList
  let mentions (word : String) := occurs word.toList declared
  if mentions "bool" then truth
  else if textWords.any mentions then text
  else if numberWords.any mentions then number
  else unknown

end TypeClass

end QueryDraft
