import QueryDraft.Json.Basic
import QueryDraft.Number.Shortest
import QueryDraft.Text.Quoted
import QueryDraft.Text.Whole

/-!
# Showing JSON values

How a value is put into words: inside a message, and as the text of a filter. Texts are quoted
except at the top, `None`, `True` and `False` stand for null and the truth values, and an object
shows each key once, at its first place and with its last value. A value is shown only if every
number in it can be written (`isShowable`).
-/

namespace QueryDraft.Json

mutual

/-- The value with its texts quoted. -/
def shown : Json → String
  | .null => "None"
  | .bool true => "True"
  | .bool false => "False"
  | .int n => toString n
  | .float x => x.text
  | .str s => Text.quoted s
  | .arr items => "[" ++ ", ".intercalate (shownItems items) ++ "]"
  | .obj entries =>
    "\x7b" ++ ", ".intercalate ((Entries.merge (shownEntries entries)).map fun (k, v) =>
      Text.quoted k ++ ": " ++ v) ++ "\x7d"
  | .tornStr points => Text.quotedPoints points
  | .tornObj entries =>
    "\x7b" ++ ", ".intercalate ((Entries.merge (shownTornEntries entries)).map fun (k, v) =>
      Text.quotedPoints k ++ ": " ++ v) ++ "\x7d"

def shownItems : List Json → List String
  | [] => []
  | v :: vs => shown v :: shownItems vs

def shownEntries : List (String × Json) → List (String × String)
  | [] => []
  | (k, v) :: es => (k, shown v) :: shownEntries es

def shownTornEntries : List (List Text.Point × Json) → List (List Text.Point × String)
  | [] => []
  | (k, v) :: es => (k, shown v) :: shownTornEntries es

end

mutual

/-- The value can be shown: no number that would be is too long to be written. -/
def isShowable : Json → Bool
  | .int n => Text.isWritable n
  | .arr items => areShowable items
  | .obj entries => (Entries.merge (showableEntries entries)).all (·.2)
  | .tornObj entries => (Entries.merge (showableTornEntries entries)).all (·.2)
  | _ => true

def areShowable : List Json → Bool
  | [] => true
  | v :: vs => v.isShowable && areShowable vs

def showableEntries : List (String × Json) → List (String × Bool)
  | [] => []
  | (k, v) :: es => (k, v.isShowable) :: showableEntries es

def showableTornEntries : List (List Text.Point × Json) → List (List Text.Point × Bool)
  | [] => []
  | (k, v) :: es => (k, v.isShowable) :: showableTornEntries es

end

/-- The value as text: a text as it is, anything else as it is shown. -/
def display : Json → String
  | .str s => s
  | v => shown v

end QueryDraft.Json
