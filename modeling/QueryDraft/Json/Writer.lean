import QueryDraft.Json.Basic
import QueryDraft.Number.Shortest

/-!
# Writing JSON

The compact text of a value: no blanks between tokens, entries in order, and no escapes but those
that JSON demands and those of the halves of surrogate pairs.
-/

namespace QueryDraft.Json

/-- A character inside quotes. -/
def escaped (c : Char) : List Char :=
  if c = '"' then ['\\', '"']
  else if c = '\\' then ['\\', '\\']
  else if c = '\x08' then ['\\', 'b']
  else if c = '\t' then ['\\', 't']
  else if c = '\n' then ['\\', 'n']
  else if c = '\x0C' then ['\\', 'f']
  else if c = '\r' then ['\\', 'r']
  else if c.toNat < 0x20 then '\\' :: 'u' :: Text.hexDigits 4 c.toNat
  else [c]

/-- A text between quotes. -/
def quotedChars (s : String) : List Char :=
  '"' :: s.toList.flatMap escaped ++ ['"']

/-- Code points between quotes. -/
def quotedPointChars (ps : List Text.Point) : List Char :=
  '"' :: ps.flatMap (fun | .char c => escaped c | .half n => Text.Point.chars (.half n)) ++ ['"']

def intChars (n : Int) : List Char :=
  if n < 0 then '-' :: Nat.toDigits 10 n.natAbs else Nat.toDigits 10 n.natAbs

def floatChars : Binary64 → List Char
  | .nan => "NaN".toList
  | .infinite false => "Infinity".toList
  | .infinite true => "-Infinity".toList
  | x => x.text.toList

mutual

/-- The characters of a value. -/
def chars : Json → List Char
  | .null => "null".toList
  | .bool true => "true".toList
  | .bool false => "false".toList
  | .int n => intChars n
  | .float x => floatChars x
  | .str s => quotedChars s
  | .arr items => '[' :: itemChars items ++ [']']
  | .obj entries => '\x7b' :: entryChars entries ++ ['\x7d']
  | .tornStr points => quotedPointChars points
  | .tornObj entries => '\x7b' :: tornEntryChars entries ++ ['\x7d']

def itemChars : List Json → List Char
  | [] => []
  | [v] => chars v
  | v :: v' :: vs => chars v ++ ',' :: itemChars (v' :: vs)

def entryChars : List (String × Json) → List Char
  | [] => []
  | [(k, v)] => quotedChars k ++ ':' :: chars v
  | (k, v) :: e :: es => quotedChars k ++ ':' :: chars v ++ ',' :: entryChars (e :: es)

def tornEntryChars : List (List Text.Point × Json) → List Char
  | [] => []
  | [(k, v)] => quotedPointChars k ++ ':' :: chars v
  | (k, v) :: e :: es => quotedPointChars k ++ ':' :: chars v ++ ',' :: tornEntryChars (e :: es)

end

/-- The compact text of a value. -/
def text (v : Json) : String := .ofList v.chars

end QueryDraft.Json
