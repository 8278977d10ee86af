import QueryDraft.Text.Point
import QueryDraft.Text.Printable

/-!
# Quoted text

A text as it is shown inside a message: between single quotes, or between double quotes where it
holds single quotes only. The quote in use and the backslash are escaped, so are the characters
that cannot be printed and the halves of surrogate pairs.
-/

namespace QueryDraft.Text

/-- The quote that a text is shown in. -/
def quoteFor (cs : List Char) : Char :=
  if cs.contains '\'' && !cs.contains '"' then '"' else '\''

/-- A character as it is shown between two quotes. -/
def shownChar (quote c : Char) : List Char :=
  if c = quote || c = '\\' then ['\\', c]
  else if c = '\t' then ['\\', 't']
  else if c = '\n' then ['\\', 'n']
  else if c = '\r' then ['\\', 'r']
  else if isPrintable c then [c]
  else if c.toNat < 0x100 then '\\' :: 'x' :: hexDigits 2 c.toNat
  else if c.toNat < 0x10000 then '\\' :: 'u' :: hexDigits 4 c.toNat
  else '\\' :: 'U' :: hexDigits 8 c.toNat

def shownPoint (quote : Char) : Point → List Char
  | .char c => shownChar quote c
  | .half n => Point.chars (.half n)

/-- Code points between quotes. -/
def quotedPoints (ps : List Point) : String :=
  let quote := quoteFor (ps.filterMap Point.char?)
  .ofList (quote :: ps.flatMap (shownPoint quote) ++ [quote])

/-- The text between quotes. -/
def quoted (s : String) : String := quotedPoints (Point.ofText s)

end QueryDraft.Text
