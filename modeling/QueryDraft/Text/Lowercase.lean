import QueryDraft.Text.Blank
import QueryDraft.Text.Lowercase.Table

/-!
# Lower case

`lowercase` maps every character to its lower-case form. Two rules are not character by character:
the capital I with a dot becomes two characters, and a capital sigma becomes the final form when
it ends a word. `sanitizeAlias` gives the form in which the name of a formula is kept: lower case,
with underscores for blanks.
-/

namespace QueryDraft.Text

namespace Lowercase

/-- Whether a character lies in one of some closed ranges. -/
def inRanges (ranges : List (Nat × Nat)) (c : Char) : Bool :=
  ranges.any fun (first, last) => first ≤ c.toNat && c.toNat ≤ last

def isCased (c : Char) : Bool := inRanges casedRanges c

def isIgnorable (c : Char) : Bool := inRanges ignorableRanges c

/-- The lower-case form of a single character, itself where it has none. -/
def simple (c : Char) : Char :=
  match runs.find? fun (first, last, step, _) =>
      first ≤ c.toNat && c.toNat ≤ last && (c.toNat - first) % step == 0 with
  | some (_, _, _, distance) => .ofNat (c.toNat + distance).toNat
  | none => c

/-- The nearest character that is not passed over has case. -/
def meetsCased (cs : List Char) : Bool :=
  (cs.dropWhile isIgnorable).head?.any isCased

/-- The lower-case form of a character that follows `before` (nearest first) and precedes
`after`. -/
def inContext (before : List Char) (c : Char) (after : List Char) : List Char :=
  if c = 'Σ' then
    if meetsCased before && !meetsCased after then ['ς'] else ['σ']
  else if c = 'İ' then ['i', '\u0307']
  else [simple c]

/-- Lowers a text of which `before` (nearest first) has been passed. -/
def lowerAfter (before : List Char) : List Char → List Char
  | [] => []
  | c :: cs => inContext before c cs ++ lowerAfter (c :: before) cs

end Lowercase

/-- The text in lower case. -/
def lowercase (s : String) : String :=
  .ofList (Lowercase.lowerAfter [] s.toList)

def sanitizeAlias (s : String) : String :=
  lowercase (.ofList (underscoreRuns (trim isBlank s.toList)))

end QueryDraft.Text
