/-!
# Blank characters

Two classes of blank character and what is built on them: trimming, the test for a blank text, and
the writing of blank runs as underscores. `strip` is what identifiers and list items go through,
`trim isSpace` what a number written as text goes through.
-/

namespace QueryDraft.Text

/-- The white-space characters: control blanks, the space and its wider and narrower relatives. -/
def isSpace (c : Char) : Bool :=
  let n := c.toNat
  (0x09 ≤ n && n ≤ 0x0D) || n == 0x20 || n == 0x85 || n == 0xA0 || n == 0x1680 ||
    (0x2000 ≤ n && n ≤ 0x200A) || n == 0x2028 || n == 0x2029 || n == 0x202F || n == 0x205F ||
    n == 0x3000

/-- White space or one of the four information separators U+001C to U+001F. -/
def isBlank (c : Char) : Bool :=
  isSpace c || (0x1C ≤ c.toNat && c.toNat ≤ 0x1F)

/-- Drops the characters of a class from both ends. -/
def trim (p : Char → Bool) (cs : List Char) : List Char :=
  ((cs.dropWhile p).reverse.dropWhile p).reverse

/-- The text without the blanks at its ends. -/
def strip (s : String) : String :=
  .ofList (trim isBlank s.toList)

/-- Nothing but blanks, or nothing at all. -/
def isBlankText (s : String) : Bool :=
  s.toList.all isBlank

/-- Every run of blanks becomes one underscore. -/
def underscoreRuns : List Char → List Char
  | [] => []
  | c :: cs =>
    if isBlank c then
      if cs.head?.any isBlank then underscoreRuns cs else '_' :: underscoreRuns cs
    else c :: underscoreRuns cs

theorem all_underscoreRuns (cs : List Char) : (underscoreRuns cs).all (!isBlank ·) = true := by
  induction cs with
  | nil => rfl
  | cons c cs ih =>
    unfold underscoreRuns
    split
    · split
      · exact ih
      · simpa [show isBlank '_' = false by decide] using ih
    · rename_i h
      simpa [h] using ih

end QueryDraft.Text
