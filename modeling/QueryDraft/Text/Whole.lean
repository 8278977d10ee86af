import QueryDraft.Text.Blank
import QueryDraft.Text.Digit

/-!
# Whole numbers as text

Two readings, both of which pass over white space around the number and single underscores between
its digits. `whole` takes the digits of every script behind one sign. `plainWhole` takes ASCII
digits: it cleans the text in steps (the sign, zeros in front, a fraction of zeros, underscores) and
reads what is left as a bare number, which has nothing to spare. Neither reads more than
`maxDigits` digits, but zeros in front count for `whole` only. Nor is a number written that has more
(`isWritable`).
-/

namespace QueryDraft.Text

/-- How many digits a whole number may have as text, be it read or written. -/
def maxDigits : Nat := 4300

/-- The number does not have too many digits to be written. The sign does not count. -/
def isWritable (n : Int) : Bool := (Nat.toDigits 10 n.natAbs).length ≤ maxDigits

/-- Why a text is not read as a whole number. -/
inductive WholeFault where
  | notWhole
  | tooManyDigits (count : Nat)
deriving DecidableEq, Repr

/-- Digit values of a non-empty run in which single underscores separate digits. -/
def digitRun : List Char → Option (List Nat)
  | [] => none
  | c :: cs =>
    match digitValue? c, cs with
    | none, _ => none
    | some d, [] => some [d]
    | some d, '_' :: rest => (digitRun rest).map (d :: ·)
    | some d, c' :: rest => (digitRun (c' :: rest)).map (d :: ·)

/-- A text without its sign, true for minus. -/
def splitSign : List Char → Bool × List Char
  | '+' :: cs => (false, cs)
  | '-' :: cs => (true, cs)
  | cs => (false, cs)

def withSign (negative : Bool) (n : Nat) : Int := if negative then -n else n

/-- A whole number in the digits of any script, perhaps with white space around it. What follows
the digits is looked at last. -/
def whole (s : String) : Except WholeFault Int :=
  let (negative, cs) := splitSign (trim isSpace s.toList)
  let inRun (c : Char) : Bool := isDigit c || c == '_'
  match digitRun (cs.takeWhile inRun) with
  | none => .error .notWhole
  | some ds =>
    if maxDigits < ds.length then .error (.tooManyDigits ds.length)
    else if (cs.dropWhile inRun).isEmpty then .ok (withSign negative (ofDigits ds))
    else .error .notWhole

/-! ### Bare numbers and cleaning -/

/-- A number without its sign: digits, the first of which is zero only if it stands alone. -/
def bareDigits (ds : List Char) : Option Nat :=
  if ds.isEmpty || !ds.all Char.isDigit || (ds.head? = some '0' && 1 < ds.length) then none
  else some (Nat.ofDigitChars 10 ds 0)

/-- A number that a minus sign may precede. -/
def bareNumber : List Char → Option Int
  | '-' :: ds => (bareDigits ds).map (-↑·)
  | ds => (bareDigits ds).map (↑·)

/-- What is left behind a zero or underscore `last` of the zeros in front: `last` stays before a
point and at the end. A minus sign may follow the zeros. -/
def dropZerosAfter (last : Char) : List Char → Option (List Char)
  | [] => some [last]
  | c :: cs =>
    if c = '0' || c = '_' then dropZerosAfter c cs
    else if c = '.' then some (last :: c :: cs)
    else if c = '-' || c.isDigit then some (c :: cs)
    else none

/-- Drops the zeros in front and the underscores among them. -/
def dropZeros : List Char → Option (List Char)
  | [] => none
  | c :: cs =>
    if c = '0' then dropZerosAfter c cs
    else if c.isDigit then some (c :: cs)
    else none

/-- Drops a fraction that consists of zeros. -/
def dropZeroFraction (cs : List Char) : List Char :=
  match cs.dropWhile (· ≠ '.') with
  | _ :: places =>
    if !places.isEmpty && places.all (· == '0') then cs.takeWhile (· ≠ '.') else cs
  | [] => cs

/-- Two underscores stand side by side. -/
def hasDoubleUnderscore : List Char → Bool
  | '_' :: '_' :: _ => true
  | _ :: cs => hasDoubleUnderscore cs
  | [] => false

/-- Drops the underscores, unless one of them is first, last or beside another. -/
def dropUnderscores (cs : List Char) : List Char :=
  if cs.head? = some '_' || cs.getLast? = some '_' || hasDoubleUnderscore cs then cs
  else cs.filter (· ≠ '_')

/-- The bare number that a text stands for, if it stands for one. -/
def cleaned (cs : List Char) : Option (List Char) :=
  let (negative, cs) := splitSign (trim isSpace cs)
  (dropZeros cs).map fun cs =>
    let cs := dropUnderscores (dropZeroFraction cs)
    if negative then '-' :: cs else cs

/-- The length of the digits at the front of a text, which a minus may precede and which do not
start with a zero. -/
def leadingDigits (cs : List Char) : Nat :=
  let cs := if cs.head? = some '-' then cs.tail else cs
  if cs.head? = some '0' then 0 else (cs.takeWhile Char.isDigit).length

/-- A whole number in ASCII digits. Too many of them are told apart only where they start the text,
after a minus sign perhaps. -/
def plainWhole (s : String) : Except WholeFault Int :=
  let leading := leadingDigits s.toList
  if maxDigits < leading then .error (.tooManyDigits leading)
  else
    match (cleaned s.toList).bind bareNumber with
    | none => .error .notWhole
    | some n => if n.natAbs < Nat.pow 10 maxDigits then .ok n else .error .notWhole

end QueryDraft.Text
