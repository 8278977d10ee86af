import QueryDraft.Sql.ColumnType
import QueryDraft.Text.Blank
import QueryDraft.Text.Digit

/-!
# Operands

The right-hand sides of conditions. A value that starts with a colon is a parameter; what else it
is depends on the class of its column: a truth value, a numeral or a quoted text.
-/

namespace QueryDraft.Sql

/-- A text between single quotes, in which a single quote is written twice. -/
def quoteChars (cs : List Char) : List Char :=
  '\'' :: cs.flatMap (fun c => if c = '\'' then ['\'', '\''] else [c]) ++ ['\'']

def quote (s : String) : String := .ofList (quoteChars s.toList)

/-- A colon and something after it. -/
def isParameter (s : String) : Bool :=
  match s.toList with
  | ':' :: _ :: _ => true
  | _ => false

/-- Whether nothing is left but, at most, the end of the line. -/
def isEnd : List Char → Bool
  | [] => true
  | ['\n'] => true
  | _ => false

/-- Digits, perhaps a point and more digits, and the end. -/
def isUnsignedNumeral (cs : List Char) : Bool :=
  let rest := cs.dropWhile Text.isDigit
  rest.length < cs.length &&
    match rest with
    | '.' :: places =>
      let rest := places.dropWhile Text.isDigit
      rest.length < places.length && isEnd rest
    | rest => isEnd rest

/-- A number in the digits of any script, perhaps negative and perhaps with a fraction. -/
def isNumeral (s : String) : Bool :=
  match s.toList with
  | '-' :: cs => isUnsignedNumeral cs
  | cs => isUnsignedNumeral cs

inductive Operand where
  | parameter (value : String)
  | truth (b : Bool)
  | numeral (value : String)
  | quoted (value : String)
deriving DecidableEq, Repr

namespace Operand

def trueWords : List String := ["true", "t", "yes", "y", "1"]

def falseWords : List String := ["false", "f", "no", "n", "0"]

/-- A value that is text wherever it does not name a parameter. -/
def ofPattern (value : String) : Operand :=
  if isParameter value then parameter value else quoted value

/-- A value beside a column of some class. -/
def ofValue (type : TypeClass) (value : String) : Operand :=
  if isParameter value then parameter value
  else
    match type with
    | .truth =>
      if Text.lowercase value ∈ trueWords then truth true
      else if Text.lowercase value ∈ falseWords then truth false
      else quoted value
    | .text => quoted value
    | .number | .unknown => if isNumeral value then numeral value else quoted value

def sql : Operand → String
  | parameter value => value
  | truth true => "TRUE"
  | truth false => "FALSE"
  | numeral value => value
  | quoted value => quote value

end Operand

end QueryDraft.Sql
