import QueryDraft.Draft.Basic
import QueryDraft.Fault
import QueryDraft.Sql.Operand

/-!
# Conditions

The SQL of a filter, and the parameters that filters name. The values of an `IN` filter are
separated by commas; blanks around a value do not count, nor do empty values.
-/

namespace QueryDraft.Sql

/-- The values of an `IN` filter. -/
def listValues (value : String) : List String :=
  ((value.toList.splitOn ',').map fun part => Text.strip (.ofList part)).filter (!·.isEmpty)

/-- A letter or underscore, with which the name of a parameter starts. -/
def isNameStart (c : Char) : Bool := c.isAlpha || c == '_'

def isNameChar (c : Char) : Bool := isNameStart c || c.isDigit

/-- The name that follows a colon at the start of a value. -/
def parameterName? (value : String) : Option String :=
  match value.toList with
  | ':' :: c :: cs =>
    if isNameStart c then some (.ofList (c :: cs.takeWhile isNameChar)) else none
  | _ => none

end QueryDraft.Sql

namespace QueryDraft

namespace Filter

open Sql

/-- The values of a filter that may be parameters. -/
def candidates (f : Filter) : List String :=
  if f.operator.isUnary then []
  else if f.operator = .isIn then listValues f.value
  else [f.value]

/-- The parameters that filters name, in order of first appearance. -/
def parameterNames (fs : List Filter) : List String :=
  distinct ((fs.flatMap candidates).filterMap parameterName?)

/-- The operands of a filter on a column of some class. -/
def operands (f : Filter) (type : TypeClass) : List Operand :=
  if f.operator.isPattern then f.candidates.map .ofPattern
  else f.candidates.map (.ofValue type)

/-- The condition of a filter on a column of some class. -/
def sql (f : Filter) (type : TypeClass) : Except RuleFault String :=
  let column := f.column.text
  let operands := (f.operands type).map Operand.sql
  if f.operator.isUnary then .ok s!"{column} {f.operator.word}"
  else if f.operator = .isIn then
    if operands.isEmpty then .error (.noValues f.column)
    else .ok (s!"{column} IN (" ++ ", ".intercalate operands ++ ")")
  else .ok (s!"{column} {f.operator.word} " ++ ", ".intercalate operands)

end Filter

end QueryDraft
