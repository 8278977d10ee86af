import QueryDraft.BadValue
import QueryDraft.Identifier

/-!
# Faults of drafts

Why a draft cannot be edited as asked or cannot be turned into SQL: no table, a dangling reference,
a broken rule, a formula that is refused, or a limit that is too long to be written. Each cause has a
kind, a message, and, where it is about one, a table and a column.
-/

namespace QueryDraft

/-- The part of a draft that refers to a table or column. -/
inductive Role where
  | selection | aggregation | filter | grouping | sorting | join
deriving DecidableEq, Repr

def Role.subject : Role → String
  | selection => "Selected"
  | aggregation => "Aggregated"
  | filter => "Filter"
  | grouping => "GROUP BY"
  | sorting => "ORDER BY"
  | join => "Join"

/-- A reference to a table or column that is not selected, does not exist or is out of place. -/
inductive ReferenceFault where
  /-- A part cannot be added because its table is not selected. -/
  | unselectedTable (role : Role) (table : TableId)
  /-- A join of a table to itself cannot be added. -/
  | selfJoinRefused (table : TableId)
  | unknownTable (table : TableId) (catalog : String)
  | unselectedColumn (role : Role) (column : ColumnId)
  | unknownColumn (role : Role) (column : ColumnId)
  | selfJoin (join : String) (table : TableId)
deriving DecidableEq, Repr

/-- A rule that well-formed references break. -/
inductive RuleFault where
  | ungrouped (column : ColumnId)
  | noValues (column : ColumnId)
  | blankAlias (formula : String)
  | repeatedAlias (name : String)
  | limitNotPositive (limit : Int)
deriving DecidableEq, Repr

/-- Why a formula is refused. -/
inductive FormulaFault where
  | noAlias
  | noExpression
  | unbalanced (opened closed : Nat)
  | aliasTaken (name : String)
deriving DecidableEq, Repr

inductive Fault where
  | noTable
  | reference (fault : ReferenceFault)
  | rule (fault : RuleFault)
  | formula (fault : FormulaFault)
  | longLimit
deriving DecidableEq, Repr

namespace ReferenceFault

def message : ReferenceFault → String
  | unselectedTable role t => s!"{role.subject} references table '{t.text}', which is not selected"
  | selfJoinRefused t => s!"Cannot join table '{t.text}' to itself"
  | unknownTable t catalog =>
    s!"Table '{t.text}' is selected but does not exist in schema '{catalog}'"
  | unselectedColumn role c =>
    s!"{role.subject} column '{c.text}' references table '{c.table.text}', which is not selected"
  | unknownColumn role c =>
    s!"{role.subject} column '{c.text}' does not exist on table '{c.table.text}'"
  | selfJoin join t =>
    s!"Join '{join}' joins table '{t.text}' to itself; self-joins are not supported"

def table : ReferenceFault → TableId
  | unselectedTable _ t | selfJoinRefused t | unknownTable t _ | selfJoin _ t => t
  | unselectedColumn _ c | unknownColumn _ c => c.table

def column? : ReferenceFault → Option ColumnId
  | unselectedColumn _ c | unknownColumn _ c => some c
  | _ => none

end ReferenceFault

namespace RuleFault

def message : RuleFault → String
  | ungrouped c => s!"Column '{c.text}' must appear in GROUP BY or be used in an aggregate function"
  | noValues c => s!"IN filter on '{c.text}' has no values: list them separated by commas"
  | blankAlias formula => s!"Calculated column '{formula}' has an empty alias"
  | repeatedAlias name => s!"Calculated column alias '{name}' is used more than once"
  | limitNotPositive limit => s!"Row limit must be a positive integer, got {limit}"

def table? : RuleFault → Option TableId
  | ungrouped c => some c.table
  | _ => none

def column? : RuleFault → Option ColumnId
  | ungrouped c | noValues c => some c
  | _ => none

end RuleFault

def FormulaFault.message : FormulaFault → String
  | noAlias => "Alias is required: give the calculated column a name"
  | noExpression => "Expression is empty: a calculated column needs a formula"
  | unbalanced opened closed => s!"Unbalanced parentheses: {opened} '(' opened, {closed} ')' closed"
  | aliasTaken name => s!"Alias '{name}' is already used by another calculated column"

namespace Fault

/-- The name of the kind of fault. -/
def kind : Fault → String
  | noTable => "EmptySelectionError"
  | reference _ => "StructuralError"
  | rule _ => "ConsistencyError"
  | formula _ => "ExpressionValidationError"
  | longLimit => "ValueError"

def message : Fault → String
  | noTable => "No table selected: choose at least one table to build a query"
  | reference f => f.message
  | rule f => f.message
  | formula f => f.message
  | longLimit => BadValue.longNumber.message

/-- The table that a fault is about. -/
def table? : Fault → Option TableId
  | reference f => some f.table
  | rule f => f.table?
  | _ => none

/-- The column that a fault is about. -/
def column? : Fault → Option ColumnId
  | reference f => f.column?
  | rule f => f.column?
  | _ => none

end Fault

end QueryDraft
