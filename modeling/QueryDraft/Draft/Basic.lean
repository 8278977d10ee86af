import QueryDraft.Identifier
import QueryDraft.OrderedMap

/-!
# Query drafts

A draft is a query under construction: the selected tables, the first of which is the base table,
and what is to be done with them. An empty list of columns stands for all columns. Drafts are
values; `QueryDraft.Draft.Edit` makes new ones from old ones.
-/

namespace QueryDraft

/-- What a selected column is aggregated by; `none` leaves it as it is. -/
inductive Aggregate where
  | none | count | sum | avg | min | max
deriving DecidableEq, Repr

namespace Aggregate

def all : List Aggregate := [none, count, sum, avg, min, max]

def word : Aggregate → String
  | none => "NONE"
  | count => "COUNT"
  | sum => "SUM"
  | avg => "AVG"
  | min => "MIN"
  | max => "MAX"

def ofWord? (s : String) : Option Aggregate := all.find? (·.word = s)

theorem ofWord?_word (a : Aggregate) : ofWord? a.word = some a := by cases a <;> decide

end Aggregate

/-- How a filter compares its column with its value. -/
inductive Operator where
  | equal | notEqual | greater | less | greaterOrEqual | lessOrEqual | like | ilike | isIn
  | isNull | isNotNull
deriving DecidableEq, Repr

namespace Operator

def all : List Operator :=
  [equal, notEqual, greater, less, greaterOrEqual, lessOrEqual, like, ilike, isIn, isNull,
    isNotNull]

def word : Operator → String
  | equal => "="
  | notEqual => "!="
  | greater => ">"
  | less => "<"
  | greaterOrEqual => ">="
  | lessOrEqual => "<="
  | like => "LIKE"
  | ilike => "ILIKE"
  | isIn => "IN"
  | isNull => "IS NULL"
  | isNotNull => "IS NOT NULL"

def ofWord? (s : String) : Option Operator := all.find? (·.word = s)

theorem ofWord?_word (o : Operator) : ofWord? o.word = some o := by cases o <;> decide

/-- The operators that take no value. -/
def isUnary (o : Operator) : Bool := o == isNull || o == isNotNull

/-- The operators whose value is a pattern. -/
def isPattern (o : Operator) : Bool := o == like || o == ilike

end Operator

/-- Which rows a join keeps beside those that match. -/
inductive JoinKind where
  | inner | left | right | full
deriving DecidableEq, Repr

namespace JoinKind

def all : List JoinKind := [inner, left, right, full]

def word : JoinKind → String
  | inner => "INNER"
  | left => "LEFT"
  | right => "RIGHT"
  | full => "FULL"

def ofWord? (s : String) : Option JoinKind := all.find? (·.word = s)

theorem ofWord?_word (k : JoinKind) : ofWord? k.word = some k := by cases k <;> decide

/-- The kind that keeps the same rows when the two sides trade places. -/
def mirrored : JoinKind → JoinKind
  | left => right
  | right => left
  | k => k

theorem mirrored_mirrored (k : JoinKind) : k.mirrored.mirrored = k := by cases k <;> rfl

end JoinKind

inductive Direction where
  | asc | desc
deriving DecidableEq, Repr

namespace Direction

def all : List Direction := [asc, desc]

def word : Direction → String
  | asc => "ASC"
  | desc => "DESC"

def ofWord? (s : String) : Option Direction := all.find? (·.word = s)

theorem ofWord?_word (d : Direction) : ofWord? d.word = some d := by cases d <;> decide

end Direction

/-- A join of two tables on the equality of a column of each. -/
structure Join where
  id : String
  source : ColumnId
  kind : JoinKind
  target : ColumnId
deriving DecidableEq, Repr

namespace Join

def mentions (j : Join) (t : TableId) : Bool := j.source.table = t || j.target.table = t

/-- The same join seen from its other side. -/
def mirrored (j : Join) : Join :=
  { j with source := j.target, kind := j.kind.mirrored, target := j.source }

theorem mirrored_mirrored (j : Join) : j.mirrored.mirrored = j := by
  simp [mirrored, JoinKind.mirrored_mirrored]

end Join

/-- A condition on a column. A value that starts with a colon stands for a parameter. -/
structure Filter where
  id : String
  column : ColumnId
  operator : Operator
  value : String
deriving DecidableEq, Repr

/-- A column that the rows are ordered by. -/
structure SortKey where
  id : String
  column : ColumnId
  direction : Direction
deriving DecidableEq, Repr

/-- A formula that is selected under a name of its own. -/
structure Formula where
  id : String
  name : String
  expression : String
deriving DecidableEq, Repr

/-- The number of rows asked for where nothing else is said. -/
def usualLimit : Int := 100

structure Draft where
  tables : List TableId := []
  columns : List ColumnId := []
  aggregations : OrderedMap ColumnId Aggregate := ∅
  joins : List Join := []
  filters : List Filter := []
  groupBy : List ColumnId := []
  orderBy : List SortKey := []
  formulas : List Formula := []
  limit : Int := usualLimit
deriving DecidableEq

namespace Draft

/-- The table that the others are joined to. -/
def base? (d : Draft) : Option TableId := d.tables.head?

/-- The aggregate of a column. -/
def aggregate (d : Draft) (c : ColumnId) : Aggregate :=
  (d.aggregations.get? c).getD .none

/-- Aggregates or a grouping make the result one row per group. -/
def isGrouped (d : Draft) : Bool := !d.aggregations.isEmpty || !d.groupBy.isEmpty

/-- The selected columns, then the aggregated ones that are not among them. -/
def effectiveColumns (d : Draft) : List ColumnId :=
  d.aggregations.keys.foldl insertLast d.columns

end Draft

end QueryDraft
