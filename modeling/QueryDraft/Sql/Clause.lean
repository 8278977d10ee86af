import QueryDraft.Draft.Basic
import QueryDraft.Sql.Alias
import QueryDraft.Text.Whole

/-!
# Clauses

The texts of the clauses of a query, and the query that they make. A clause with nothing in it is
the empty text and leaves no trace.
-/

namespace QueryDraft.Sql

def selectClause (items : List String) : String :=
  "SELECT " ++ ", ".intercalate items

/-- A column as it is, or its aggregate under an alias. -/
def columnItem (c : ColumnId) (a : Aggregate) (name : String) : String :=
  if a = .none then c.text else s!"{a.word}({c.text}) AS {name}"

def formulaItem (expression name : String) : String :=
  s!"({expression}) AS {name}"

/-- A table and the joins behind it. -/
def fromItem (root : TableId) (joins : List String) : String :=
  " ".intercalate (root.text :: joins)

def fromClause (items : List String) : String :=
  "FROM " ++ ", ".intercalate items

def joinClause (kind : JoinKind) (t : TableId) (conditions : List String) : String :=
  s!"{kind.word} JOIN {t.text} ON " ++ " AND ".intercalate conditions

/-- Conditions that must all hold. -/
def whereClause (conditions : List String) : String :=
  if conditions.isEmpty then "" else "WHERE " ++ " AND ".intercalate conditions

def groupByClause (columns : List ColumnId) : String :=
  if columns.isEmpty then "" else "GROUP BY " ++ ", ".intercalate (columns.map ColumnId.text)

def orderByClause (keys : List SortKey) : String :=
  if keys.isEmpty then ""
  else "ORDER BY " ++ ", ".intercalate (keys.map fun k => s!"{k.column.text} {k.direction.word}")

/-- A limit, which is written only if it is positive. -/
def limitClause (limit : Int) : String :=
  if 0 < limit then s!"LIMIT {limit}" else ""

/-- The clause of a limit can be written: there is none, or the limit is not too long. -/
def isLimitWritable (limit : Int) : Bool := limit ≤ 0 || Text.isWritable limit

/-- The clauses that are not empty, in order. -/
def assemble (clauses : List String) : String :=
  " ".intercalate (clauses.filter (!·.isEmpty))

end QueryDraft.Sql
