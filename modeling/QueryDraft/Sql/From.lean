import QueryDraft.Draft.Basic
import QueryDraft.Sql.Clause

/-!
# The tables of a query

The selected tables fall into groups, each a root table with the joins that hang off it. A join is
attached to a group as soon as one of its tables is there; joins that cannot be attached yet are
tried again once others have been. Joins that never reach the base table open groups of their own,
and every table that no join mentions is a group by itself.
-/

namespace QueryDraft.Sql

/-- The condition that two columns are equal. -/
structure Equality where
  left : ColumnId
  right : ColumnId
deriving DecidableEq, Repr

namespace Equality

def sql (e : Equality) : String := s!"{e.left.text} = {e.right.text}"

def mirrored (e : Equality) : Equality := ⟨e.right, e.left⟩

end Equality

/-- The condition of a join. -/
def Equality.ofJoin (j : Join) : Equality := ⟨j.source, j.target⟩

/-- A table that is joined to those before it. -/
structure Clause where
  kind : JoinKind
  table : TableId
  conditions : List Equality
deriving DecidableEq, Repr

def Clause.sql (c : Clause) : String :=
  joinClause c.kind c.table (c.conditions.map Equality.sql)

/-- A join that was added to a clause of another kind: the join, its kind as seen from the clause's
table, and the kind and table of the clause. -/
structure Disagreement where
  join : Join
  kind : JoinKind
  keptKind : JoinKind
  table : TableId
deriving DecidableEq, Repr

structure Group where
  root : TableId
  clauses : List Clause := []
  disagreements : List Disagreement := []
deriving DecidableEq, Repr

namespace Group

def tables (g : Group) : List TableId := g.root :: g.clauses.map Clause.table

/-- Adds a clause that brings a table in. -/
def introduce (g : Group) (t : TableId) (kind : JoinKind) (e : Equality) : Group :=
  { g with clauses := g.clauses ++ [⟨kind, t, [e]⟩] }

/-- Splits a list at its last element that passes a test. -/
def splitLast {α : Type} (p : α → Bool) : List α → Option (List α × α × List α)
  | [] => none
  | a :: as =>
    match splitLast p as with
    | some (before, b, after) => some (a :: before, b, after)
    | none => if p a then some ([], a, as) else none

/-- The kind of a join as seen from a table that it brings in. -/
def kindFor (j : Join) (t : TableId) : JoinKind :=
  if t = j.target.table then j.kind else j.kind.mirrored

/-- Adds the condition of a join to the later of the clauses that brought its tables in. The clause
keeps its kind; a join of another kind is noted. -/
def fold (g : Group) (j : Join) : Group :=
  match splitLast (fun c => j.mentions c.table) g.clauses with
  | none => g
  | some (before, c, after) =>
    let kind := kindFor j c.table
    { g with
      clauses := before ++ { c with conditions := c.conditions ++ [(.ofJoin j)] } :: after
      disagreements :=
        if kind = c.kind then g.disagreements else g.disagreements ++ [⟨j, kind, c.kind, c.table⟩] }

/-- Attaches a join if one of its tables is in the group. -/
def attach? (g : Group) (j : Join) : Option Group :=
  if j.source.table ∈ g.tables then
    if j.target.table ∈ g.tables then some (g.fold j)
    else some (g.introduce j.target.table j.kind (.ofJoin j))
  else if j.target.table ∈ g.tables then
    some (g.introduce j.source.table j.kind.mirrored (.ofJoin j))
  else none

/-- The group that a join opens. -/
def opening (j : Join) : Group :=
  { root := j.source.table, clauses := [⟨j.kind, j.target.table, [(.ofJoin j)]⟩] }

/-- Tries every join once, in order; the second part is those that could not be attached. -/
def sweep : Group → List Join → Group × List Join
  | g, [] => (g, [])
  | g, j :: js =>
    match g.attach? j with
    | some g => sweep g js
    | none =>
      let (g, left) := sweep g js
      (g, j :: left)

theorem length_sweep_le (g : Group) (js : List Join) : (sweep g js).2.length ≤ js.length := by
  induction js generalizing g with
  | nil => simp [sweep]
  | cons j js ih =>
    simp only [sweep]
    split
    · exact Nat.le_succ_of_le (ih _)
    · simpa using ih g

/-- Tries the joins again and again for as long as some can be attached. -/
def grow (g : Group) (js : List Join) : Group × List Join :=
  let swept := sweep g js
  if swept.2.length < js.length then grow swept.1 swept.2 else swept
termination_by js.length

theorem length_grow_le (g : Group) (js : List Join) : (grow g js).2.length ≤ js.length := by
  fun_induction grow g js with
  | case1 g js swept h ih => exact Nat.le_trans ih (Nat.le_of_lt h)
  | case2 g js swept h => exact length_sweep_le g js

/-- The group at hand when it has grown, and the groups that the joins left over open. -/
def spread (g : Group) (js : List Join) : List Group :=
  match _h : grow g js with
  | (grown, []) => [grown]
  | (grown, j :: left) => grown :: spread (opening j) left
termination_by js.length
decreasing_by
  have := length_grow_le g js
  simp only [_h, List.length_cons] at this
  omega

end Group

/-- Adds tables that are in no group, each as a group by itself. -/
def addLoners (gs : List Group) (ts : List TableId) : List Group :=
  ts.foldl (fun gs t => if gs.any (t ∈ ·.tables) then gs else gs ++ [{ root := t }]) gs

/-- The groups of a query with a base table, the base table being in the first. -/
def groups (base : TableId) (tables : List TableId) (joins : List Join) : List Group :=
  addLoners (Group.spread { root := base } joins) tables

def Group.sql (g : Group) : String := fromItem g.root (g.clauses.map Clause.sql)

end QueryDraft.Sql
