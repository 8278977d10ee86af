import Mathlib
import QueryDraft.Sql.Compile

/-!
# What a compiled query is made of

`compile_eq_ok_iff` opens `Draft.compile`: a draft compiles exactly if its references and its rules
are in order and its limit is not too long. The result holds the groups of its tables
(`parts_of_compile`).
-/

namespace QueryDraft

theorem Text.isWritable_iff {n : Int} : isWritable n = true ↔ n.natAbs < 10 ^ maxDigits := by
  rw [isWritable, decide_eq_true_iff, Nat.length_toDigits_le_iff (by decide) (by decide)]

theorem Sql.isLimitWritable_iff {limit : Int} :
    isLimitWritable limit = true ↔ limit < 10 ^ Text.maxDigits := by
  have hcast : ((10 ^ Text.maxDigits : Nat) : Int) = 10 ^ Text.maxDigits := Int.natCast_pow ..
  have hpos : 0 < 10 ^ Text.maxDigits := Nat.pow_pos (by decide)
  rw [isLimitWritable, Bool.or_eq_true, decide_eq_true_iff, Text.isWritable_iff, ← hcast]
  omega

namespace Draft

open Sql

variable {catalog : Catalog} {d : Draft} {base : TableId} {c : Compiled}

/-- The query of a draft once its groups, items and conditions are known. -/
def assembled (d : Draft) (base : TableId) (gs : List Group) (items : List SelectItem)
    (conditions : List String) : Compiled where
  sql := assemble [
    selectClause (items.map SelectItem.sql), fromClause (gs.map Group.sql),
    whereClause conditions, groupByClause d.groupBy, orderByClause d.orderBy,
    limitClause d.limit]
  warnings := warnings base gs
  base
  tables := gs.flatMap Group.tables
  joinCount := (gs.flatMap Group.clauses).length
  unjoined := gs.tail.map Group.root
  isGrouped := d.isGrouped
  parameters := Filter.parameterNames d.filters

theorem compileFrom_eq_ok_iff : d.compileFrom catalog base = .ok c ↔
    d.checkAliases = .ok () ∧ ∃ items conditions, d.selectItems catalog = .ok items ∧
      d.conditions catalog = .ok conditions ∧
      c = d.assembled base (groups base d.tables d.joins) items conditions := by
  unfold compileFrom
  cases hn : d.checkAliases with
  | error e => simp [bind, Except.bind]
  | ok u =>
    cases hi : d.selectItems catalog with
    | error e => simp [bind, Except.bind]
    | ok items =>
      cases hc : d.conditions catalog with
      | error e => simp [bind, Except.bind]
      | ok conditions => simp [bind, Except.bind, pure, Except.pure, assembled, eq_comm]

/-- A compiled query keeps its limit and is refused only for one that is too long. -/
theorem withLimit_eq_ok_iff {limit : Int} {c' : Compiled} : withLimit limit c = .ok c' ↔
    limit < 10 ^ Text.maxDigits ∧ c' = c := by
  unfold withLimit
  rw [← isLimitWritable_iff]
  split_ifs with h <;> simp [h, eq_comm]

theorem compile_eq_ok_iff (hbase : d.base? = some base) : d.compile catalog = .ok c ↔
    d.referenceFaults catalog = [] ∧ d.compileFrom catalog base = .ok c ∧
      d.limit < 10 ^ Text.maxDigits := by
  obtain ⟨rest, htables⟩ := List.head?_eq_some_iff.1 hbase
  unfold compile
  rw [htables]
  cases hf : d.referenceFaults catalog with
  | cons fault faults => simp
  | nil =>
    cases hc : d.compileFrom catalog base with
    | error fault => simp [hc, Except.mapError, bind, Except.bind]
    | ok c' =>
      simp only [hc, Except.mapError, bind, Except.bind, withLimit_eq_ok_iff, true_and,
        Except.ok.injEq]
      rw [and_comm, eq_comm]

/-- What a query that was compiled is made of. -/
theorem parts_of_compile (hbase : d.base? = some base) (h : d.compile catalog = .ok c) :
    d.referenceFaults catalog = [] ∧ d.checkAliases = .ok () ∧
      ∃ items conditions, d.selectItems catalog = .ok items ∧
        d.conditions catalog = .ok conditions ∧
        c = d.assembled base (groups base d.tables d.joins) items conditions := by
  obtain ⟨hfaults, hc, -⟩ := (compile_eq_ok_iff hbase).1 h
  exact ⟨hfaults, compileFrom_eq_ok_iff.1 hc⟩

end Draft

end QueryDraft
