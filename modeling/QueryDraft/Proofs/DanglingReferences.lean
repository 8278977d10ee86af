import Mathlib
import QueryDraft.Proofs.References

/-!
# Dangling references

Once the tables of a draft are checked, its other references are, one after the other
(`Draft.checks`). A column of a table that is selected but unknown is passed over then, and that
table has been reported already; all else that dangles is reported itself. So the faults found are
all that there are (`Draft.IsFault`), and none are found exactly in a draft whose references are in
order (`Draft.referenceFaults_complete`).
-/

namespace QueryDraft.Draft

/-- What is checked: a column that some part of a draft refers to, or a join of a table to itself. -/
inductive Check where
  | column (role : Role) (c : ColumnId)
  | loop (j : Join)

/-- The columns of a join are not looked at if it joins a table to itself. -/
def joinChecks (j : Join) : List Check :=
  if j.source.table = j.target.table then [.loop j]
  else [.column .join j.source, .column .join j.target]

/-- What is checked once the tables have been, in order. -/
def checks (d : Draft) : List Check :=
  d.columns.map (.column .selection) ++
    d.aggregations.keys.map (.column .aggregation) ++
    d.filters.map (.column .filter ·.column) ++
    d.groupBy.map (.column .grouping) ++
    d.orderBy.map (.column .sorting ·.column) ++
    d.joins.flatMap joinChecks

variable (catalog : Catalog) (d : Draft)

def Check.faults : Check → List ReferenceFault
  | column role c => d.columnFaults catalog role c
  | loop j => [.selfJoin j.id j.source.table]

/-- The faults that are found by the time that some checks are done. -/
def faultsAfter (cs : List Check) : List ReferenceFault :=
  d.tableFaults catalog ++ cs.flatMap (Check.faults catalog d)

/-- What may be wrong with the references of a draft. -/
inductive IsFault : ReferenceFault → Prop where
  | unknownTable {t : TableId} (ht : t ∈ d.tables) (hunknown : t ∉ catalog.tableIds) :
    IsFault (.unknownTable t catalog.name)
  | unselectedColumn {role : Role} {c : ColumnId} (hc : .column role c ∈ d.checks)
    (hunselected : c.table ∉ d.tables) : IsFault (.unselectedColumn role c)
  | unknownColumn {role : Role} {c : ColumnId} (hc : .column role c ∈ d.checks)
    (hselected : c.table ∈ d.tables) (hknown : c.table ∈ catalog.tableIds)
    (hunknown : catalog.column? c = none) : IsFault (.unknownColumn role c)
  | selfJoin {j : Join} (hj : j ∈ d.joins) (hloop : j.source.table = j.target.table) :
    IsFault (.selfJoin j.id j.source.table)

variable {catalog d}

/-! ### One check after the other -/

theorem faults_joinChecks (j : Join) :
    (joinChecks j).flatMap (Check.faults catalog d) = d.joinFaults catalog j := by
  unfold joinChecks joinFaults
  split_ifs <;> simp [Check.faults]

theorem faultsAfter_checks : d.faultsAfter catalog d.checks = d.referenceFaults catalog := by
  unfold faultsAfter checks referenceFaults
  simp only [List.flatMap_append, List.flatMap_map, List.flatMap_assoc, faults_joinChecks,
    List.append_assoc]
  rfl

theorem loop_mem_checks_iff {j : Join} :
    .loop j ∈ d.checks ↔ j ∈ d.joins ∧ j.source.table = j.target.table := by
  have hjoin (k : Join) : Check.loop j ∈ joinChecks k ↔ k = j ∧ j.source.table = j.target.table := by
    unfold joinChecks
    split_ifs with hk
    · simp only [List.mem_singleton, Check.loop.injEq]
      exact ⟨fun h => ⟨h.symm, h ▸ hk⟩, fun h => h.1.symm⟩
    · simp only [List.mem_cons, List.not_mem_nil, reduceCtorEq, or_self, false_iff, not_and]
      rintro rfl
      exact hk
  simp [checks, hjoin]

/-! ### What is found -/

theorem mem_tableFaults_iff {f : ReferenceFault} : f ∈ d.tableFaults catalog ↔
    ∃ t ∈ d.tables, t ∉ catalog.tableIds ∧ f = .unknownTable t catalog.name := by
  have hunknown (t : TableId) : (!catalog.hasTable t) = true ↔ t ∉ catalog.tableIds := by
    rw [← Catalog.hasTable_iff, Bool.not_eq_true', Bool.not_eq_true]
  simp only [tableFaults, List.mem_map, List.mem_filter, hunknown, and_assoc, eq_comm]

theorem mem_columnFaults_iff {role : Role} {c : ColumnId} {f : ReferenceFault} :
    f ∈ d.columnFaults catalog role c ↔
      (c.table ∉ d.tables ∧ f = .unselectedColumn role c) ∨
        (c.table ∈ d.tables ∧ c.table ∈ catalog.tableIds ∧ catalog.column? c = none ∧
          f = .unknownColumn role c) := by
  unfold columnFaults
  split_ifs with hc
  · cases ht : catalog.table? c.table with
    | none =>
      have hunknown : c.table ∉ catalog.tableIds := by
        rw [← Catalog.hasTable_iff, Catalog.hasTable, ht]
        exact Bool.false_ne_true
      simp [hc, hunknown]
    | some t =>
      have hknown : c.table ∈ catalog.tableIds :=
        Catalog.hasTable_iff.1 (Option.isSome_of_eq_some ht)
      rw [Catalog.column?_of_table? ht]
      simp only [hc, hknown, not_true, false_and, false_or, true_and, ← Option.not_isSome_iff_eq_none]
      show f ∈ (if (t.column? c.name).isSome = true then [] else _) ↔ _
      split_ifs with hcolumn <;> simp [hcolumn]
  · simp [hc]

theorem mem_referenceFaults_iff {f : ReferenceFault} :
    f ∈ d.referenceFaults catalog ↔ d.IsFault catalog f := by
  rw [← faultsAfter_checks, faultsAfter, List.mem_append, mem_tableFaults_iff, List.mem_flatMap]
  constructor
  · rintro (⟨t, ht, hunknown, rfl⟩ | ⟨check, hcheck, hf⟩)
    · exact .unknownTable ht hunknown
    · cases check with
      | column role c =>
        rcases mem_columnFaults_iff.1 hf with ⟨hunselected, rfl⟩ | ⟨hselected, hknown, hnone, rfl⟩
        · exact .unselectedColumn hcheck hunselected
        · exact .unknownColumn hcheck hselected hknown hnone
      | loop j =>
        obtain ⟨hj, hloop⟩ := loop_mem_checks_iff.1 hcheck
        rw [List.mem_singleton.1 hf]
        exact .selfJoin hj hloop
  · intro h
    cases h with
    | unknownTable ht hunknown => exact .inl ⟨_, ht, hunknown, rfl⟩
    | unselectedColumn hc hunselected =>
      exact .inr ⟨_, hc, mem_columnFaults_iff.2 (.inl ⟨hunselected, rfl⟩)⟩
    | unknownColumn hc hselected hknown hunknown =>
      exact .inr ⟨_, hc, mem_columnFaults_iff.2 (.inr ⟨hselected, hknown, hunknown, rfl⟩)⟩
    | selfJoin hj hloop =>
      exact .inr ⟨_, loop_mem_checks_iff.2 ⟨hj, hloop⟩, List.mem_singleton.2 rfl⟩

/-- A column of a selected table that the catalog does not have is passed over. -/
theorem columnFaults_of_unknown {role : Role} {c : ColumnId} (hc : c.table ∈ d.tables)
    (hunknown : c.table ∉ catalog.tableIds) : d.columnFaults catalog role c = [] := by
  rw [List.eq_nil_iff_forall_not_mem]
  intro f hf
  rcases mem_columnFaults_iff.1 hf with ⟨hunselected, -⟩ | ⟨-, hknown, -⟩
  · exact hunselected hc
  · exact hunknown hknown

/-- The references of a draft have no fault exactly if they are in order, and all faults are found.
A reference that is passed over because its table is unknown hides none: when it is its turn, the
table has been reported. -/
theorem referenceFaults_complete (catalog : Catalog) (d : Draft) :
    (d.referenceFaults catalog = [] ↔ d.Grounded catalog) ∧
    (∀ f, f ∈ d.referenceFaults catalog ↔ d.IsFault catalog f) ∧
    d.referenceFaults catalog = d.faultsAfter catalog d.checks ∧
    ∀ before role c after, d.checks = before ++ .column role c :: after → c.table ∈ d.tables →
      c.table ∉ catalog.tableIds → d.columnFaults catalog role c = [] ∧
        .unknownTable c.table catalog.name ∈ d.faultsAfter catalog before := by
  refine ⟨grounded_iff.symm, fun f => mem_referenceFaults_iff, faultsAfter_checks.symm,
    fun before role c after _ hc hunknown => ⟨columnFaults_of_unknown hc hunknown, ?_⟩⟩
  exact List.mem_append_left _ (mem_tableFaults_iff.2 ⟨c.table, hc, hunknown, rfl⟩)

end QueryDraft.Draft

namespace QueryDraft.Sample

/-- The second table is in no catalog, and a filter refers to it. -/
def dangling : Draft where
  tables := [customers, ⟨"old", "customers"⟩]
  columns := [customers.column "id"]
  filters := [⟨"f", TableId.column ⟨"old", "customers"⟩ "id", .isNull, ""⟩]

/-- The filter is passed over, but not without its table having been reported. -/
theorem referenceFaults_complete_dangling :
    ReferenceFault.unknownTable ⟨"old", "customers"⟩ Catalog.multiSchema.name ∈
        dangling.faultsAfter .multiSchema [.column .selection (customers.column "id")] ∧
      ¬ dangling.Grounded .multiSchema ∧
      dangling.IsFault .multiSchema (.unknownColumn .selection (customers.column "id")) := by
  obtain ⟨hnil, hfault, -, hskipped⟩ := Draft.referenceFaults_complete .multiSchema dangling
  have hfaults : ReferenceFault.unknownColumn .selection (customers.column "id") ∈
      dangling.referenceFaults .multiSchema := by decide
  refine ⟨(hskipped [.column .selection (customers.column "id")] .filter _ [] rfl (by decide)
    (by decide)).2, fun h => ?_, (hfault _).1 hfaults⟩
  rw [hnil.2 h] at hfaults
  cases hfaults

end QueryDraft.Sample
