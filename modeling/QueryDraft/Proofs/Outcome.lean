import Mathlib
import QueryDraft.Proofs.Checked

/-!
# What becomes of a draft

`Draft.Breaks catalog d fault`: the draft breaks the rule that `fault` tells of. Of a draft whose
references are in order, `compileFrom` gives the query if no rule is broken and else a rule that is
(`breaks_of_compileFrom`, `exists_compileFrom_iff`). `compile_eq_error_cases` says what each fault of a
draft tells, and `compile_outcome` puts the cases together: no table, the first dangling reference, a
broken rule, a limit that is too long, or a query.
-/

namespace QueryDraft

open Sql

variable {catalog : Catalog} {d : Draft} {base : TableId}

theorem Filter.candidates_of_isIn {f : Filter} (h : f.operator = .isIn) :
    f.candidates = listValues f.value := by
  simp [candidates, h, Operator.isUnary]

/-- A condition cannot be written only if it is to list values and has none. -/
theorem Filter.sql_eq_error_iff {f : Filter} {type : TypeClass} {fault : RuleFault} :
    f.sql type = .error fault ↔
      f.operator = .isIn ∧ listValues f.value = [] ∧ fault = .noValues f.column := by
  unfold Filter.sql
  by_cases hin : f.operator = .isIn
  · have hunary : Operator.isIn.isUnary = false := rfl
    have hempty : ((f.operands type).map Operand.sql).isEmpty = true ↔ listValues f.value = [] := by
      simp only [Filter.operands, hin, ← candidates_of_isIn hin]
      split_ifs <;> simp
    simp only [hin, hunary, if_true, Bool.false_eq_true, if_false]
    split_ifs with h
    · simp [hempty.1 h, eq_comm]
    · simp [show listValues f.value ≠ [] from fun hv => h (hempty.2 hv)]
  · split_ifs <;> simp_all

namespace Draft

/-- A column that is selected without an aggregate: a picked one or, where none is picked, any
column of a selected table. -/
def IsPlain (catalog : Catalog) (d : Draft) (c : ColumnId) : Prop :=
  d.aggregate c = .none ∧
    if d.columns = [] then c.table ∈ d.tables ∧ (catalog.column? c).isSome else c ∈ d.columns

/-- The draft breaks a rule that references in order leave open. -/
inductive Breaks (catalog : Catalog) (d : Draft) : RuleFault → Prop
  | blankAlias {f : Formula} (hf : f ∈ d.formulas) (hblank : Text.isBlankText f.name = true) :
    Breaks catalog d (.blankAlias f.id)
  | repeatedAlias {name : String} (hname : 1 < (d.formulas.map Formula.name).count name) :
    Breaks catalog d (.repeatedAlias name)
  | ungrouped {c : ColumnId} (hgrouped : d.isGrouped = true) (hc : d.IsPlain catalog c)
    (hnot : c ∉ d.groupBy) : Breaks catalog d (.ungrouped c)
  | noValues {f : Filter} (hf : f ∈ d.filters) (hop : f.operator = .isIn)
    (hvalues : listValues f.value = []) : Breaks catalog d (.noValues f.column)

/-! ### Aliases -/

theorem aliasFault?_eq_none_iff {used : List String} {fs : List Formula} :
    aliasFault? used fs = none ↔ (∀ f ∈ fs, Text.isBlankText f.name = false) ∧
      (fs.map Formula.name).Nodup ∧ ∀ f ∈ fs, f.name ∉ used := by
  induction fs generalizing used with
  | nil => simp [aliasFault?]
  | cons f fs ih =>
    unfold aliasFault?
    split_ifs with hblank hused
    · simp [hblank]
    · simp [hused]
    · rw [Bool.not_eq_true] at hblank
      rw [ih, List.forall_mem_cons, List.forall_mem_cons, List.map_cons, List.nodup_cons]
      constructor
      · rintro ⟨hfs, hnd, hnew⟩
        refine ⟨⟨hblank, hfs⟩, ⟨?_, hnd⟩, hused, fun g hg hu => hnew g hg (List.mem_cons_of_mem _ hu)⟩
        intro hf
        obtain ⟨g, hg, heq⟩ := List.mem_map.1 hf
        exact hnew g hg (heq ▸ List.mem_cons_self ..)
      · rintro ⟨⟨_, hfs⟩, ⟨hf, hnd⟩, _, hnew⟩
        refine ⟨hfs, hnd, fun g hg hu => ?_⟩
        rcases List.mem_cons.1 hu with heq | hu
        · exact hf (heq ▸ List.mem_map_of_mem hg)
        · exact hnew g hg hu

/-- The alias that is complained about is blank, or it occurs twice among the names that were used
before and those of the formulas. -/
theorem aliasFault?_eq_some {used : List String} {fs : List Formula} {fault : RuleFault}
    (h : aliasFault? used fs = some fault) :
    (∃ f ∈ fs, Text.isBlankText f.name = true ∧ fault = .blankAlias f.id) ∨
      ∃ name, fault = .repeatedAlias name ∧ 1 < (used ++ fs.map Formula.name).count name := by
  induction fs generalizing used with
  | nil => cases h
  | cons f fs ih =>
    unfold aliasFault? at h
    split_ifs at h with hblank hused
    · cases h
      exact .inl ⟨f, List.mem_cons_self .., hblank, rfl⟩
    · cases h
      refine .inr ⟨f.name, rfl, ?_⟩
      have := List.count_pos_iff.2 hused
      rw [List.map_cons, List.count_append, List.count_cons_self]
      omega
    · rcases ih h with ⟨g, hg, hblank, rfl⟩ | ⟨name, rfl, hcount⟩
      · exact .inl ⟨g, List.mem_cons_of_mem _ hg, hblank, rfl⟩
      · refine .inr ⟨name, rfl, ?_⟩
        rwa [List.map_cons, List.perm_middle.count_eq]

theorem breaks_of_checkAliases {fault : RuleFault} (h : d.checkAliases = .error fault) :
    d.Breaks catalog fault := by
  unfold checkAliases at h
  split at h
  · rename_i fault' hfault
    cases h
    rcases aliasFault?_eq_some hfault with ⟨f, hf, hblank, rfl⟩ | ⟨name, rfl, hcount⟩
    · exact .blankAlias hf hblank
    · exact .repeatedAlias hcount
  · cases h

theorem checkAliases_eq_ok_iff : d.checkAliases = .ok () ↔
    (∀ f ∈ d.formulas, Text.isBlankText f.name = false) ∧ (d.formulas.map Formula.name).Nodup := by
  have hnone : d.checkAliases = .ok () ↔ aliasFault? [] d.formulas = none := by
    unfold checkAliases
    cases aliasFault? [] d.formulas <;> simp
  rw [hnone, aliasFault?_eq_none_iff]
  simp

/-! ### Grouping -/

theorem isSome_column?_iff {c : ColumnId} : (catalog.column? c).isSome = true ↔
    ∃ t, catalog.table? c.table = some t ∧ ∃ column ∈ t.columns, column.name = c.name := by
  unfold Catalog.column?
  cases catalog.table? c.table <;> simp [Table.column?]

theorem mem_impliedColumns_iff {c : ColumnId} : c ∈ d.impliedColumns catalog ↔
    d.aggregate c = .none ∧ c.table ∈ d.tables ∧ (catalog.column? c).isSome = true := by
  rw [isSome_column?_iff]
  simp only [impliedColumns, List.mem_flatMap, List.mem_filter, List.mem_map, decide_eq_true_eq]
  constructor
  · rintro ⟨t, ht, ⟨column, hcolumn, rfl⟩, hplain⟩
    refine ⟨hplain, ht, ?_⟩
    cases htable : catalog.table? t with
    | none => simp [htable] at hcolumn
    | some table => exact ⟨table, htable, column, by simpa [htable] using hcolumn, rfl⟩
  · rintro ⟨hplain, ht, table, htable, column, hcolumn, hname⟩
    exact ⟨c.table, ht, ⟨column, by simpa [htable] using hcolumn, by rw [hname]; rfl⟩, hplain⟩

theorem mem_plainColumns_iff (hgrouped : d.isGrouped = true) {c : ColumnId} :
    c ∈ d.plainColumns catalog ↔ d.IsPlain catalog c := by
  unfold plainColumns IsPlain
  cases hcolumns : d.columns with
  | nil => simp [hgrouped, mem_impliedColumns_iff]
  | cons c' cs => simp [and_comm]

theorem ungrouped?_eq_some {c : ColumnId} (h : d.ungrouped? catalog = some c) :
    d.Breaks catalog (.ungrouped c) := by
  unfold ungrouped? at h
  split_ifs at h with hgrouped
  have hc := (mem_plainColumns_iff hgrouped).1 (List.mem_of_find?_eq_some h)
  exact .ungrouped hgrouped hc (by simpa using List.find?_some h)

theorem ungrouped?_eq_none_iff : d.ungrouped? catalog = none ↔
    ∀ c, ¬ d.Breaks catalog (.ungrouped c) := by
  constructor
  · rintro h c ⟨⟩
    rename_i hgrouped hc hnot
    rw [ungrouped?, if_pos hgrouped, List.find?_eq_none] at h
    exact h c ((mem_plainColumns_iff hgrouped).2 hc) (by simpa using hnot)
  · intro h
    rw [Option.eq_none_iff_forall_ne_some]
    exact fun c hc => h c (ungrouped?_eq_some hc)

theorem breaks_of_selectItems {fault : RuleFault} (h : d.selectItems catalog = .error fault) :
    d.Breaks catalog fault := by
  unfold selectItems at h
  split_ifs at h with hwhole
  split at h
  · rename_i c hc
    cases h
    exact ungrouped?_eq_some hc
  · cases h

/-- With no column picked, no grouping and no formula there is nothing to be grouped by. -/
theorem exists_selectItems_iff : (∃ items, d.selectItems catalog = .ok items) ↔
    ∀ c, ¬ d.Breaks catalog (.ungrouped c) := by
  rw [← ungrouped?_eq_none_iff]
  unfold selectItems
  split_ifs with hwhole
  · have hgrouped : ¬ d.isGrouped = true := by
      simp only [Bool.and_eq_true, Bool.not_eq_true'] at hwhole
      simp [hwhole.1.2]
    simp [ungrouped?, hgrouped]
  · cases d.ungrouped? catalog <;> simp

/-! ### Conditions -/

section mapM

variable {α β ε : Type} {f : α → Except ε β}

theorem mapM_eq_error {l : List α} {e : ε} (h : l.mapM f = .error e) : ∃ a ∈ l, f a = .error e := by
  induction l with
  | nil => cases h
  | cons a l ih =>
    rw [List.mapM_cons] at h
    cases ha : f a with
    | error e' =>
      rw [ha] at h
      cases h
      exact ⟨a, List.mem_cons_self .., ha⟩
    | ok b =>
      cases hl : l.mapM f with
      | error e' =>
        rw [ha, hl] at h
        cases h
        obtain ⟨a', ha', he⟩ := ih hl
        exact ⟨a', List.mem_cons_of_mem _ ha', he⟩
      | ok bs =>
        rw [ha, hl] at h
        cases h

theorem forall_of_mapM_eq_ok {l : List α} {bs : List β} (h : l.mapM f = .ok bs) :
    ∀ a ∈ l, ∃ b, f a = .ok b := by
  induction l generalizing bs with
  | nil => simp
  | cons a l ih =>
    rw [List.mapM_cons] at h
    cases ha : f a with
    | error e =>
      rw [ha] at h
      cases h
    | ok b =>
      cases hl : l.mapM f with
      | error e =>
        rw [ha, hl] at h
        cases h
      | ok bs' => exact List.forall_mem_cons.2 ⟨⟨b, ha⟩, ih hl⟩

end mapM

theorem breaks_of_conditions {fault : RuleFault} (h : d.conditions catalog = .error fault) :
    d.Breaks catalog fault := by
  obtain ⟨f, hf, he⟩ := mapM_eq_error h
  obtain ⟨hop, hvalues, rfl⟩ := Filter.sql_eq_error_iff.1 he
  exact .noValues hf hop hvalues

/-! ### All rules -/

/-- What keeps a draft from its query, its references being in order, is a rule that it breaks. -/
theorem breaks_of_compileFrom {fault : RuleFault} (h : d.compileFrom catalog base = .error fault) :
    d.Breaks catalog fault := by
  unfold compileFrom at h
  cases haliases : d.checkAliases with
  | error fault' =>
    rw [haliases] at h
    cases h
    exact breaks_of_checkAliases haliases
  | ok u =>
    cases hitems : d.selectItems catalog with
    | error fault' =>
      rw [haliases, hitems] at h
      cases h
      exact breaks_of_selectItems hitems
    | ok items =>
      cases hconditions : d.conditions catalog with
      | error fault' =>
        rw [haliases, hitems, hconditions] at h
        cases h
        exact breaks_of_conditions hconditions
      | ok conditions =>
        rw [haliases, hitems, hconditions] at h
        cases h

/-- A draft with a query breaks no rule. -/
theorem not_breaks_of_compileFrom {c : Compiled} (h : d.compileFrom catalog base = .ok c)
    (fault : RuleFault) : ¬ d.Breaks catalog fault := by
  obtain ⟨haliases, items, conditions, hitems, hconditions, _⟩ := compileFrom_eq_ok_iff.1 h
  obtain ⟨hblank, hnodup⟩ := checkAliases_eq_ok_iff.1 haliases
  rintro (⟨hf, hfblank⟩ | ⟨hname⟩ | ⟨hgrouped, hc, hnot⟩ | ⟨hf, hop, hvalues⟩)
  · rw [hblank _ hf] at hfblank
    cases hfblank
  · exact absurd (List.nodup_iff_count_le_one.1 hnodup _) (Nat.not_le_of_lt hname)
  · exact exists_selectItems_iff.1 ⟨items, hitems⟩ _ (.ungrouped hgrouped hc hnot)
  · obtain ⟨text, htext⟩ := forall_of_mapM_eq_ok hconditions _ hf
    rw [Filter.sql_eq_error_iff.2 ⟨hop, hvalues, rfl⟩] at htext
    cases htext

theorem exists_compileFrom_iff : (∃ c, d.compileFrom catalog base = .ok c) ↔
    ¬ ∃ fault, d.Breaks catalog fault := by
  constructor
  · rintro ⟨c, hc⟩ ⟨fault, hfault⟩
    exact not_breaks_of_compileFrom hc fault hfault
  · intro h
    cases hc : d.compileFrom catalog base with
    | ok c => exact ⟨c, rfl⟩
    | error fault => exact absurd ⟨fault, breaks_of_compileFrom hc⟩ h

/-! ### All outcomes -/

theorem compile_of_tables_nil (h : d.tables = []) : d.compile catalog = .error .noTable := by
  unfold compile
  rw [h]

theorem compile_of_referenceFaults_cons {fault : ReferenceFault} {faults : List ReferenceFault}
    (htables : d.tables ≠ []) (h : d.referenceFaults catalog = fault :: faults) :
    d.compile catalog = .error (.reference fault) := by
  obtain ⟨base, rest, hcons⟩ := List.exists_cons_of_ne_nil htables
  unfold compile
  rw [hcons, h]

theorem compile_of_valid {ts : List TableId} (htables : d.tables = base :: ts)
    (h : d.referenceFaults catalog = []) :
    d.compile catalog = (d.compileFrom catalog base).mapError .rule >>= withLimit d.limit := by
  unfold compile
  rw [htables, h]

/-- The query of a draft whose references are in order is kept from it by a rule that it breaks or,
where it breaks none, by its limit. -/
theorem compile_of_not_breaks (htables : d.tables ≠ []) (hfaults : d.referenceFaults catalog = [])
    (hrules : ¬ ∃ fault, d.Breaks catalog fault) :
    ∃ c, d.compile catalog = withLimit d.limit c := by
  obtain ⟨base, ts, hcons⟩ := List.exists_cons_of_ne_nil htables
  obtain ⟨c, hc⟩ : ∃ c, d.compileFrom catalog base = .ok c := exists_compileFrom_iff.2 hrules
  exact ⟨c, by rw [compile_of_valid hcons hfaults, hc]; rfl⟩

theorem withLimit_of_le {limit : Int} {c : Compiled} (h : 10 ^ Text.maxDigits ≤ limit) :
    withLimit limit c = .error .longLimit := by
  rw [withLimit, if_neg]
  rw [isLimitWritable_iff]
  exact Int.not_lt.2 h

theorem le_of_withLimit_eq_error {limit : Int} {c : Compiled} {fault : Fault}
    (h : withLimit limit c = .error fault) : fault = .longLimit ∧ 10 ^ Text.maxDigits ≤ limit := by
  unfold withLimit at h
  split_ifs at h with hlimit
  cases h
  rw [isLimitWritable_iff] at hlimit
  exact ⟨rfl, Int.not_lt.1 hlimit⟩

/-- A fault of a draft tells what is wrong with it. -/
theorem compile_eq_error_cases {fault : Fault} (h : d.compile catalog = .error fault) :
    (fault = .noTable ∧ d.tables = []) ∨
      (∃ f, fault = .reference f ∧ d.tables ≠ [] ∧ (d.referenceFaults catalog).head? = some f) ∨
      (∃ f, fault = .rule f ∧ d.tables ≠ [] ∧ d.referenceFaults catalog = [] ∧
        d.Breaks catalog f) ∨
      fault = .longLimit ∧ d.tables ≠ [] ∧ d.referenceFaults catalog = [] ∧
        (¬ ∃ f, d.Breaks catalog f) ∧ 10 ^ Text.maxDigits ≤ d.limit := by
  cases htables : d.tables with
  | nil =>
    rw [compile_of_tables_nil htables] at h
    cases h
    exact .inl ⟨rfl, rfl⟩
  | cons base ts =>
    have hne : d.tables ≠ [] := by simp [htables]
    cases hfaults : d.referenceFaults catalog with
    | cons f fs =>
      rw [compile_of_referenceFaults_cons hne hfaults] at h
      cases h
      exact .inr (.inl ⟨f, rfl, by simp, rfl⟩)
    | nil =>
      rw [compile_of_valid htables hfaults] at h
      cases hc : d.compileFrom catalog base with
      | error f =>
        rw [hc] at h
        cases h
        exact .inr (.inr (.inl ⟨f, rfl, by simp, rfl, breaks_of_compileFrom hc⟩))
      | ok c =>
        rw [hc] at h
        obtain ⟨rfl, hlimit⟩ := le_of_withLimit_eq_error h
        exact .inr (.inr (.inr ⟨rfl, by simp, rfl, exists_compileFrom_iff.1 ⟨c, hc⟩, hlimit⟩))

theorem exists_compile_iff : (∃ c, d.compile catalog = .ok c) ↔
    d.tables ≠ [] ∧ d.referenceFaults catalog = [] ∧ (¬ ∃ fault, d.Breaks catalog fault) ∧
      d.limit < 10 ^ Text.maxDigits := by
  constructor
  · rintro ⟨c, hc⟩
    cases hbase : d.tables.head? with
    | none =>
      rw [compile_of_tables_nil (List.head?_eq_none_iff.1 hbase)] at hc
      cases hc
    | some base =>
      obtain ⟨hfaults, hc, hlimit⟩ := (compile_eq_ok_iff hbase).1 hc
      refine ⟨?_, hfaults, exists_compileFrom_iff.1 ⟨c, hc⟩, hlimit⟩
      rintro h
      rw [h] at hbase
      cases hbase
  · rintro ⟨htables, hfaults, hrules, hlimit⟩
    obtain ⟨c, hc⟩ := compile_of_not_breaks htables hfaults hrules
    exact ⟨c, hc.trans (withLimit_eq_ok_iff.2 ⟨hlimit, rfl⟩)⟩

theorem compile_eq_noTable_iff : d.compile catalog = .error .noTable ↔ d.tables = [] := by
  refine ⟨fun h => ?_, compile_of_tables_nil⟩
  rcases compile_eq_error_cases h with ⟨_, h⟩ | ⟨_, h, _⟩ | ⟨_, h, _⟩ | ⟨h, _⟩
  · exact h
  all_goals cases h

theorem compile_eq_reference_iff {fault : ReferenceFault} :
    d.compile catalog = .error (.reference fault) ↔
      d.tables ≠ [] ∧ (d.referenceFaults catalog).head? = some fault := by
  constructor
  · intro h
    rcases compile_eq_error_cases h with ⟨h, _⟩ | ⟨f, h, hfault⟩ | ⟨_, h, _⟩ | ⟨h, _⟩ <;> cases h
    exact hfault
  · rintro ⟨htables, hhead⟩
    obtain ⟨faults, hfaults⟩ := List.head?_eq_some_iff.1 hhead
    exact compile_of_referenceFaults_cons htables hfaults

theorem parts_of_compile_eq_rule {fault : RuleFault} (h : d.compile catalog = .error (.rule fault)) :
    d.tables ≠ [] ∧ d.referenceFaults catalog = [] ∧ d.Breaks catalog fault := by
  rcases compile_eq_error_cases h with ⟨h, _⟩ | ⟨_, h, _⟩ | ⟨f, h, hparts⟩ | ⟨h, _⟩ <;> cases h
  exact hparts

theorem exists_rule_iff : (∃ fault, d.compile catalog = .error (.rule fault)) ↔
    d.tables ≠ [] ∧ d.referenceFaults catalog = [] ∧ ∃ fault, d.Breaks catalog fault := by
  constructor
  · rintro ⟨fault, h⟩
    obtain ⟨htables, hfaults, hbreaks⟩ := parts_of_compile_eq_rule h
    exact ⟨htables, hfaults, fault, hbreaks⟩
  · rintro ⟨htables, hfaults, hbreaks⟩
    obtain ⟨base, ts, hcons⟩ := List.exists_cons_of_ne_nil htables
    cases hc : d.compileFrom catalog base with
    | ok c => exact absurd hbreaks (exists_compileFrom_iff.1 ⟨c, hc⟩)
    | error fault => exact ⟨fault, by rw [compile_of_valid hcons hfaults, hc]; rfl⟩

theorem compile_ne_formula (fault : FormulaFault) : d.compile catalog ≠ .error (.formula fault) := by
  intro h
  rcases compile_eq_error_cases h with ⟨h, _⟩ | ⟨_, h, _⟩ | ⟨_, h, _⟩ | ⟨h, _⟩ <;> cases h

theorem compile_eq_longLimit_iff : d.compile catalog = .error .longLimit ↔
    d.tables ≠ [] ∧ d.referenceFaults catalog = [] ∧ (¬ ∃ fault, d.Breaks catalog fault) ∧
      10 ^ Text.maxDigits ≤ d.limit := by
  constructor
  · intro h
    rcases compile_eq_error_cases h with ⟨h, _⟩ | ⟨_, h, _⟩ | ⟨_, h, _⟩ | ⟨_, hparts⟩
    iterate 3 cases h
    exact hparts
  · rintro ⟨htables, hfaults, hrules, hlimit⟩
    obtain ⟨c, hc⟩ := compile_of_not_breaks htables hfaults hrules
    exact hc.trans (withLimit_of_le hlimit)

/-- Only a limit that is too long leaves nothing to show. -/
theorem exists_tryPreview_iff {mark : String} : (∃ text, d.tryPreview catalog mark = .ok text) ↔
    d.compile catalog ≠ .error .longLimit := by
  unfold tryPreview
  split <;> simp_all

theorem generate_eq_ok_iff {c : Compiled} : d.generate catalog = .ok c ↔
    d.compile catalog = .ok c ∧ 0 < d.limit := by
  unfold generate
  cases d.compile catalog with
  | error fault => simp [bind, Except.bind]
  | ok c' =>
    by_cases hlimit : d.limit ≤ 0
    · simp [bind, Except.bind, hlimit, throw, throwThe, MonadExceptOf.throw]
    · simpa [bind, Except.bind, hlimit, pure, Except.pure] using fun _ => by omega

/-- A draft has a query or one fault: that no table is selected, else the first dangling reference,
else a rule that it breaks, else that its limit is too long to be written. No step of the compilation
slips. A preview has a text in every case but the last, and a query is generated if there is one and
the limit is positive. -/
theorem compile_outcome (catalog : Catalog) (d : Draft) (mark : String) :
    d.compileChecked catalog = .ok (d.compile catalog) ∧
    (d.compile catalog = .error .noTable ↔ d.tables = []) ∧
    (∀ fault, d.compile catalog = .error (.reference fault) ↔
      d.tables ≠ [] ∧ (d.referenceFaults catalog).head? = some fault) ∧
    ((∃ fault, d.compile catalog = .error (.rule fault)) ↔
      d.tables ≠ [] ∧ d.referenceFaults catalog = [] ∧ ∃ fault, d.Breaks catalog fault) ∧
    (∀ fault, d.compile catalog = .error (.rule fault) → d.Breaks catalog fault) ∧
    (∀ fault, d.compile catalog ≠ .error (.formula fault)) ∧
    (d.compile catalog = .error .longLimit ↔
      d.tables ≠ [] ∧ d.referenceFaults catalog = [] ∧ (¬ ∃ fault, d.Breaks catalog fault) ∧
        10 ^ Text.maxDigits ≤ d.limit) ∧
    ((∃ c, d.compile catalog = .ok c) ↔
      d.tables ≠ [] ∧ d.referenceFaults catalog = [] ∧ (¬ ∃ fault, d.Breaks catalog fault) ∧
        d.limit < 10 ^ Text.maxDigits) ∧
    d.previewChecked catalog mark = .ok (d.tryPreview catalog mark) ∧
    ((∃ text, d.tryPreview catalog mark = .ok text) ↔ d.compile catalog ≠ .error .longLimit) ∧
    ∀ c, d.generate catalog = .ok c ↔ d.compile catalog = .ok c ∧ 0 < d.limit := by
  exact ⟨compileChecked_eq catalog d, compile_eq_noTable_iff, fun _ => compile_eq_reference_iff,
    exists_rule_iff, fun _ h => (parts_of_compile_eq_rule h).2.2, compile_ne_formula,
    compile_eq_longLimit_iff, exists_compile_iff, previewChecked_eq catalog d mark,
    exists_tryPreview_iff, fun _ => generate_eq_ok_iff⟩

end Draft

namespace Sample

/-- The users, with a limit that is one digit too long. -/
def longUsers : Draft := { tables := [⟨"public", "users"⟩], limit := 10 ^ Text.maxDigits }

theorem referenceFaults_longUsers : longUsers.referenceFaults .shop = [] := by decide

theorem not_breaks_longUsers : ¬ ∃ fault, longUsers.Breaks .shop fault := by
  rintro ⟨_, ⟨hf, _⟩ | ⟨hname⟩ | ⟨hgrouped, _, _⟩ | ⟨hf, _, _⟩⟩
  · cases hf
  · simp [longUsers] at hname
  · cases hgrouped
  · cases hf

theorem compile_longUsers : longUsers.compile .shop = .error .longLimit :=
  Draft.compile_eq_longLimit_iff.2
    ⟨List.cons_ne_nil _ _, referenceFaults_longUsers, not_breaks_longUsers, le_rfl⟩

/-- The references of this draft are in order and it breaks no rule, but it has neither a query nor a
preview. -/
theorem compile_outcome_longUsers :
    longUsers.tables ≠ [] ∧ longUsers.referenceFaults .shop = [] ∧
      (¬ ∃ fault, longUsers.Breaks .shop fault) ∧
      (¬ ∃ c, longUsers.compile .shop = .ok c) ∧
      longUsers.compile .shop = .error .longLimit ∧
      ¬ ∃ text, longUsers.tryPreview .shop "--" = .ok text := by
  refine ⟨List.cons_ne_nil _ _, referenceFaults_longUsers, not_breaks_longUsers, ?_, compile_longUsers,
    fun h => Draft.exists_tryPreview_iff.1 h compile_longUsers⟩
  rintro ⟨c, hc⟩
  rw [compile_longUsers] at hc
  cases hc

end Sample

end QueryDraft
