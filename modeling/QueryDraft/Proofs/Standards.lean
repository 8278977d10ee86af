import Mathlib
import QueryDraft.Proofs.Fragments

/-!
# Standards for the parts of a draft

A `Standard` says for each kind of part what one must be like. A draft that meets it still does
after an edit that brings in nothing that falls short (`Draft.Meets.run`).
-/

namespace QueryDraft

structure Standard where
  table : TableId → Prop
  /-- For selected columns and for those that are grouped by. -/
  column : ColumnId → Prop
  join : Join → Prop
  filter : Filter → Prop
  sort : SortKey → Prop
  formula : Formula → Prop

/-- What an edit brings in is up to the standard; `fresh` is the id of what comes without one. -/
def Standard.Admits (S : Standard) (fresh : String) : Edit → Prop
  | .addTable t | .toggleTable t => S.table t
  | .toggleColumn c | .setAggregate c _ => S.table c.table ∧ S.column c
  | .selectColumns t names => S.table t ∧ ∀ name ∈ names, S.column (t.column name)
  | .addJoin j => S.join j
  | .updateJoin id changes => ∀ j k, S.join j →
      Join.ofEntries id (Draft.changed j.plainEntries changes id) = .value k → S.join k
  | .addFilter f => S.filter { f with id := Draft.idOr fresh f.id }
  | .updateFilter id changes => ∀ f g, S.filter f →
      Filter.ofEntries id (Draft.changed f.entries changes id) = .value g → g.id = f.id → S.filter g
  | .toggleGroupBy c => S.column c
  | .addSort s => S.sort { s with id := Draft.idOr fresh s.id }
  | .updateSort id changes => ∀ s r, S.sort s →
      SortKey.ofEntries id (Draft.changed s.entries changes id) = .value r → r.id = s.id → S.sort r
  | .addFormula f => S.formula
      ⟨Draft.idOr fresh f.id, Text.sanitizeAlias f.name, Text.strip f.expression⟩
  | .applyFragment .. | .applyStarter .. => False
  | _ => True

namespace Draft

variable {S : Standard} {d d' : Draft}

structure Meets (S : Standard) (d : Draft) : Prop where
  tables : ∀ t ∈ d.tables, S.table t
  columns : ∀ c ∈ d.columns, S.column c
  joins : ∀ j ∈ d.joins, S.join j
  filters : ∀ f ∈ d.filters, S.filter f
  groupBy : ∀ c ∈ d.groupBy, S.column c
  orderBy : ∀ s ∈ d.orderBy, S.sort s
  formulas : ∀ f ∈ d.formulas, S.formula f

theorem meets_blank (S : Standard) (limit : Int) : (blank limit).Meets S := by
  constructor <;> simp [blank]

namespace Meets

theorem addTable (h : d.Meets S) {t : TableId} (ht : S.table t) : (d.addTable t).Meets S :=
  { h with tables := forall_insertLast h.tables ht }

theorem removeTable (h : d.Meets S) (t : TableId) : (d.removeTable t).Meets S := by
  unfold Draft.removeTable
  split_ifs
  · exact {
      tables := forall_filter h.tables _
      columns := forall_filter h.columns _
      joins := forall_filter h.joins _
      filters := forall_filter h.filters _
      groupBy := forall_filter h.groupBy _
      orderBy := forall_filter h.orderBy _
      formulas := h.formulas }
  · exact h

theorem toggleColumn (h : d.Meets S) {c : ColumnId} (ht : S.table c.table) (hc : S.column c) :
    (d.toggleColumn c).Meets S := by
  unfold Draft.toggleColumn
  split_ifs
  · exact { h with columns := forall_filter h.columns _ }
  · exact { h.addTable ht with columns := forall_append_singleton h.columns hc }

theorem selectColumns (h : d.Meets S) {t : TableId} (ht : S.table t) {names : List String}
    (hnames : ∀ name ∈ names, S.column (t.column name)) : (d.selectColumns t names).Meets S := by
  refine { h.addTable ht with columns := fun c hc => ?_ }
  rcases mem_foldl_insertLast.1 hc with hc | hc
  · exact h.columns c hc
  · obtain ⟨name, hname, rfl⟩ := List.mem_map.1 hc
    exact hnames name hname

theorem setAggregate (h : d.Meets S) {c : ColumnId} (ht : S.table c.table) (hc : S.column c)
    (a : Aggregate) : (d.setAggregate c a).Meets S := by
  unfold Draft.setAggregate
  split_ifs
  · exact { h with }
  · exact { h.addTable ht with columns := forall_insertLast h.columns hc }

theorem addJoin (h : d.Meets S) {j : Join} (hj : S.join j) (hrun : d.addJoin j = .ok d') :
    d'.Meets S := by
  obtain ⟨_, rfl⟩ | ⟨_, _, _, _, rfl⟩ := addJoin_eq_ok_iff.1 hrun
  · exact h
  · exact { h with joins := forall_append_singleton h.joins hj }

theorem toggleGroupBy (h : d.Meets S) {c : ColumnId} (hc : S.column c)
    (hrun : d.toggleGroupBy c = .ok d') : d'.Meets S := by
  obtain ⟨_, rfl⟩ | ⟨_, _, rfl⟩ := toggleGroupBy_eq_ok_iff.1 hrun
  · exact { h with groupBy := forall_filter h.groupBy _ }
  · exact { h with groupBy := forall_append_singleton h.groupBy hc }

theorem run {ids : IdSupply} {e : Edit} (h : d.Meets S) (he : S.Admits ids.id e)
    (hrun : e.run ids d = .ok d') : d'.Meets S := by
  cases e with
  | addTable t => cases hrun; exact h.addTable he
  | removeTable t => cases hrun; exact h.removeTable t
  | toggleTable t =>
    cases hrun
    unfold Draft.toggleTable
    split_ifs
    · exact h.removeTable t
    · exact h.addTable he
  | clear => cases hrun; exact meets_blank S d.limit
  | toggleColumn c => cases hrun; exact h.toggleColumn he.1 he.2
  | selectColumns t names => cases hrun; exact h.selectColumns he.1 he.2
  | deselectColumns t names =>
    cases hrun
    exact { h with columns := forall_filter h.columns _ }
  | setAggregate c a => cases hrun; exact h.setAggregate he.1 he.2 a
  | addJoin j => exact h.addJoin he (mapError_eq_ok_iff.1 hrun)
  | updateJoin id changes =>
    obtain ⟨before, j, after, k, hjoins, _, hread, _, _, _, _, rfl⟩ := exists_of_updateJoin hrun
    exact { h with joins := forall_replaced h.joins hjoins fun hj => he j k hj hread }
  | removeJoin id => cases hrun; exact { h with joins := forall_filter h.joins _ }
  | addFilter f =>
    obtain ⟨_, rfl⟩ := addFilter_eq_ok_iff.1 (mapError_eq_ok_iff.1 hrun)
    exact { h with filters := forall_append_singleton h.filters he }
  | updateFilter id changes =>
    obtain ⟨before, f, after, g, hfilters, hf, hread, hg, _, rfl⟩ := exists_of_updateFilter hrun
    exact { h with
      filters := forall_replaced h.filters hfilters fun hS => he f g hS hread (hg.trans hf.symm) }
  | removeFilter id => cases hrun; exact { h with filters := forall_filter h.filters _ }
  | toggleGroupBy c => exact h.toggleGroupBy he (mapError_eq_ok_iff.1 hrun)
  | addSort s =>
    obtain ⟨_, rfl⟩ := addSort_eq_ok_iff.1 (mapError_eq_ok_iff.1 hrun)
    exact { h with orderBy := forall_append_singleton h.orderBy he }
  | updateSort id changes =>
    obtain ⟨before, s, after, r, hsorts, hs, hread, hr, _, rfl⟩ := exists_of_updateSort hrun
    exact { h with
      orderBy := forall_replaced h.orderBy hsorts fun hS => he s r hS hread (hr.trans hs.symm) }
  | removeSort id => cases hrun; exact { h with orderBy := forall_filter h.orderBy _ }
  | addFormula f =>
    obtain ⟨_, _, rfl⟩ := addFormula_eq_ok_iff.1 (mapError_eq_ok_iff.1 hrun)
    exact { h with formulas := forall_append_singleton h.formulas he }
  | removeFormula id => cases hrun; exact { h with formulas := forall_filter h.formulas _ }
  | setLimit limit => cases hrun; exact { h with }
  | applyFragment fragment catalog? => exact he.elim
  | applyStarter starter catalog? => exact he.elim

end Meets

/-- A fragment makes a draft that meets a standard if whatever its replay may bring in does. -/
theorem meets_of_applyFragment {catalog? : Option Catalog} {fragment : List (String × Json)}
    {ids : IdSupply} {r : Replay} (h : d.applyFragment fragment catalog? ids = .ok r)
    (hadmits : ∀ e, Replays catalog? (Entries.putAll d.entries fragment) e →
      ∀ path, S.Admits (ids.label path) e) : r.draft.Meets S := by
  refine applyFragment_keeps h (meets_blank S d.limit) fun e he path d₁ d₂ hd hrun => ?_
  have hlabel : (ids.below path).id = ids.label path := by simp [IdSupply.below, IdSupply.id]
  exact hd.run (hlabel ▸ hadmits e he path) hrun

end Draft

end QueryDraft
