import Mathlib
import QueryDraft.Draft.Check
import QueryDraft.Proofs.Fragments
import QueryDraft.Proofs.SanitizedAlias

/-!
# Coherent drafts

`Draft.Coherent`: whatever a draft refers to is selected, and nothing is there twice. Every edit
keeps a draft coherent, a fragment or starter because it is applied by edits, so every run of edits
from a blank draft does (`coherent_after`).
-/

namespace QueryDraft

/-- A formula as it is kept: a name without blanks, and an expression that is not blank and whose
parentheses balance. -/
structure Formula.IsSound (f : Formula) : Prop where
  name_ne : f.name ≠ ""
  unbroken : ∀ c ∈ f.name.toList, Text.isBlank c = false
  expressed : Text.isBlankText f.expression = false
  balanced : f.expression.toList.count '(' = f.expression.toList.count ')'

theorem Formula.isSound_of_formulaFault? {f : Formula} (id : String)
    (h : Draft.formulaFault? f.name f.expression = none) :
    IsSound ⟨id, Text.sanitizeAlias f.name, Text.strip f.expression⟩ := by
  obtain ⟨hname, hexpression, hcount⟩ := Draft.formulaFault?_eq_none_iff.1 h
  refine ⟨Text.sanitizeAlias_ne_empty hname, fun c hc => Text.isBlank_of_mem_sanitizeAlias hc, ?_, ?_⟩
  · show Text.isBlankText (Text.strip f.expression) = false
    rw [Text.isBlankText_strip, hexpression]
  · show (Text.strip f.expression).toList.count '(' = (Text.strip f.expression).toList.count ')'
    rw [Text.count_strip (by decide), Text.count_strip (by decide), hcount]

theorem Entries.mem_of_mem_put {κ ν : Type} [DecidableEq κ] {es : List (κ × ν)} {k : κ} {v : ν}
    {e : κ × ν} (h : e ∈ put es k v) : e ∈ es ∨ e = (k, v) := by
  induction es with
  | nil => exact .inr (List.mem_singleton.1 h)
  | cons e' es ih =>
    rw [put] at h
    split_ifs at h
    · rcases List.mem_cons.1 h with h | h
      · exact .inr h
      · exact .inl (List.mem_cons_of_mem _ h)
    · rcases List.mem_cons.1 h with h | h
      · exact .inl (h ▸ List.mem_cons_self ..)
      · exact (ih h).imp_left (List.mem_cons_of_mem _)

theorem Entries.forall_mem_putAll {κ ν : Type} [DecidableEq κ] {p : κ × ν → Prop}
    {es more : List (κ × ν)} (hes : ∀ e ∈ es, p e) (hmore : ∀ e ∈ more, p e) :
    ∀ e ∈ putAll es more, p e := by
  induction more generalizing es with
  | nil => exact hes
  | cons e more ih =>
    rw [List.forall_mem_cons] at hmore
    refine ih (fun e' he' => ?_) hmore.2
    rcases mem_of_mem_put he' with he' | rfl
    · exact hes e' he'
    · exact hmore.1

namespace OrderedMap

variable {κ ν : Type} {m : OrderedMap κ ν} {k : κ}

theorem mem_keys_filterKeys {p : κ → Bool} : k ∈ (m.filterKeys p).keys ↔ k ∈ m.keys ∧ p k = true := by
  simp only [keys, filterKeys, List.mem_map, List.mem_filter]
  constructor
  · rintro ⟨e, ⟨he, hp⟩, rfl⟩
    exact ⟨⟨e, he, rfl⟩, hp⟩
  · rintro ⟨⟨e, he, rfl⟩, hp⟩
    exact ⟨e, ⟨he, hp⟩, rfl⟩

variable [DecidableEq κ]

theorem mem_keys_insert {k' : κ} {v : ν} : k' ∈ (m.insert k v).keys ↔ k' ∈ m.keys ∨ k' = k := by
  show k' ∈ (Entries.put m.entries k v).map Prod.fst ↔ _
  rw [Entries.keys_put]
  split_ifs with h
  · exact ⟨.inl, fun h' => h'.elim id (· ▸ h)⟩
  · simp [keys]

end OrderedMap

namespace Draft

structure Coherent (d : Draft) : Prop where
  nodup_tables : d.tables.Nodup
  nodup_columns : d.columns.Nodup
  nodup_groupBy : d.groupBy.Nodup
  columns : ∀ c ∈ d.columns, c.table ∈ d.tables
  aggregated : ∀ c ∈ d.aggregations.keys, c ∈ d.columns
  aggregates : ∀ e ∈ d.aggregations.entries, e.2 ≠ .none
  joins : ∀ j ∈ d.joins, j.source.table ∈ d.tables ∧ j.target.table ∈ d.tables
  noLoops : ∀ j ∈ d.joins, j.source.table ≠ j.target.table
  nodup_joins : (d.joins.map Join.id).Nodup
  filters : ∀ f ∈ d.filters, f.column.table ∈ d.tables
  groupBy : ∀ c ∈ d.groupBy, c.table ∈ d.tables
  orderBy : ∀ s ∈ d.orderBy, s.column.table ∈ d.tables
  nodup_names : (d.formulas.map Formula.name).Nodup
  formulas : ∀ f ∈ d.formulas, f.IsSound

theorem coherent_blank (limit : Int) : (blank limit).Coherent where
  nodup_tables := .nil
  nodup_columns := .nil
  nodup_groupBy := .nil
  columns := by simp [blank]
  aggregated := by simp [blank, OrderedMap.keys, EmptyCollection.emptyCollection]
  aggregates := by simp [blank, EmptyCollection.emptyCollection]
  joins := by simp [blank]
  noLoops := by simp [blank]
  nodup_joins := .nil
  filters := by simp [blank]
  groupBy := by simp [blank]
  orderBy := by simp [blank]
  nodup_names := .nil
  formulas := by simp [blank]

namespace Coherent

variable {d d' : Draft}

/-! ### Tables -/

theorem addTable (h : d.Coherent) (t : TableId) : (d.addTable t).Coherent := by
  have hmem : ∀ {u}, u ∈ d.tables → u ∈ insertLast d.tables t := fun hu => mem_insertLast.2 (.inl hu)
  exact { h with
    nodup_tables := nodup_insertLast h.nodup_tables t
    columns := fun c hc => hmem (h.columns c hc)
    joins := fun j hj => ⟨hmem (h.joins j hj).1, hmem (h.joins j hj).2⟩
    filters := fun f hf => hmem (h.filters f hf)
    groupBy := fun c hc => hmem (h.groupBy c hc)
    orderBy := fun s hs => hmem (h.orderBy s hs) }

theorem removeTable (h : d.Coherent) (t : TableId) : (d.removeTable t).Coherent := by
  have hmem : ∀ {u}, u ∈ d.tables → u ≠ t → u ∈ d.tables.filter (· ≠ t) :=
    fun hu hne => List.mem_filter.2 ⟨hu, by simpa using hne⟩
  unfold Draft.removeTable
  split_ifs with ht
  · refine {
      nodup_tables := h.nodup_tables.filter _
      nodup_columns := h.nodup_columns.filter _
      nodup_groupBy := h.nodup_groupBy.filter _
      columns := fun c hc => ?_
      aggregated := fun c hc => ?_
      aggregates := forall_filter h.aggregates _
      joins := fun j hj => ?_
      noLoops := forall_filter h.noLoops _
      nodup_joins := h.nodup_joins.sublist (List.filter_sublist.map _)
      filters := fun f hf => ?_
      groupBy := fun c hc => ?_
      orderBy := fun s hs => ?_
      nodup_names := h.nodup_names
      formulas := h.formulas }
    · obtain ⟨hc, hne⟩ := List.mem_filter.1 hc
      exact hmem (h.columns c hc) (by simpa using hne)
    · obtain ⟨hc, hne⟩ := OrderedMap.mem_keys_filterKeys.1 hc
      exact List.mem_filter.2 ⟨h.aggregated c hc, hne⟩
    · obtain ⟨hj, hne⟩ := List.mem_filter.1 hj
      simp only [Join.mentions, Bool.not_or, Bool.and_eq_true, Bool.not_eq_true',
        decide_eq_false_iff_not] at hne
      exact ⟨hmem (h.joins j hj).1 hne.1, hmem (h.joins j hj).2 hne.2⟩
    · obtain ⟨hf, hne⟩ := List.mem_filter.1 hf
      exact hmem (h.filters f hf) (by simpa using hne)
    · obtain ⟨hc, hne⟩ := List.mem_filter.1 hc
      exact hmem (h.groupBy c hc) (by simpa using hne)
    · obtain ⟨hs, hne⟩ := List.mem_filter.1 hs
      exact hmem (h.orderBy s hs) (by simpa using hne)
  · exact h

theorem toggleTable (h : d.Coherent) (t : TableId) : (d.toggleTable t).Coherent := by
  unfold Draft.toggleTable
  split_ifs
  · exact h.removeTable t
  · exact h.addTable t

/-! ### Columns and aggregates -/

theorem insertColumn (h : d.Coherent) {c : ColumnId} (hc : c.table ∈ d.tables) :
    Coherent { d with columns := insertLast d.columns c } :=
  { h with
    nodup_columns := nodup_insertLast h.nodup_columns c
    columns := forall_insertLast h.columns hc
    aggregated := fun c' hc' => mem_insertLast.2 (.inl (h.aggregated c' hc')) }

theorem filterColumns (h : d.Coherent) (p : ColumnId → Bool) :
    Coherent { d with columns := d.columns.filter p, aggregations := d.aggregations.filterKeys p } :=
  { h with
    nodup_columns := h.nodup_columns.filter _
    columns := forall_filter h.columns _
    aggregated := fun c hc => by
      obtain ⟨hc, hp⟩ := OrderedMap.mem_keys_filterKeys.1 hc
      exact List.mem_filter.2 ⟨h.aggregated c hc, hp⟩
    aggregates := forall_filter h.aggregates _ }

theorem mem_tables_addTable (d : Draft) (t : TableId) : t ∈ (d.addTable t).tables :=
  mem_insertLast.2 (.inr rfl)

theorem toggleColumn (h : d.Coherent) (c : ColumnId) : (d.toggleColumn c).Coherent := by
  unfold Draft.toggleColumn
  split_ifs with hc
  · exact h.filterColumns (· ≠ c)
  · have hinsert : insertLast d.columns c = d.columns ++ [c] := if_neg hc
    have := (h.addTable c.table).insertColumn (mem_tables_addTable d c.table)
    rwa [show (d.addTable c.table).columns = d.columns from rfl, hinsert] at this

theorem insertColumns (h : d.Coherent) {cs : List ColumnId} (hcs : ∀ c ∈ cs, c.table ∈ d.tables) :
    Coherent { d with columns := cs.foldl insertLast d.columns } := by
  induction cs generalizing d with
  | nil => exact h
  | cons c cs ih =>
    rw [List.forall_mem_cons] at hcs
    exact ih (h.insertColumn hcs.1) hcs.2

theorem selectColumns (h : d.Coherent) (t : TableId) (names : List String) :
    (d.selectColumns t names).Coherent := by
  refine (h.addTable t).insertColumns fun c hc => ?_
  obtain ⟨n, _, rfl⟩ := List.mem_map.1 hc
  exact mem_tables_addTable d t

theorem deselectColumns (h : d.Coherent) (t : TableId) (names : List String) :
    (d.deselectColumns t names).Coherent := h.filterColumns _

theorem setAggregate (h : d.Coherent) (c : ColumnId) (a : Aggregate) :
    (d.setAggregate c a).Coherent := by
  unfold Draft.setAggregate
  split_ifs with ha
  · exact { h with
      aggregated := fun c' hc' => h.aggregated c' (OrderedMap.mem_keys_filterKeys.1 hc').1
      aggregates := forall_filter h.aggregates _ }
  · have hd := (h.addTable c.table).insertColumn (mem_tables_addTable d c.table)
    exact { hd with
      aggregated := fun c' hc' => by
        rcases OrderedMap.mem_keys_insert.1 hc' with hc' | rfl
        · exact hd.aggregated c' hc'
        · exact mem_insertLast.2 (.inr rfl)
      aggregates := fun e he => by
        rcases Entries.mem_of_mem_put he with he | rfl
        · exact h.aggregates e he
        · exact ha }

/-! ### Joins, filters, groupings and sort keys -/

theorem addJoin (h : d.Coherent) {j : Join} (hrun : d.addJoin j = .ok d') : d'.Coherent := by
  obtain ⟨_, rfl⟩ | ⟨hid, hne, hs, ht, rfl⟩ := addJoin_eq_ok_iff.1 hrun
  · exact h
  · exact { h with
      joins := forall_append_singleton h.joins ⟨hs, ht⟩
      noLoops := forall_append_singleton h.noLoops hne
      nodup_joins := by
        show ((d.joins ++ [j]).map Join.id).Nodup
        rw [List.map_append]
        exact nodup_append_singleton h.nodup_joins hid }

theorem updateJoin (h : d.Coherent) {id : String} {changes : List (String × Json)}
    (hrun : d.updateJoin id changes = .ok d') : d'.Coherent := by
  obtain ⟨before, j, after, k, hjoins, hj, _, hk, hne, hs, ht, rfl⟩ := exists_of_updateJoin hrun
  exact { h with
    joins := forall_replaced h.joins hjoins fun _ => ⟨hs, ht⟩
    noLoops := forall_replaced h.noLoops hjoins fun _ => hne
    nodup_joins := by
      have hids : (before ++ k :: after).map Join.id = d.joins.map Join.id := by simp [hjoins, hj, hk]
      exact hids ▸ h.nodup_joins }

theorem removeJoin (h : d.Coherent) (id : String) : (d.removeJoin id).Coherent :=
  { h with
    joins := forall_filter h.joins _
    noLoops := forall_filter h.noLoops _
    nodup_joins := h.nodup_joins.sublist (List.filter_sublist.map _) }

theorem addFilter (h : d.Coherent) {f : Filter} (hrun : d.addFilter f = .ok d') : d'.Coherent := by
  obtain ⟨ht, rfl⟩ := addFilter_eq_ok_iff.1 hrun
  exact { h with filters := forall_append_singleton h.filters ht }

theorem updateFilter (h : d.Coherent) {id : String} {changes : List (String × Json)}
    (hrun : d.updateFilter id changes = .ok d') : d'.Coherent := by
  obtain ⟨before, f, after, g, hfilters, _, _, _, ht, rfl⟩ := exists_of_updateFilter hrun
  exact { h with filters := forall_replaced h.filters hfilters fun _ => ht }

theorem removeFilter (h : d.Coherent) (id : String) : (d.removeFilter id).Coherent :=
  { h with filters := forall_filter h.filters _ }

theorem addSort (h : d.Coherent) {s : SortKey} (hrun : d.addSort s = .ok d') : d'.Coherent := by
  obtain ⟨ht, rfl⟩ := addSort_eq_ok_iff.1 hrun
  exact { h with orderBy := forall_append_singleton h.orderBy ht }

theorem updateSort (h : d.Coherent) {id : String} {changes : List (String × Json)}
    (hrun : d.updateSort id changes = .ok d') : d'.Coherent := by
  obtain ⟨before, s, after, r, hsorts, _, _, _, ht, rfl⟩ := exists_of_updateSort hrun
  exact { h with orderBy := forall_replaced h.orderBy hsorts fun _ => ht }

theorem removeSort (h : d.Coherent) (id : String) : (d.removeSort id).Coherent :=
  { h with orderBy := forall_filter h.orderBy _ }

theorem toggleGroupBy (h : d.Coherent) {c : ColumnId} (hrun : d.toggleGroupBy c = .ok d') :
    d'.Coherent := by
  obtain ⟨_, rfl⟩ | ⟨hc, ht, rfl⟩ := toggleGroupBy_eq_ok_iff.1 hrun
  · exact { h with
      nodup_groupBy := h.nodup_groupBy.filter _
      groupBy := forall_filter h.groupBy _ }
  · exact { h with
      nodup_groupBy := nodup_append_singleton h.nodup_groupBy hc
      groupBy := forall_append_singleton h.groupBy ht }

/-! ### Formulas -/

theorem addFormula (h : d.Coherent) {f : Formula} (hrun : d.addFormula f = .ok d') :
    d'.Coherent := by
  obtain ⟨hfault, hname, rfl⟩ := addFormula_eq_ok_iff.1 hrun
  exact { h with
    nodup_names := by
      rw [List.map_append]
      exact nodup_append_singleton h.nodup_names hname
    formulas := forall_append_singleton h.formulas (Formula.isSound_of_formulaFault? f.id hfault) }

theorem removeFormula (h : d.Coherent) (id : String) : (d.removeFormula id).Coherent :=
  { h with
    nodup_names := h.nodup_names.sublist (List.filter_sublist.map _)
    formulas := forall_filter h.formulas _ }

end Coherent

end Draft

/-! ### Runs -/

/-- An edit of one part, as opposed to a fragment or starter. -/
def Edit.IsSingle : Edit → Prop
  | applyFragment .. | applyStarter .. => False
  | _ => True

namespace Draft

variable {ids : IdSupply} {d d' : Draft} {e : Edit} {catalog? : Option Catalog}

theorem isSingle_of_replays {es : List (String × Json)} (h : Replays catalog? es e) :
    e.IsSingle := by
  cases h <;> trivial

theorem coherent_of_isSingle (he : e.IsSingle) (h : d.Coherent) (hrun : e.run ids d = .ok d') :
    d'.Coherent := by
  cases e with
  | addTable t => cases hrun; exact h.addTable t
  | removeTable t => cases hrun; exact h.removeTable t
  | toggleTable t => cases hrun; exact h.toggleTable t
  | clear => cases hrun; exact coherent_blank d.limit
  | toggleColumn c => cases hrun; exact h.toggleColumn c
  | selectColumns t names => cases hrun; exact h.selectColumns t names
  | deselectColumns t names => cases hrun; exact h.deselectColumns t names
  | setAggregate c a => cases hrun; exact h.setAggregate c a
  | addJoin j => exact h.addJoin (mapError_eq_ok_iff.1 hrun)
  | updateJoin id changes => exact h.updateJoin hrun
  | removeJoin id => cases hrun; exact h.removeJoin id
  | addFilter f => exact h.addFilter (mapError_eq_ok_iff.1 hrun)
  | updateFilter id changes => exact h.updateFilter hrun
  | removeFilter id => cases hrun; exact h.removeFilter id
  | toggleGroupBy c => exact h.toggleGroupBy (mapError_eq_ok_iff.1 hrun)
  | addSort s => exact h.addSort (mapError_eq_ok_iff.1 hrun)
  | updateSort id changes => exact h.updateSort hrun
  | removeSort id => cases hrun; exact h.removeSort id
  | addFormula f => exact h.addFormula (mapError_eq_ok_iff.1 hrun)
  | removeFormula id => cases hrun; exact h.removeFormula id
  | setLimit limit => cases hrun; exact { h with }
  | applyFragment fragment catalog? => exact he.elim
  | applyStarter starter catalog? => exact he.elim

/-- What a fragment makes is coherent, whatever it was applied to. -/
theorem coherent_of_applyFragment {fragment : List (String × Json)} {r : Replay}
    (h : d.applyFragment fragment catalog? ids = .ok r) : r.draft.Coherent :=
  applyFragment_keeps h (coherent_blank d.limit)
    fun _ he _ _ _ hd hrun => coherent_of_isSingle (isSingle_of_replays he) hd hrun

theorem coherent_of_run (h : d.Coherent) (hrun : e.run ids d = .ok d') : d'.Coherent := by
  cases e with
  | applyFragment fragment catalog? =>
    obtain ⟨r, hr, rfl⟩ := map_eq_ok_iff.1 hrun
    exact coherent_of_applyFragment hr
  | applyStarter starter catalog? =>
    obtain ⟨r, hr, rfl⟩ := map_eq_ok_iff.1 hrun
    exact coherent_of_applyFragment hr
  | _ => exact coherent_of_isSingle (by trivial) h hrun

theorem coherent_after (i : Nat) (h : d.Coherent) (es : List Edit) : (after ids i d es).Coherent :=
  after_keeps (fun _ _ _ _ _ hd hrun => coherent_of_run hd hrun) i h

/-- What a coherent draft refers to is at worst unknown to a catalog. -/
theorem Coherent.unknown_of_mem_referenceFaults (h : d.Coherent) {catalog : Catalog}
    {fault : ReferenceFault} (hfault : fault ∈ d.referenceFaults catalog) :
    (∃ t name, fault = .unknownTable t name) ∨ ∃ role c, fault = .unknownColumn role c := by
  have hcolumn : ∀ {role c}, c.table ∈ d.tables → fault ∈ d.columnFaults catalog role c →
      fault = .unknownColumn role c := by
    intro role c hc hmem
    rw [columnFaults, if_pos hc] at hmem
    split at hmem
    · cases hmem
    · split_ifs at hmem
      · cases hmem
      · exact List.mem_singleton.1 hmem
  simp only [referenceFaults, List.mem_append, List.mem_flatMap] at hfault
  rcases hfault with (((((hfault | ⟨c, hc, hfault⟩) | ⟨c, hc, hfault⟩) | ⟨f, hf, hfault⟩) |
    ⟨c, hc, hfault⟩) | ⟨s, hs, hfault⟩) | ⟨j, hj, hfault⟩
  · obtain ⟨t, _, rfl⟩ := List.mem_map.1 hfault
    exact .inl ⟨t, catalog.name, rfl⟩
  · exact .inr ⟨_, _, hcolumn (h.columns c hc) hfault⟩
  · exact .inr ⟨_, _, hcolumn (h.columns c (h.aggregated c hc)) hfault⟩
  · exact .inr ⟨_, _, hcolumn (h.filters f hf) hfault⟩
  · exact .inr ⟨_, _, hcolumn (h.groupBy c hc) hfault⟩
  · exact .inr ⟨_, _, hcolumn (h.orderBy s hs) hfault⟩
  · rw [joinFaults, if_neg (h.noLoops j hj), List.mem_append] at hfault
    rcases hfault with hfault | hfault
    · exact .inr ⟨_, _, hcolumn (h.joins j hj).1 hfault⟩
    · exact .inr ⟨_, _, hcolumn (h.joins j hj).2 hfault⟩

/-- Whatever is done to a blank draft, everything the draft refers to is selected, nothing is there
twice, and its formulas can be used. So the check of its references against a catalog finds neither
a column whose table is not selected nor a join of a table to itself. -/
theorem after_blank_coherent (ids : IdSupply) (limit : Int) (es : List Edit) :
    (after ids 0 (blank limit) es).Coherent ∧
      (∀ c ∈ (after ids 0 (blank limit) es).aggregations.keys,
        c.table ∈ (after ids 0 (blank limit) es).tables) ∧
      ∀ catalog, ∀ fault ∈ (after ids 0 (blank limit) es).referenceFaults catalog,
        (∃ t name, fault = .unknownTable t name) ∨ ∃ role c, fault = .unknownColumn role c := by
  have h : (after ids 0 (blank limit) es).Coherent := coherent_after 0 (coherent_blank limit) es
  refine ⟨h, fun c hc => h.columns c (h.aggregated c hc), fun catalog fault hfault => ?_⟩
  exact h.unknown_of_mem_referenceFaults hfault

end Draft

end QueryDraft
