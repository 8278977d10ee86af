import Mathlib
import QueryDraft.Proofs.Coherent

/-!
# Removing a table

`Draft.without d t` leaves out every part of a draft that is about a table; removing a selected table
does this, and removing another does nothing. What is left is what was there before and is not about
the table (`spared_without`), and tables are removed in any order (`removeTable_comm`). Nothing in a
coherent draft is about a table that is not selected, so adding and removing such a table changes
nothing (`removeTable_addTable`).
-/

namespace QueryDraft

/-! ### Lists without what is about a table -/

section lists

variable {α : Type} {tablesOf : α → List TableId} {t : TableId} {old new : List α}

theorem filter_eq_self_of_not_mem {p : α → Bool} (hp : ∀ a, p a = true ↔ t ∉ tablesOf a)
    (ht : t ∉ old.flatMap tablesOf) : old.filter p = old :=
  List.filter_eq_self.2 fun a ha => (hp a).2 fun hmem => ht (List.mem_flatMap.2 ⟨a, ha, hmem⟩)

variable [DecidableEq α]

/-- `new` has the values of `old` that are not about `t`, each as often, in the same order. -/
structure Spares (tablesOf : α → List TableId) (t : TableId) (old new : List α) : Prop where
  sublist : new.Sublist old
  count : ∀ a, new.count a = if t ∈ tablesOf a then 0 else old.count a

theorem spares_filter {p : α → Bool} (hp : ∀ a, p a = true ↔ t ∉ tablesOf a) (old : List α) :
    Spares tablesOf t old (old.filter p) where
  sublist := List.filter_sublist
  count a := by
    split_ifs with ht
    · exact List.count_eq_zero.2 fun ha => (hp a).1 (List.mem_filter.1 ha).2 ht
    · exact List.count_filter ((hp a).2 ht)

theorem Spares.not_mem (h : Spares tablesOf t old new) : t ∉ new.flatMap tablesOf := by
  intro ht
  obtain ⟨a, ha, ht⟩ := List.mem_flatMap.1 ht
  have hpos := List.count_pos_iff.2 ha
  rw [h.count, if_pos ht] at hpos
  exact absurd hpos (Nat.lt_irrefl 0)

end lists

theorem OrderedMap.filterKeys_comm {κ ν : Type} (m : OrderedMap κ ν) (p q : κ → Bool) :
    (m.filterKeys p).filterKeys q = (m.filterKeys q).filterKeys p :=
  OrderedMap.ext (List.filter_comm ..)

/-- The tables that a join connects. -/
def Join.tables (j : Join) : List TableId := [j.source.table, j.target.table]

theorem Join.not_mentions_iff {j : Join} {t : TableId} :
    (!j.mentions t) = true ↔ t ∉ j.tables := by
  simp [Join.mentions, Join.tables, @eq_comm _ t]

theorem ne_iff_not_mem_singleton {t u : TableId} : decide (u ≠ t) = true ↔ t ∉ [u] := by
  simp [@eq_comm _ t]

namespace Draft

variable {d : Draft} {t u : TableId}

/-- The draft without what is about a table. -/
def without (d : Draft) (t : TableId) : Draft :=
  { d with
    tables := d.tables.filter (· ≠ t)
    columns := d.columns.filter (·.table ≠ t)
    aggregations := d.aggregations.filterKeys (·.table ≠ t)
    joins := d.joins.filter (!·.mentions t)
    filters := d.filters.filter (·.column.table ≠ t)
    groupBy := d.groupBy.filter (·.table ≠ t)
    orderBy := d.orderBy.filter (·.column.table ≠ t) }

theorem removeTable_of_mem (ht : t ∈ d.tables) : d.removeTable t = d.without t := if_pos ht

theorem removeTable_of_not_mem (ht : t ∉ d.tables) : d.removeTable t = d := if_neg ht

theorem mem_tables_without : u ∈ (d.without t).tables ↔ u ∈ d.tables ∧ u ≠ t := by
  simp [without]

/-- `d'` is `d` without what is about the table: every section keeps the rest as it is. -/
structure Spared (t : TableId) (d d' : Draft) : Prop where
  tables : Spares (fun u => [u]) t d.tables d'.tables
  columns : Spares (fun c => [c.table]) t d.columns d'.columns
  aggregations :
    Spares (fun e => [e.1.table]) t d.aggregations.entries d'.aggregations.entries
  joins : Spares Join.tables t d.joins d'.joins
  filters : Spares (fun f => [f.column.table]) t d.filters d'.filters
  groupBy : Spares (fun c => [c.table]) t d.groupBy d'.groupBy
  orderBy : Spares (fun s => [s.column.table]) t d.orderBy d'.orderBy
  formulas : d'.formulas = d.formulas
  limit : d'.limit = d.limit

theorem spared_without (d : Draft) (t : TableId) : Spared t d (d.without t) where
  tables := spares_filter (fun _ => ne_iff_not_mem_singleton) _
  columns := spares_filter (fun _ => ne_iff_not_mem_singleton) _
  aggregations := spares_filter (fun _ => ne_iff_not_mem_singleton) _
  joins := spares_filter (fun _ => Join.not_mentions_iff) _
  filters := spares_filter (fun _ => ne_iff_not_mem_singleton) _
  groupBy := spares_filter (fun _ => ne_iff_not_mem_singleton) _
  orderBy := spares_filter (fun _ => ne_iff_not_mem_singleton) _
  formulas := rfl
  limit := rfl

/-- The tables that the sections of a draft are about. -/
def references (d : Draft) : List TableId :=
  d.tables.flatMap (fun u => [u]) ++ d.columns.flatMap (fun c => [c.table]) ++
    d.aggregations.entries.flatMap (fun e => [e.1.table]) ++ d.joins.flatMap Join.tables ++
    d.filters.flatMap (fun f => [f.column.table]) ++ d.groupBy.flatMap (fun c => [c.table]) ++
    d.orderBy.flatMap (fun s => [s.column.table])

theorem Spared.not_mem_references {d' : Draft} (h : Spared t d d') : t ∉ d'.references := by
  simp only [references, List.mem_append, not_or]
  exact ⟨⟨⟨⟨⟨⟨h.tables.not_mem, h.columns.not_mem⟩, h.aggregations.not_mem⟩, h.joins.not_mem⟩,
    h.filters.not_mem⟩, h.groupBy.not_mem⟩, h.orderBy.not_mem⟩

/-- Nothing changes without what is about a table if nothing is. -/
theorem without_of_not_mem_references (ht : t ∉ d.references) : d.without t = d := by
  simp only [references, List.mem_append, not_or] at ht
  obtain ⟨⟨⟨⟨⟨⟨htables, hcolumns⟩, haggregations⟩, hjoins⟩, hfilters⟩, hgroupBy⟩, horderBy⟩ := ht
  have hentries : d.aggregations.filterKeys (·.table ≠ t) = d.aggregations :=
    OrderedMap.ext (filter_eq_self_of_not_mem (fun _ => ne_iff_not_mem_singleton) haggregations)
  unfold without
  rw [filter_eq_self_of_not_mem (fun _ => ne_iff_not_mem_singleton) htables,
    filter_eq_self_of_not_mem (fun _ => ne_iff_not_mem_singleton) hcolumns, hentries,
    filter_eq_self_of_not_mem (fun _ => Join.not_mentions_iff) hjoins,
    filter_eq_self_of_not_mem (fun _ => ne_iff_not_mem_singleton) hfilters,
    filter_eq_self_of_not_mem (fun _ => ne_iff_not_mem_singleton) hgroupBy,
    filter_eq_self_of_not_mem (fun _ => ne_iff_not_mem_singleton) horderBy]

theorem without_comm (d : Draft) (t u : TableId) :
    (d.without t).without u = (d.without u).without t := by
  simp only [without, mk.injEq, and_true]
  exact ⟨List.filter_comm .., List.filter_comm .., OrderedMap.filterKeys_comm .., List.filter_comm ..,
    List.filter_comm .., List.filter_comm .., List.filter_comm ..⟩

/-- Tables can be removed in any order. -/
theorem removeTable_comm (d : Draft) (t u : TableId) :
    (d.removeTable t).removeTable u = (d.removeTable u).removeTable t := by
  by_cases htu : t = u
  · rw [htu]
  have hmem {t u : TableId} (htu : t ≠ u) : u ∈ (d.without t).tables ↔ u ∈ d.tables := by
    simp [mem_tables_without, htu.symm]
  by_cases ht : t ∈ d.tables <;> by_cases hu : u ∈ d.tables
  · rw [removeTable_of_mem ht, removeTable_of_mem hu, removeTable_of_mem ((hmem htu).2 hu),
      removeTable_of_mem ((hmem (Ne.symm htu)).2 ht), without_comm]
  · rw [removeTable_of_not_mem hu, removeTable_of_mem ht,
      removeTable_of_not_mem (mt (hmem htu).1 hu)]
  · rw [removeTable_of_not_mem ht, removeTable_of_mem hu,
      removeTable_of_not_mem (mt (hmem (Ne.symm htu)).1 ht)]
  · rw [removeTable_of_not_mem ht, removeTable_of_not_mem hu, removeTable_of_not_mem ht]

/-- All that a coherent draft is about is selected. -/
theorem Coherent.references_subset (h : d.Coherent) : d.references ⊆ d.tables := by
  intro t ht
  simp only [references, Join.tables, List.mem_append, List.mem_flatMap, List.mem_cons,
    List.not_mem_nil, or_false] at ht
  rcases ht with (((((⟨u, hu, rfl⟩ | ⟨c, hc, rfl⟩) | ⟨e, he, rfl⟩) | ⟨j, hj, rfl | rfl⟩) |
    ⟨f, hf, rfl⟩) | ⟨c, hc, rfl⟩) | ⟨s, hs, rfl⟩
  · exact hu
  · exact h.columns c hc
  · exact h.columns _ (h.aggregated _ (List.mem_map_of_mem he))
  · exact (h.joins j hj).1
  · exact (h.joins j hj).2
  · exact h.filters f hf
  · exact h.groupBy c hc
  · exact h.orderBy s hs

theorem addTable_without (ht : t ∉ d.tables) : (d.addTable t).without t = d.without t := by
  have htables : insertLast d.tables t = d.tables ++ [t] := if_neg ht
  simp [addTable, without, htables]

/-- Nothing is left of a table that is added and removed again. -/
theorem Coherent.removeTable_addTable (h : d.Coherent) (ht : t ∉ d.tables) :
    (d.addTable t).removeTable t = d := by
  rw [removeTable_of_mem (Coherent.mem_tables_addTable d t), addTable_without ht]
  exact without_of_not_mem_references fun hmem => ht (h.references_subset hmem)

/-- A table that is removed and added again comes last and without anything about it. -/
theorem addTable_removeTable (ht : t ∈ d.tables) : (d.removeTable t).addTable t =
    { d.removeTable t with tables := (d.removeTable t).tables ++ [t] } := by
  have hnot : t ∉ (d.removeTable t).tables := by
    simp [removeTable_of_mem ht, mem_tables_without]
  rw [addTable, insertLast, if_neg hnot]

/-- What removing a table does, whatever the tables: what is not about it stays as it is and nothing
else, the order of removals does not matter, and neither adding the table before nor adding it after
makes a difference to anything but the selected tables. -/
structure ForgetsTables (d : Draft) : Prop where
  spared : ∀ t ∈ d.tables, Spared t d (d.removeTable t) ∧ t ∉ (d.removeTable t).references
  comm : ∀ t u, (d.removeTable t).removeTable u = (d.removeTable u).removeTable t
  added : ∀ t, t ∉ d.tables → (d.addTable t).removeTable t = d
  /-- A table that is added again comes last, and nothing else comes back. -/
  restored : ∀ t ∈ d.tables, (d.removeTable t).addTable t =
    { d.removeTable t with tables := (d.removeTable t).tables ++ [t] }

theorem Coherent.forgetsTables (h : d.Coherent) : d.ForgetsTables where
  spared t ht := by
    rw [removeTable_of_mem ht]
    exact ⟨spared_without d t, (spared_without d t).not_mem_references⟩
  comm := removeTable_comm d
  added _ := h.removeTable_addTable
  restored _ := addTable_removeTable

/-- Tables are forgotten by every draft that comes of a blank one. -/
theorem after_blank_forgetsTables (ids : IdSupply) (limit : Int) (es : List Edit) :
    (after ids 0 (blank limit) es).ForgetsTables :=
  (coherent_after 0 (coherent_blank limit) es).forgetsTables

end Draft

end QueryDraft
