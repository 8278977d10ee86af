import Mathlib
import QueryDraft.Proofs.FragmentTwice

/-!
# Which tables a fragment selects

The tables of a merged document's result are those that its first three sections name
(`mem_tables_applyFragment_iff`): as tables, through columns, or through aggregates. A fragment with
tables of its own does not keep those that the draft selects, but it does keep the draft's columns and
aggregates, unless it has such sections too, and with them their tables (`tables_of_fragment`).
-/

namespace QueryDraft

namespace Draft

variable {catalog? : Option Catalog} {ids : IdSupply} {es fragment : List (String × Json)}
  {d : Draft} {r : Replay} {t : TableId}

/-- A document names a table: in its list of tables, by a column or by an aggregate that is not none. -/
inductive Selects (catalog? : Option Catalog) (es : List (String × Json)) : TableId → Prop
  | table {vs : List Json} {v : Json} {t : TableId} (hvs : sectionItems es "selectedTables" = .ok vs)
    (hv : v ∈ vs) (ht : acceptTable catalog? v = .ok t) : Selects catalog? es t
  | column {vs : List Json} {v : Json} {c : ColumnId}
    (hvs : sectionItems es "selectedColumns" = .ok vs) (hv : v ∈ vs)
    (hc : knownColumn catalog? v = .ok c) : Selects catalog? es c.table
  | aggregate {ps : List (Json × Json)} {e : Json × Json} {c : ColumnId} {a : Aggregate}
    (hps : sectionEntries es "aggregations" = .ok ps) (he : e ∈ ps)
    (hc : acceptAggregate catalog? e = .ok (c, a)) (ha : a ≠ .none) : Selects catalog? es c.table

/-- The draft has a table through a column or an aggregate that a fragment does not replace. Columns
are read again from their texts. -/
inductive LeftOver (catalog? : Option Catalog) (d : Draft) (fragment : List (String × Json)) :
    TableId → Prop
  | column {c c' : ColumnId} (hnone : Entries.last? fragment "selectedColumns" = none)
    (hc : c ∈ d.columns) (hread : knownColumn catalog? (.str c.text) = .ok c') :
    LeftOver catalog? d fragment c'.table
  | aggregate {e : String × Json} {c' : ColumnId} {a : Aggregate}
    (hnone : Entries.last? fragment "aggregations" = none) (he : e ∈ d.aggregationEntries)
    (hread : acceptAggregate catalog? (.str e.1, e.2) = .ok (c', a)) (ha : a ≠ .none) :
    LeftOver catalog? d fragment c'.table

/-! ### The tables of a merged document -/

theorem mem_accepted_iff {α β : Type} {accept : α → Except Failure β} {vs : List α} {b : β} :
    b ∈ accepted accept vs ↔ ∃ v ∈ vs, accept v = .ok b := by
  constructor
  · exact exists_of_mem_accepted
  · rintro ⟨v, hv, h⟩
    exact List.mem_filterMap.2 ⟨v, hv, by rw [h]; rfl⟩

theorem mem_tables_selecting_iff {limit : Int} {ts : List TableId} {cs : List ColumnId}
    {as : List (ColumnId × Aggregate)} : t ∈ (selecting limit ts cs as).tables ↔
      t ∈ ts ∨ (∃ c ∈ cs, c.table = t) ∨ ∃ e ∈ as, e.2 ≠ .none ∧ e.1.table = t := by
  simp only [selecting, mem_distinct, aggregatedColumns, List.mem_append, List.mem_map,
    List.mem_filter, decide_eq_true_eq]
  constructor
  · rintro (ht | ⟨c, hc | ⟨e, ⟨he, ha⟩, rfl⟩, rfl⟩)
    · exact .inl ht
    · exact .inr (.inl ⟨c, hc, rfl⟩)
    · exact .inr (.inr ⟨e, he, ha, rfl⟩)
  · rintro (ht | ⟨c, hc, rfl⟩ | ⟨e, he, ha, rfl⟩)
    · exact .inl ht
    · exact .inr ⟨c, .inl hc, rfl⟩
    · exact .inr ⟨e.1, .inr ⟨e, ⟨he, ha⟩, rfl⟩, rfl⟩

theorem mem_tables_of_selectsFrom {limit : Int} (h : SelectsFrom catalog? ids es limit r) :
    t ∈ r.draft.tables ↔ Selects catalog? es t := by
  obtain ⟨b, x⟩ := r
  obtain ⟨r₁, h₁, r₂, h₂, ps, hps, h₃⟩ := h
  obtain ⟨vs, hvs, h₁⟩ := bind_eq_ok_iff.1 h₁
  obtain ⟨ws, hws, h₂⟩ := bind_eq_ok_iff.1 h₂
  obtain ⟨_, rfl⟩ := replay_selection_iff.1 ⟨r₁, h₁, r₂, h₂, x, h₃⟩
  simp only [mem_tables_selecting_iff, mem_accepted_iff]
  constructor
  · rintro (⟨v, hv, ht⟩ | ⟨c, ⟨v, hv, hc⟩, rfl⟩ | ⟨e, ⟨p, hp, he⟩, ha, rfl⟩)
    · exact .table hvs hv ht
    · exact .column hws hv hc
    · exact .aggregate hps hp he ha
  · intro hselects
    cases hselects with
    | table hvs' hv ht =>
      cases hvs.symm.trans hvs'
      exact .inl ⟨_, hv, ht⟩
    | column hws' hv hc =>
      cases hws.symm.trans hws'
      exact .inr (.inl ⟨_, ⟨_, hv, hc⟩, rfl⟩)
    | aggregate hps' he hc ha =>
      cases hps.symm.trans hps'
      exact .inr (.inr ⟨_, ⟨_, he, hc⟩, ha, rfl⟩)

/-- The sections behind the selection, and the limit, leave the tables as they are. -/
theorem mem_tables_applyFragment_iff (h : d.applyFragment fragment catalog? ids = .ok r) :
    t ∈ r.draft.tables ↔ Selects catalog? (Entries.putAll d.entries fragment) t := by
  obtain ⟨r₃, h₃, r₄, h₄, r₅, h₅, r₆, h₆, r₇, h₇, r₈, h₈, hr⟩ := applyFragment_eq_ok_iff.1 h
  obtain ⟨joins, hjoins⟩ := exists_joins h₄
  obtain ⟨filters, hfilters⟩ := exists_filters h₅
  obtain ⟨groupBy, hgroupBy⟩ := exists_groupBy h₆
  obtain ⟨orderBy, horderBy⟩ := exists_orderBy h₇
  obtain ⟨formulas, hformulas⟩ := exists_formulas h₈
  have htables : r.draft.tables = r₃.draft.tables := by
    rw [(limit_again hr).1, hformulas, horderBy, hgroupBy, hfilters, hjoins]
    rfl
  rw [htables]
  exact mem_tables_of_selectsFrom h₃

/-! ### Which of them are the fragment's -/

theorem exists_last?_of_mem_items {name : String} {vs : List Json} {v : Json}
    (hvs : sectionItems es name = .ok vs) (hv : v ∈ vs) : ∃ w, Entries.last? es name = some w := by
  cases hlast : Entries.last? es name with
  | none =>
    rw [sectionItems, hlast] at hvs
    cases hvs
    cases hv
  | some w => exact ⟨w, rfl⟩

theorem exists_last?_of_mem_entries {name : String} {ps : List (Json × Json)} {e : Json × Json}
    (hps : sectionEntries es name = .ok ps) (he : e ∈ ps) : ∃ w, Entries.last? es name = some w := by
  cases hlast : Entries.last? es name with
  | none =>
    rw [sectionEntries, hlast] at hps
    cases hps
    cases he
  | some w => exact ⟨w, rfl⟩

theorem selects_putAll_iff {v : Json} (hown : Entries.last? fragment "selectedTables" = some v) :
    Selects catalog? (Entries.putAll d.entries fragment) t ↔
      Selects catalog? fragment t ∨ LeftOver catalog? d fragment t := by
  have hnodup := d.nodup_entries
  -- each section is the fragment's if it has one of that name, and else the draft's
  constructor
  · intro h
    cases h with
    | table hvs hv ht =>
      rw [sectionItems_putAll_of_some hnodup hown] at hvs
      exact .inl (.table hvs hv ht)
    | column hvs hv hc =>
      cases hname : Entries.last? fragment "selectedColumns" with
      | some w =>
        rw [sectionItems_putAll_of_some hnodup hname] at hvs
        exact .inl (.column hvs hv hc)
      | none =>
        rw [sectionItems_putAll_of_none hnodup hname, sectionItems_columns] at hvs
        cases hvs
        obtain ⟨c, hmem, rfl⟩ := List.mem_map.1 hv
        exact .inr (.column hname hmem hc)
    | aggregate hps he hc ha =>
      cases hname : Entries.last? fragment "aggregations" with
      | some w =>
        rw [sectionEntries_putAll_of_some hnodup hname] at hps
        exact .inl (.aggregate hps he hc ha)
      | none =>
        rw [sectionEntries_putAll_of_none hnodup hname, sectionEntries_aggregations] at hps
        cases hps
        obtain ⟨e, hmem, rfl⟩ := List.mem_map.1 he
        exact .inr (.aggregate hname hmem hc ha)
  · rintro (h | h)
    · cases h with
      | table hvs hv ht =>
        exact .table (by rwa [sectionItems_putAll_of_some hnodup hown]) hv ht
      | column hvs hv hc =>
        obtain ⟨w, hname⟩ := exists_last?_of_mem_items hvs hv
        exact .column (by rwa [sectionItems_putAll_of_some hnodup hname]) hv hc
      | aggregate hps he hc ha =>
        obtain ⟨w, hname⟩ := exists_last?_of_mem_entries hps he
        exact .aggregate (by rwa [sectionEntries_putAll_of_some hnodup hname]) he hc ha
    · cases h with
      | column hname hc hread =>
        have hvs := sectionItems_putAll_of_none hnodup hname
        rw [sectionItems_columns] at hvs
        exact .column hvs (List.mem_map_of_mem hc) hread
      | aggregate hname he hread ha =>
        have hps := sectionEntries_putAll_of_none hnodup hname
        rw [sectionEntries_aggregations] at hps
        exact .aggregate hps (List.mem_map.2 ⟨_, he, rfl⟩) hread ha

/-- A fragment with tables of its own selects the tables that it names, and besides them those of the
draft's columns and aggregates where it has no columns or aggregates of its own. -/
theorem tables_of_fragment (h : d.applyFragment fragment catalog? ids = .ok r) {v : Json}
    (hown : Entries.last? fragment "selectedTables" = some v) (t : TableId) :
    t ∈ r.draft.tables ↔ Selects catalog? fragment t ∨ LeftOver catalog? d fragment t := by
  rw [mem_tables_applyFragment_iff h]
  exact selects_putAll_iff hown

end Draft

namespace Sample

/-- The names of the users. -/
def userNames : Draft := (Draft.blank 100).toggleColumn (users.column "name")

/-- Orders in place of other tables, with nothing said of columns. -/
def ordersOnly : List (String × Json) := [("selectedTables", .texts ["sales.orders"])]

def ordersAndUserNames : Draft where
  tables := [orders, users]
  columns := [users.column "name"]

theorem applyFragment_ordersOnly :
    userNames.applyFragment ordersOnly none newIds = .ok { draft := ordersAndUserNames } := by rfl

theorem tables_of_fragment_ordersOnly :
    userNames.applyFragment ordersOnly none newIds = .ok { draft := ordersAndUserNames } ∧
      ∀ t ∈ [orders, users],
        Draft.Selects none ordersOnly t ∨ Draft.LeftOver none userNames ordersOnly t :=
  ⟨applyFragment_ordersOnly, fun t ht =>
    (Draft.tables_of_fragment applyFragment_ordersOnly (by rfl) t).1 ht⟩

theorem eq_orders_of_selects {t : TableId} (h : Draft.Selects none ordersOnly t) : t = orders := by
  cases h with
  | table hvs hv ht =>
    cases hvs
    cases List.mem_singleton.1 hv
    cases ht
    rfl
  | column hvs hv _ =>
    cases hvs
    cases hv
  | aggregate hps he _ _ =>
    cases hps
    cases he

/-- The users come back with the column that the fragment does not speak of. -/
theorem tables_of_fragment_userNames : ∃ r,
    userNames.applyFragment ordersOnly none newIds = .ok r ∧ users ∈ r.draft.tables ∧
      ¬ Draft.Selects none ordersOnly users := by
  refine ⟨_, applyFragment_ordersOnly, by simp [ordersAndUserNames], fun h => ?_⟩
  exact absurd (eq_orders_of_selects h) (by decide)

end Sample

end QueryDraft
