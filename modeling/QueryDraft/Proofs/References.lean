import Mathlib
import QueryDraft.Catalog.Samples
import QueryDraft.Draft.Check
import QueryDraft.Proofs.Attach

/-!
# Drafts without dangling references

`Draft.Grounded`: what the check of a draft's references finds nothing wrong with (`grounded_iff`).
Among other things its joins connect two different selected tables.
-/

namespace QueryDraft.Draft

variable {catalog : Catalog} {d : Draft}

/-- The table of the column is selected, and the catalog knows the column. -/
def Offers (catalog : Catalog) (d : Draft) (c : ColumnId) : Prop :=
  c.table ∈ d.tables ∧ (catalog.column? c).isSome = true

structure Grounded (catalog : Catalog) (d : Draft) : Prop where
  tables : ∀ t ∈ d.tables, catalog.hasTable t = true
  columns : ∀ c ∈ d.columns, d.Offers catalog c
  aggregated : ∀ c ∈ d.aggregations.keys, d.Offers catalog c
  filters : ∀ f ∈ d.filters, d.Offers catalog f.column
  groupBy : ∀ c ∈ d.groupBy, d.Offers catalog c
  orderBy : ∀ s ∈ d.orderBy, d.Offers catalog s.column
  joins : ∀ j ∈ d.joins, d.Offers catalog j.source ∧ d.Offers catalog j.target
  noLoops : ∀ j ∈ d.joins, j.source.table ≠ j.target.table

theorem columnFaults_eq_nil_iff {role : Role} {c : ColumnId}
    (htables : ∀ t ∈ d.tables, catalog.hasTable t = true) :
    d.columnFaults catalog role c = [] ↔ d.Offers catalog c := by
  unfold columnFaults Offers
  by_cases hc : c.table ∈ d.tables
  · obtain ⟨t, ht⟩ := Option.isSome_iff_exists.1 (htables _ hc)
    have hcolumn : catalog.column? c = t.column? c.name := by rw [Catalog.column?, ht, Option.bind_some]
    rw [if_pos hc, ht, hcolumn]
    simp only [Table.hasColumn, hc, true_and]
    split_ifs with h <;> simp [h]
  · simp [hc]

theorem joinFaults_eq_nil_iff {j : Join} (htables : ∀ t ∈ d.tables, catalog.hasTable t = true) :
    d.joinFaults catalog j = [] ↔
      j.source.table ≠ j.target.table ∧ d.Offers catalog j.source ∧ d.Offers catalog j.target := by
  unfold joinFaults
  split_ifs with h
  · simp [h]
  · rw [List.append_eq_nil_iff, columnFaults_eq_nil_iff htables, columnFaults_eq_nil_iff htables]
    simp [h]

theorem grounded_iff : d.Grounded catalog ↔ d.referenceFaults catalog = [] := by
  have htables : d.tableFaults catalog = [] ↔ ∀ t ∈ d.tables, catalog.hasTable t = true := by
    simp [tableFaults, List.filter_eq_nil_iff]
  simp only [referenceFaults, List.append_eq_nil_iff, List.flatMap_eq_nil_iff, htables]
  constructor
  · intro h
    have hcolumn : ∀ role c, d.columnFaults catalog role c = [] ↔ d.Offers catalog c :=
      fun role c => columnFaults_eq_nil_iff h.tables
    exact ⟨⟨⟨⟨⟨⟨h.tables, fun c hc => (hcolumn _ c).2 (h.columns c hc)⟩,
      fun c hc => (hcolumn _ c).2 (h.aggregated c hc)⟩,
      fun f hf => (hcolumn _ f.column).2 (h.filters f hf)⟩,
      fun c hc => (hcolumn _ c).2 (h.groupBy c hc)⟩,
      fun s hs => (hcolumn _ s.column).2 (h.orderBy s hs)⟩,
      fun j hj => (joinFaults_eq_nil_iff h.tables).2 ⟨h.noLoops j hj, h.joins j hj⟩⟩
  · rintro ⟨⟨⟨⟨⟨⟨ht, hcolumns⟩, haggregated⟩, hfilters⟩, hgroupBy⟩, horderBy⟩, hjoins⟩
    have hcolumn : ∀ role c, d.columnFaults catalog role c = [] ↔ d.Offers catalog c :=
      fun role c => columnFaults_eq_nil_iff ht
    have hjoin := fun j hj => (joinFaults_eq_nil_iff ht).1 (hjoins j hj)
    exact {
      tables := ht
      columns := fun c hc => (hcolumn _ c).1 (hcolumns c hc)
      aggregated := fun c hc => (hcolumn _ c).1 (haggregated c hc)
      filters := fun f hf => (hcolumn _ f.column).1 (hfilters f hf)
      groupBy := fun c hc => (hcolumn _ c).1 (hgroupBy c hc)
      orderBy := fun s hs => (hcolumn _ s.column).1 (horderBy s hs)
      joins := fun j hj => (hjoin j hj).2
      noLoops := fun j hj => (hjoin j hj).1 }

/-- Every join connects two different selected tables. -/
theorem joins_of_valid (h : d.referenceFaults catalog = []) :
    ∀ j ∈ d.joins, ¬ j.IsLoop ∧ j.source.table ∈ d.tables ∧ j.target.table ∈ d.tables := by
  intro j hj
  have hgrounded := grounded_iff.2 h
  obtain ⟨hsource, htarget⟩ := hgrounded.joins j hj
  exact ⟨hgrounded.noLoops j hj, hsource.1, htarget.1⟩

theorem noLoops_of_valid (h : d.referenceFaults catalog = []) : ∀ j ∈ d.joins, ¬ j.IsLoop :=
  fun j hj => (joins_of_valid h j hj).1

end QueryDraft.Draft

/-! ### A draft over the tables of several schemas -/

namespace QueryDraft.Sample

def customers : TableId := ⟨"ref", "customers"⟩

def orders : TableId := ⟨"sales", "orders"⟩

def refunds : TableId := ⟨"sales", "refunds"⟩

def archived : TableId := ⟨"archive", "orders"⟩

/-- Refunds are joined on two columns, before the orders that lead to them; orders are joined from
their own side, and archived orders not at all. -/
def sales : Draft where
  tables := [customers, orders, refunds, archived]
  joins := [
    ⟨"a", refunds.column "order_id", .left, orders.column "id"⟩,
    ⟨"b", orders.column "customer_id", .inner, customers.column "customer_id"⟩,
    ⟨"c", orders.column "amount_usd", .left, refunds.column "amount_usd"⟩]

/-- The same from the archived orders, so that the other tables are a group of their own. -/
def archiveFirst : Draft := { sales with tables := [archived, customers, orders, refunds] }

theorem base?_sales : sales.base? = some customers := rfl

theorem nodup_tables_sales : sales.tables.Nodup := by decide

theorem referenceFaults_sales : sales.referenceFaults .multiSchema = [] := by decide

theorem referenceFaults_archiveFirst : archiveFirst.referenceFaults .multiSchema = [] := by decide

end QueryDraft.Sample
