import Mathlib
import QueryDraft.Proofs.Outcome
import QueryDraft.Proofs.Reloads

/-!
# What a query selects

`IsSelectList`: whole tables where nothing is picked, grouped or calculated, and else every picked or
aggregated column once, as it is or inside its aggregate, before the formulas. In a grouped query the
columns that stand as they are are those it is grouped by, also where none is picked and the catalog
says what they are. A draft that was read or blank and then edited has such a list if it has a query
(`isSelectList_of_compile`).
-/

namespace QueryDraft

open Sql

/-- The column that an item shows, as it is or aggregated. -/
def Sql.SelectItem.column? : SelectItem → Option ColumnId
  | .column c | .aggregate c _ _ => some c
  | _ => none

namespace Draft

variable {catalog : Catalog} {d d' : Draft} {c : ColumnId} {item : SelectItem}
  {items : List SelectItem} {compiled : Compiled}

/-! ### Drafts that were made -/

/-- Drafts that start from a document or blank and are edited. -/
inductive IsMade : Draft → Prop
  | read {ids : IdSupply} {v : Json} {d : Draft} (h : Draft.read ids v = .value d) : IsMade d
  | blank (limit : Int) : IsMade (blank limit)
  | edit {ids : IdSupply} {e : Edit} {d d' : Draft} (hd : IsMade d) (h : e.run ids d = .ok d') :
    IsMade d'

theorem tidy_of_entries {ids : IdSupply} {es : List (String × Json)}
    (h : ofEntries ids es = .value d) : d.Tidy fun _ => True := by
  obtain ⟨htables, hcolumns, haggregations, _, _, hgroupBy, _⟩ := ofEntries_eq_value.1 h
  have hany : ∀ name, EachIn es name fun _ => True := fun _ _ _ _ _ => trivial
  exact {
    nodup_tables := (of_field_readDistinct (hany _) htables).1
    nodup_columns := (of_field_readDistinct (hany _) hcolumns).1
    nodup_groupBy := (of_field_readDistinct (hany _) hgroupBy).1
    aggregates := (of_field_readAggregations haggregations).1
    columns := fun _ _ => trivial
    aggregated := fun _ _ => trivial }

theorem Coherent.tidy (h : d.Coherent) : d.Tidy fun _ => True :=
  { h with
    columns := fun _ _ => trivial
    aggregated := fun _ _ => trivial }

theorem IsMade.tidy (h : d.IsMade) : d.Tidy fun _ => True := by
  induction h with
  | read h =>
    obtain ⟨es, _, hes⟩ := Reading.andThen_eq_value.1 h
    exact tidy_of_entries hes
  | blank limit => exact .blank limit
  | @edit ids e d d' _ hrun ih =>
    cases e with
    | applyFragment fragment catalog? =>
      obtain ⟨r, hr, rfl⟩ := map_eq_ok_iff.1 hrun
      exact (coherent_of_applyFragment hr).tidy
    | applyStarter starter catalog? =>
      obtain ⟨r, hr, rfl⟩ := map_eq_ok_iff.1 hrun
      exact (coherent_of_applyFragment hr).tidy
    | selectColumns t names => exact ih.run (by intro _ _; trivial) hrun
    | _ => exact ih.run (by trivial) hrun

/-! ### Columns as items -/

/-- The item shows the column as it is if it has no aggregate, and else inside its aggregate. -/
inductive Shows (d : Draft) (c : ColumnId) : SelectItem → Prop
  | plain (h : d.aggregate c = .none) : Shows d c (.column c)
  | aggregated (h : d.aggregate c ≠ .none) (name : String) :
    Shows d c (.aggregate c (d.aggregate c) name)

theorem Shows.column? (h : d.Shows c item) : item.column? = some c := by
  cases h <;> rfl

theorem forall₂_columnItems (used : List String) (cs : List ColumnId) :
    List.Forall₂ d.Shows cs (d.columnItems used cs) := by
  induction cs generalizing used with
  | nil => exact .nil
  | cons c cs ih =>
    unfold columnItems
    by_cases h : d.aggregate c = .none
    · simpa only [h, if_true] using .cons (.plain h) (ih used)
    · simpa only [h, if_false] using .cons (.aggregated h _) (ih _)

theorem exists_shows_of_mem {cs : List ColumnId} (h : List.Forall₂ d.Shows cs items)
    (hitem : item ∈ items) : ∃ c ∈ cs, d.Shows c item := by
  induction h with
  | nil => cases hitem
  | cons hshows _ ih =>
    rcases List.mem_cons.1 hitem with rfl | hitem
    · exact ⟨_, List.mem_cons_self .., hshows⟩
    · obtain ⟨c, hc, hshows⟩ := ih hitem
      exact ⟨c, List.mem_cons_of_mem _ hc, hshows⟩

theorem column_mem_iff {cs : List ColumnId} (h : List.Forall₂ d.Shows cs items) :
    .column c ∈ items ↔ c ∈ cs ∧ d.aggregate c = .none := by
  constructor
  · intro hmem
    obtain ⟨c', hc', hshows⟩ := exists_shows_of_mem h hmem
    cases hshows with
    | plain hplain => exact ⟨hc', hplain⟩
  · rintro ⟨hc, hplain⟩
    induction h with
    | nil => cases hc
    | cons hshows _ ih =>
      rcases List.mem_cons.1 hc with rfl | hc
      · cases hshows with
        | plain _ => exact List.mem_cons_self ..
        | aggregated hnot _ => exact absurd hplain hnot
      · exact List.mem_cons_of_mem _ (ih hc)

/-- A column that occurs once is shown by one item. -/
theorem exists_filter_eq_singleton {cs : List ColumnId} (h : List.Forall₂ d.Shows cs items)
    (hc : cs.count c = 1) :
    ∃ item, items.filter (·.column? = some c) = [item] ∧ d.Shows c item := by
  have hfilter : List.Forall₂ d.Shows (cs.filter (· = c)) (items.filter (·.column? = some c)) := by
    refine List.rel_filter (fun c' item hshows => ?_) h
    simp [hshows.column?]
  rw [List.filter_eq, hc] at hfilter
  obtain ⟨item, _, hshows, hnil, hitems⟩ := List.forall₂_cons_left_iff.1 hfilter
  rw [List.forall₂_nil_left_iff.1 hnil] at hitems
  exact ⟨item, hitems, hshows⟩

/-! ### Which columns there are -/

section tidy

variable (htidy : d.Tidy fun _ => True)

include htidy

theorem Tidy.aggregate_ne_none (hc : c ∈ d.aggregations.keys) : d.aggregate c ≠ .none := by
  unfold aggregate OrderedMap.get?
  cases hfirst : Entries.first? d.aggregations.entries c with
  | none => exact absurd hc (Entries.first?_eq_none_iff.1 hfirst)
  | some a => exact htidy.aggregates _ (Entries.mem_of_first? hfirst)

/-- Picked and aggregated columns occur once, and implied ones are neither. -/
theorem Tidy.count_resultColumns (hc : c ∈ d.columns ∨ c ∈ d.aggregations.keys) :
    (d.resultColumns catalog).count c = 1 := by
  unfold resultColumns
  cases hcolumns : d.columns with
  | cons c' cs =>
    rw [← hcolumns]
    have hmem : c ∈ d.effectiveColumns := mem_foldl_insertLast.2 hc
    have hnodup : d.effectiveColumns.Nodup := nodup_foldl_insertLast htidy.nodup_columns
    simpa [hcolumns] using List.count_eq_one_of_mem hnodup hmem
  | nil =>
    have hkey : c ∈ d.aggregations.keys := hc.resolve_left (by simp [hcolumns])
    have hplain : c ∉ d.plainColumns catalog := by
      unfold plainColumns
      rw [hcolumns]
      intro hmem
      simp only [List.isEmpty_nil, Bool.not_true, Bool.false_eq_true, if_false] at hmem
      split_ifs at hmem
      · exact htidy.aggregate_ne_none hkey (mem_impliedColumns_iff.1 hmem).1
      · cases hmem
    have hkeys : d.aggregations.keys.count c = 1 :=
      List.count_eq_one_of_mem d.aggregations.nodup_keys hkey
    simp [List.count_append, List.count_eq_zero.2 hplain, hkeys]

/-- Of the columns of a grouped query those without an aggregate are picked or implied. -/
theorem Tidy.isPlain_of_mem_resultColumns (hgrouped : d.isGrouped = true)
    (hc : c ∈ d.resultColumns catalog) (hplain : d.aggregate c = .none) : d.IsPlain catalog c := by
  have hkey : c ∉ d.aggregations.keys := fun hkey => htidy.aggregate_ne_none hkey hplain
  unfold resultColumns at hc
  split_ifs at hc with hcolumns
  · have hne : d.columns ≠ [] := by simpa using hcolumns
    have hmem : c ∈ d.columns := (mem_foldl_insertLast.1 hc).resolve_right hkey
    exact ⟨hplain, by rwa [if_neg hne]⟩
  · exact (mem_plainColumns_iff hgrouped).1 ((List.mem_append.1 hc).resolve_right hkey)

end tidy

theorem mem_resultColumns_of_implied (hcolumns : d.columns = []) (hgrouped : d.isGrouped = true)
    (hplain : d.aggregate c = .none) (hc : d.Offers catalog c) : c ∈ d.resultColumns catalog := by
  have hmem : c ∈ d.plainColumns catalog :=
    (mem_plainColumns_iff hgrouped).2 ⟨hplain, by rw [if_pos hcolumns]; exact hc⟩
  rw [resultColumns, hcolumns]
  exact List.mem_append_left _ hmem

/-! ### The list -/

/-- Nothing is picked, grouped or calculated. -/
def IsBare (d : Draft) : Prop := d.columns = [] ∧ d.isGrouped = false ∧ d.formulas = []

theorem selectItems_eq_ok_iff : d.selectItems catalog = .ok items ↔
    (d.IsBare ∧ items = d.tables.map .wholeTable) ∨
      (¬ d.IsBare ∧ d.ungrouped? catalog = none ∧
        items = d.columnItems (d.formulas.map Formula.name) (d.resultColumns catalog) ++
          d.formulas.map fun f => .formula f.expression f.name) := by
  have hbare : (d.columns.isEmpty && !d.isGrouped && d.formulas.isEmpty) = true ↔ d.IsBare := by
    simp [IsBare, and_assoc]
  unfold selectItems
  split_ifs with h
  · simp [hbare.1 h, eq_comm]
  · rw [hbare] at h
    cases d.ungrouped? catalog <;> simp [h, eq_comm]

/-- A draft with a query has references and aliases in order, and its list of items begins the query. -/
theorem exists_items_of_compile (h : d.compile catalog = .ok compiled) :
    d.tables ≠ [] ∧ d.Grounded catalog ∧ d.checkAliases = .ok () ∧
      ∃ items, d.selectItems catalog = .ok items ∧
        ∃ clauses, compiled.sql = assemble (selectClause (items.map SelectItem.sql) :: clauses) := by
  obtain ⟨htables, hvalid, _⟩ := exists_compile_iff.1 ⟨compiled, h⟩
  obtain ⟨base, ts, hcons⟩ := List.exists_cons_of_ne_nil htables
  have hbase : d.base? = some base := by rw [base?, hcons, List.head?_cons]
  obtain ⟨-, haliases, items, conditions, hitems, _, rfl⟩ := parts_of_compile hbase h
  exact ⟨htables, grounded_iff.2 hvalid, haliases, items, hitems, _, rfl⟩

/-- The items of a query: whole tables, or columns and then formulas. -/
structure IsSelectList (catalog : Catalog) (d : Draft) (items : List SelectItem) : Prop where
  nonempty : items ≠ []
  whole : d.IsBare → items = d.tables.map .wholeTable
  listed : ¬ d.IsBare → ∃ shown,
    items = shown ++ d.formulas.map (fun f => .formula f.expression f.name) ∧
    (∀ item ∈ shown, ∃ c, d.Shows c item) ∧
    ∀ c, c ∈ d.columns ∨ c ∈ d.aggregations.keys →
      ∃ item, shown.filter (·.column? = some c) = [item] ∧ d.Shows c item
  grouped : d.isGrouped = true → ∀ c, .column c ∈ items → c ∈ d.groupBy
  implied : d.columns = [] → d.isGrouped = true → ∀ c, c.table ∈ d.tables →
    (catalog.column? c).isSome = true → d.aggregate c = .none → .column c ∈ items

/-- A grouped query has columns even if none is picked: one that it aggregates or is grouped by. -/
theorem resultColumns_ne_nil (hgrounded : d.Grounded catalog)
    (h : d.columns ≠ [] ∨ d.isGrouped = true) : d.resultColumns catalog ≠ [] := by
  cases hcolumns : d.columns with
  | cons c cs =>
    have hmem : c ∈ d.effectiveColumns := mem_foldl_insertLast.2 (.inl (by simp [hcolumns]))
    simpa [resultColumns, hcolumns] using List.ne_nil_of_mem hmem
  | nil =>
    have hgrouped : d.isGrouped = true := h.resolve_left (not_not_intro hcolumns)
    cases hentries : d.aggregations.entries with
    | cons e es => simp [resultColumns, hcolumns, OrderedMap.keys, hentries]
    | nil =>
      have hplain : ∀ c, d.aggregate c = .none := by
        intro c
        simp [aggregate, OrderedMap.get?, hentries, Entries.first?]
      have hgroupBy : d.groupBy ≠ [] := by
        simpa [isGrouped, OrderedMap.isEmpty, hentries] using hgrouped
      obtain ⟨c, hc⟩ := List.exists_mem_of_ne_nil _ hgroupBy
      exact List.ne_nil_of_mem (mem_resultColumns_of_implied hcolumns hgrouped (hplain c)
        (hgrounded.groupBy c hc))

theorem Tidy.isSelectList (htidy : d.Tidy fun _ => True) (htables : d.tables ≠ [])
    (hgrounded : d.Grounded catalog) (h : d.selectItems catalog = .ok items) :
    d.IsSelectList catalog items := by
  rcases selectItems_eq_ok_iff.1 h with ⟨hbare, rfl⟩ | ⟨hbare, hungrouped, rfl⟩
  · have hgrouped : d.isGrouped ≠ true := by simp [hbare.2.1]
    exact {
      nonempty := by simpa using htables
      whole := fun _ => rfl
      listed := fun hnot => absurd hbare hnot
      grouped := fun hgrouped' => absurd hgrouped' hgrouped
      implied := fun _ hgrouped' => absurd hgrouped' hgrouped }
  · have hshows := forall₂_columnItems (d := d) (d.formulas.map Formula.name) (d.resultColumns catalog)
    have hcolumn : ∀ c, .column c ∈ d.columnItems (d.formulas.map Formula.name)
          (d.resultColumns catalog) ++ d.formulas.map (fun f => .formula f.expression f.name) ↔
        c ∈ d.resultColumns catalog ∧ d.aggregate c = .none := by
      intro c
      rw [List.mem_append, column_mem_iff hshows]
      simp
    constructor
    case nonempty =>
      intro hnil
      obtain ⟨hitems, hformulas⟩ := List.append_eq_nil_iff.1 hnil
      rw [hitems] at hshows
      have hresult := List.forall₂_nil_right_iff.1 hshows
      refine hbare ⟨?_, ?_, List.map_eq_nil_iff.1 hformulas⟩
      · by_contra hcolumns
        exact resultColumns_ne_nil hgrounded (.inl hcolumns) hresult
      · rw [Bool.eq_false_iff]
        exact fun hgrouped => resultColumns_ne_nil hgrounded (.inr hgrouped) hresult
    case whole => exact fun hbare' => absurd hbare' hbare
    case listed =>
      refine fun _ => ⟨_, rfl, fun item hitem => ?_, fun c hc => ?_⟩
      · obtain ⟨c, _, hitem⟩ := exists_shows_of_mem hshows hitem
        exact ⟨c, hitem⟩
      · exact exists_filter_eq_singleton hshows (htidy.count_resultColumns hc)
    case grouped =>
      intro hgrouped c hc
      obtain ⟨hc, hplain⟩ := (hcolumn c).1 hc
      by_contra hnot
      exact ungrouped?_eq_none_iff.1 hungrouped c
        (.ungrouped hgrouped (htidy.isPlain_of_mem_resultColumns hgrouped hc hplain) hnot)
    case implied =>
      intro hcolumns hgrouped c htable hknown hplain
      exact (hcolumn c).2
        ⟨mem_resultColumns_of_implied hcolumns hgrouped hplain ⟨htable, hknown⟩, hplain⟩

/-- The query of a draft that was read or blank and then edited begins with a list that is not empty
and agrees with the grouping: whole tables, or each picked or aggregated column once and the formulas
in order, and of the columns without an aggregate only those that it is grouped by. -/
theorem isSelectList_of_compile (hd : d.IsMade) (h : d.compile catalog = .ok compiled) :
    ∃ items, d.selectItems catalog = .ok items ∧
      (∃ clauses, compiled.sql = assemble (selectClause (items.map SelectItem.sql) :: clauses)) ∧
      d.IsSelectList catalog items := by
  obtain ⟨htables, hgrounded, _, items, hitems, hsql⟩ := exists_items_of_compile h
  exact ⟨items, hitems, hsql, hd.tidy.isSelectList htables hgrounded hitems⟩

end Draft

namespace Sample

/-- The refunds of each order, with none of their columns picked. -/
def refundTotals : Json := .obj [
  ("selectedTables", .texts ["sales.refunds"]),
  ("aggregations", .obj [("sales.refunds.amount_usd", .str "SUM")]),
  ("groupBy", .texts ["sales.refunds.order_id", "sales.refunds.refund_id"]),
  ("calculatedColumns", .arr [.obj [("id", .str "f"), ("alias", .str "amount_usd_sum"),
    ("expression", .str "COUNT(*)")]])]

def readTotals : Draft where
  tables := [refunds]
  aggregations := .ofList [(refunds.column "amount_usd", .sum)]
  groupBy := [refunds.column "order_id", refunds.column "refund_id"]
  formulas := [⟨"f", "amount_usd_sum", "COUNT(*)"⟩]

/-- The same with one row only. -/
def totals : Draft := readTotals.setLimit 1

def totalItems : List SelectItem := [
  .column (refunds.column "refund_id"),
  .column (refunds.column "order_id"),
  .aggregate (refunds.column "amount_usd") .sum "refunds_amount_usd_sum",
  .formula "COUNT(*)" "amount_usd_sum"]

theorem totals_isMade : totals.IsMade := by
  have hread : Draft.read newIds refundTotals = .value readTotals := by rfl
  have hrun : (Edit.setLimit 1).run newIds readTotals = .ok totals := rfl
  exact .edit (.read hread) hrun

theorem selectItems_totals : totals.selectItems .multiSchema = .ok totalItems := by rfl

theorem exists_compile_totals : ∃ compiled, totals.compile .multiSchema = .ok compiled := ⟨_, rfl⟩

theorem isSelectList_of_compile_totals :
    totals.IsMade ∧ (∃ compiled, totals.compile .multiSchema = .ok compiled) ∧
      totals.IsSelectList .multiSchema totalItems := by
  obtain ⟨compiled, hcompiled⟩ := exists_compile_totals
  obtain ⟨items, hitems, _, hlist⟩ := Draft.isSelectList_of_compile totals_isMade hcompiled
  rw [selectItems_totals] at hitems
  cases hitems
  exact ⟨totals_isMade, ⟨compiled, hcompiled⟩, hlist⟩

end Sample

end QueryDraft
