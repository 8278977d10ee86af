import Mathlib
import QueryDraft.Proofs.Documents

/-!
# Drafts that were read, edited and written

What is read from a document whose tables and columns are texts is tidy and spelled (`tidy_of_read`,
`spelled_of_read`), and textual edits keep it so. Hence a draft that started from a document is read
back from its own after any run of such edits (`read_document_after`).
-/

namespace QueryDraft

open Reading (FieldName)

/-! ### Items that were read -/

theorem Reading.exists_of_mem_itemsFrom {α : Type} {read : Nat → Json → Reading α} {i : Nat}
    {vs : List Json} {as : List α} (h : itemsFrom i read vs = .value as) :
    ∀ a ∈ as, ∃ j, ∃ v ∈ vs, read j v = .value a := by
  induction vs generalizing i as with
  | nil =>
    cases h
    simp
  | cons v vs ih =>
    obtain ⟨_, bs, hv, hvs, rfl⟩ := ap_eq_value.1 h
    obtain ⟨b, hb, rfl⟩ := map_eq_value.1 hv
    intro a ha
    rcases List.mem_cons.1 ha with rfl | ha
    · exact ⟨i, v, List.mem_cons_self .., under_eq_value.1 hb⟩
    · obtain ⟨j, w, hw, hread⟩ := ih hvs a ha
      exact ⟨j, w, List.mem_cons_of_mem _ hw, hread⟩

theorem Reading.exists_of_mem_items {α : Type} {cause : Cause} {read : Nat → Json → Reading α}
    {v : Json} {as : List α} (h : items cause read v = .value as) :
    ∃ vs, v = .arr vs ∧ ∀ a ∈ as, ∃ j, ∃ w ∈ vs, read j w = .value a := by
  cases v with
  | arr vs => exact ⟨vs, rfl, exists_of_mem_itemsFrom h⟩
  | _ => cases h

/-- The items of a section of a document satisfy `p`; the section may have either of its names. -/
def EachIn (es : List (String × Json)) (name : FieldName) (p : Json → Prop) : Prop :=
  ∀ vs, name.entry? es = some (.arr vs) → ∀ v ∈ vs, p v

namespace Draft

variable {ids : IdSupply} {es : List (String × Json)} {name : FieldName} {p : Json → Prop}

theorem of_field_readDistinct {α : Type} [DecidableEq α] {read : Json → Reading α} {as : List α}
    (hes : EachIn es name p)
    (h : Reading.field name (some []) (readDistinct read) es = .value as) :
    as.Nodup ∧ ∀ a ∈ as, ∃ v, p v ∧ read v = .value a := by
  rcases Reading.field_eq_value.1 h with ⟨v, hv, hread⟩ | ⟨_, hnil⟩
  · obtain ⟨bs, hbs, rfl⟩ := Reading.map_eq_value.1 hread
    obtain ⟨vs, rfl, hvs⟩ := Reading.exists_of_mem_items hbs
    refine ⟨nodup_distinct bs, fun a ha => ?_⟩
    obtain ⟨_, w, hw, ha⟩ := hvs a (mem_distinct.1 ha)
    exact ⟨w, hes vs hv w hw, ha⟩
  · cases hnil
    exact ⟨.nil, by simp⟩

theorem of_field_readParts {α : Type} {read : String → Json → Reading α} {as : List α}
    (hes : EachIn es name p)
    (h : Reading.field name (some []) (readParts ids read) es = .value as) :
    ∀ a ∈ as, ∃ fresh v, p v ∧ read fresh v = .value a := by
  rcases Reading.field_eq_value.1 h with ⟨v, hv, hread⟩ | ⟨_, hnil⟩
  · obtain ⟨vs, rfl, hvs⟩ := Reading.exists_of_mem_items hread
    intro a ha
    obtain ⟨j, w, hw, ha⟩ := hvs a ha
    exact ⟨_, w, hes vs hv w hw, ha⟩
  · cases hnil
    simp

theorem isSpelled_of_readEntries {es : List (String × Json)} {as : List (ColumnId × Aggregate)}
    (h : readEntries es = .value as) : ∀ e ∈ as, e.1.IsSpelled := by
  induction es generalizing as with
  | nil =>
    cases h
    simp
  | cons e es ih =>
    obtain ⟨_, bs, he, hes, rfl⟩ := Reading.ap_eq_value.1 h
    obtain ⟨b, hb, rfl⟩ := Reading.map_eq_value.1 he
    obtain ⟨_, a, hkey, _, rfl⟩ := Reading.ap_eq_value.1 (Reading.under_eq_value.1 hb)
    obtain ⟨c, hcolumn, rfl⟩ := Reading.map_eq_value.1 hkey
    refine List.forall_mem_cons.2 ⟨?_, ih hes⟩
    exact ⟨_, ColumnId.read_str.1 (Reading.under_eq_value.1 hcolumn)⟩

theorem of_field_readAggregations {m : OrderedMap ColumnId Aggregate}
    (h : Reading.field name (some ∅) readAggregations es = .value m) :
    (∀ e ∈ m.entries, e.2 ≠ .none) ∧ ∀ c ∈ m.keys, c.IsSpelled := by
  rcases Reading.field_eq_value.1 h with ⟨v, _, hread⟩ | ⟨_, hempty⟩
  · obtain ⟨entries, _, hread⟩ := Reading.andThen_eq_value.1 hread
    obtain ⟨pairs, hpairs, rfl⟩ := Reading.map_eq_value.1 hread
    have hspelled : ∀ e ∈ (OrderedMap.ofList pairs).entries, e.1.IsSpelled :=
      Entries.forall_mem_putAll (by simp) (isSpelled_of_readEntries hpairs)
    constructor
    · intro e he
      simpa using (List.mem_filter.1 he).2
    · intro c hc
      obtain ⟨e, he, rfl⟩ := List.mem_map.1 hc
      exact hspelled e (List.mem_filter.1 he).1
  · cases hempty
    exact ⟨fun e he => absurd he List.not_mem_nil, fun c hc => absurd hc List.not_mem_nil⟩

/-! ### Documents whose names are texts -/

structure HasTextNames (es : List (String × Json)) : Prop where
  tables : EachIn es ⟨"selectedTables", "selected_tables"⟩ fun v => ∃ s, v = .str s
  columns : EachIn es ⟨"selectedColumns", "selected_columns"⟩ fun v => ∃ s, v = .str s
  joins : EachIn es ⟨"joins", "joins"⟩ fun v => ∀ fields, v.entries? = some fields →
    TextAt ⟨"fromTable", "from_table"⟩ fields ∧ TextAt ⟨"toTable", "to_table"⟩ fields
  filters : EachIn es ⟨"filters", "filters"⟩ fun v => ∀ fields, v.entries? = some fields →
    TextAt ⟨"column", "column"⟩ fields
  groupBy : EachIn es ⟨"groupBy", "group_by"⟩ fun v => ∃ s, v = .str s
  orderBy : EachIn es ⟨"orderBy", "order_by"⟩ fun v => ∀ fields, v.entries? = some fields →
    TextAt ⟨"column", "column"⟩ fields

variable {d d' : Draft}

theorem tidy_of_read (hes : HasTextNames es) (h : ofEntries ids es = .value d) :
    d.Tidy ColumnId.IsSpelled := by
  obtain ⟨htables, hcolumns, haggregations, _, _, hgroupBy, _⟩ := ofEntries_eq_value.1 h
  obtain ⟨hnodup, hread⟩ := of_field_readDistinct hes.columns hcolumns
  obtain ⟨haggregates, haggregated⟩ := of_field_readAggregations haggregations
  refine ⟨(of_field_readDistinct hes.tables htables).1, hnodup,
    (of_field_readDistinct hes.groupBy hgroupBy).1, haggregates, fun c hc => ?_, haggregated⟩
  obtain ⟨_, ⟨s, rfl⟩, hs⟩ := hread c hc
  exact ⟨s, ColumnId.read_str.1 hs⟩

theorem spelled_of_read (hes : HasTextNames es) (h : ofEntries ids es = .value d) :
    d.Meets .spelled := by
  obtain ⟨htables, hcolumns, _, hjoins, hfilters, hgroupBy, horderBy, _⟩ := ofEntries_eq_value.1 h
  constructor
  · intro t ht
    obtain ⟨_, ⟨s, rfl⟩, hs⟩ := (of_field_readDistinct hes.tables htables).2 t ht
    exact ⟨s, TableId.read_str.1 hs⟩
  · exact (tidy_of_read hes h).columns
  · intro j hj
    obtain ⟨_, v, htexts, hread⟩ := of_field_readParts hes.joins hjoins j hj
    exact Join.spelled_of_read htexts hread
  · intro f hf
    obtain ⟨_, v, htexts, hread⟩ := of_field_readParts hes.filters hfilters f hf
    exact Filter.spelled_of_read htexts hread
  · intro c hc
    obtain ⟨_, ⟨s, rfl⟩, hs⟩ := (of_field_readDistinct hes.groupBy hgroupBy).2 c hc
    exact ⟨s, ColumnId.read_str.1 hs⟩
  · intro s hs
    obtain ⟨_, v, htexts, hread⟩ := of_field_readParts hes.orderBy horderBy s hs
    exact SortKey.spelled_of_read htexts hread
  · exact fun _ _ => trivial

/-! ### Edits of tidy drafts -/

end Draft

/-- The columns that an edit of one part selects or aggregates satisfy `p`. -/
def Edit.Selects (p : ColumnId → Prop) : Edit → Prop
  | toggleColumn c | setAggregate c _ => p c
  | selectColumns t names => ∀ name ∈ names, p (t.column name)
  | applyFragment .. | applyStarter .. => False
  | _ => True

theorem Edit.Selects.mono {p q : ColumnId → Prop} {e : Edit} (h : e.Selects p)
    (hpq : ∀ c, p c → q c) : e.Selects q := by
  cases e with
  | toggleColumn c => exact hpq c h
  | setAggregate c a => exact hpq c h
  | selectColumns t names => exact fun name hname => hpq _ (h name hname)
  | applyFragment fragment catalog? => exact h.elim
  | applyStarter starter catalog? => exact h.elim
  | _ => trivial

namespace Draft

variable {d d' : Draft} {ids : IdSupply} {p q : ColumnId → Prop}

namespace Tidy

theorem mono (h : d.Tidy p) (hpq : ∀ c, p c → q c) : d.Tidy q :=
  { h with
    columns := fun c hc => hpq c (h.columns c hc)
    aggregated := fun c hc => hpq c (h.aggregated c hc) }

theorem blank (limit : Int) : (Draft.blank limit).Tidy p where
  nodup_tables := .nil
  nodup_columns := .nil
  nodup_groupBy := .nil
  aggregates := fun _ he => absurd he List.not_mem_nil
  columns := fun _ hc => absurd hc List.not_mem_nil
  aggregated := fun _ hc => absurd hc List.not_mem_nil

theorem addTable (h : d.Tidy p) (t : TableId) : (d.addTable t).Tidy p :=
  { h with nodup_tables := nodup_insertLast h.nodup_tables t }

theorem filterColumns (h : d.Tidy p) (keep : ColumnId → Bool) : Tidy p
    { d with columns := d.columns.filter keep, aggregations := d.aggregations.filterKeys keep } :=
  { h with
    nodup_columns := h.nodup_columns.filter _
    aggregates := forall_filter h.aggregates _
    columns := forall_filter h.columns _
    aggregated := fun c hc => h.aggregated c (OrderedMap.mem_keys_filterKeys.1 hc).1 }

theorem removeTable (h : d.Tidy p) (t : TableId) : (d.removeTable t).Tidy p := by
  unfold Draft.removeTable
  split_ifs
  · exact { h.filterColumns (·.table ≠ t) with
      nodup_tables := h.nodup_tables.filter _
      nodup_groupBy := h.nodup_groupBy.filter _ }
  · exact h

theorem toggleColumn (h : d.Tidy p) {c : ColumnId} (hc : p c) : (d.toggleColumn c).Tidy p := by
  unfold Draft.toggleColumn
  split_ifs with hmem
  · exact h.filterColumns (· ≠ c)
  · exact { h.addTable c.table with
      nodup_columns := nodup_append_singleton h.nodup_columns hmem
      columns := forall_append_singleton h.columns hc }

theorem selectColumns (h : d.Tidy p) {t : TableId} {names : List String}
    (hnames : ∀ name ∈ names, p (t.column name)) : (d.selectColumns t names).Tidy p :=
  { h.addTable t with
    nodup_columns := nodup_foldl_insertLast h.nodup_columns
    columns := fun c hc => by
      rcases mem_foldl_insertLast.1 hc with hc | hc
      · exact h.columns c hc
      · obtain ⟨name, hname, rfl⟩ := List.mem_map.1 hc
        exact hnames name hname }

theorem setAggregate (h : d.Tidy p) {c : ColumnId} (hc : p c) (a : Aggregate) :
    (d.setAggregate c a).Tidy p := by
  unfold Draft.setAggregate
  split_ifs with ha
  · exact { h with
      aggregates := forall_filter h.aggregates _
      aggregated := fun c' hc' => h.aggregated c' (OrderedMap.mem_keys_filterKeys.1 hc').1 }
  · exact { h.addTable c.table with
      nodup_columns := nodup_insertLast h.nodup_columns c
      aggregates := fun e he => by
        rcases Entries.mem_of_mem_put he with he | rfl
        · exact h.aggregates e he
        · exact ha
      columns := forall_insertLast h.columns hc
      aggregated := fun c' hc' => by
        rcases OrderedMap.mem_keys_insert.1 hc' with hc' | rfl
        · exact h.aggregated c' hc'
        · exact hc }

theorem run {e : Edit} (h : d.Tidy p) (he : e.Selects p) (hrun : e.run ids d = .ok d') :
    d'.Tidy p := by
  cases e with
  | addTable t => cases hrun; exact h.addTable t
  | removeTable t => cases hrun; exact h.removeTable t
  | toggleTable t =>
    cases hrun
    unfold Draft.toggleTable
    split_ifs
    · exact h.removeTable t
    · exact h.addTable t
  | clear => cases hrun; exact blank d.limit
  | toggleColumn c => cases hrun; exact h.toggleColumn he
  | selectColumns t names => cases hrun; exact h.selectColumns he
  | deselectColumns t names => cases hrun; exact h.filterColumns _
  | setAggregate c a => cases hrun; exact h.setAggregate he a
  | addJoin j =>
    obtain ⟨_, rfl⟩ | ⟨_, _, _, _, rfl⟩ := addJoin_eq_ok_iff.1 (mapError_eq_ok_iff.1 hrun)
    · exact h
    · exact { h with }
  | updateJoin id changes =>
    obtain ⟨_, _, _, _, _, _, _, _, _, _, _, rfl⟩ := exists_of_updateJoin hrun
    exact { h with }
  | removeJoin id => cases hrun; exact { h with }
  | addFilter f =>
    obtain ⟨_, rfl⟩ := addFilter_eq_ok_iff.1 (mapError_eq_ok_iff.1 hrun)
    exact { h with }
  | updateFilter id changes =>
    obtain ⟨_, _, _, _, _, _, _, _, _, rfl⟩ := exists_of_updateFilter hrun
    exact { h with }
  | removeFilter id => cases hrun; exact { h with }
  | toggleGroupBy c =>
    obtain ⟨_, rfl⟩ | ⟨hc, _, rfl⟩ := toggleGroupBy_eq_ok_iff.1 (mapError_eq_ok_iff.1 hrun)
    · exact { h with nodup_groupBy := h.nodup_groupBy.filter _ }
    · exact { h with nodup_groupBy := nodup_append_singleton h.nodup_groupBy hc }
  | addSort s =>
    obtain ⟨_, rfl⟩ := addSort_eq_ok_iff.1 (mapError_eq_ok_iff.1 hrun)
    exact { h with }
  | updateSort id changes =>
    obtain ⟨_, _, _, _, _, _, _, _, _, rfl⟩ := exists_of_updateSort hrun
    exact { h with }
  | removeSort id => cases hrun; exact { h with }
  | addFormula f =>
    obtain ⟨_, _, rfl⟩ := addFormula_eq_ok_iff.1 (mapError_eq_ok_iff.1 hrun)
    exact { h with }
  | removeFormula id => cases hrun; exact { h with }
  | setLimit limit => cases hrun; exact { h with }
  | applyFragment fragment catalog? => exact he.elim
  | applyStarter starter catalog? => exact he.elim

/-- In a coherent draft that is spelled no column has a table whose name ends in a blank. -/
theorem of_coherent (hcoherent : d.Coherent) (hspelled : d.Meets .spelled) :
    d.Tidy fun c => c.IsSpelled ∧ c.table.EndsSolid := by
  have hcolumns : ∀ c ∈ d.columns, c.IsSpelled ∧ c.table.EndsSolid := by
    intro c hc
    have htable := hspelled.tables _ (hcoherent.columns c hc)
    exact ⟨hspelled.columns c hc, TableId.endsSolid_of_wellParted (TableId.isSpelled_iff.1 htable)⟩
  exact { hcoherent with
    columns := hcolumns
    aggregated := fun c hc => hcolumns c (hcoherent.aggregated c hc) }

end Tidy

theorem selects_of_isTextual {e : Edit} (he : e.IsTextual) (hsingle : e.IsSingle) :
    e.Selects fun c => c.IsSpelled ∧ c.table.EndsSolid := by
  cases e with
  | toggleColumn c => exact he
  | setAggregate c a => exact he
  | selectColumns t names =>
    have hwell := TableId.isSpelled_iff.1 he.1
    intro name hname
    obtain ⟨hne, hdot, hlast⟩ := he.2 name hname
    exact ⟨ColumnId.isSpelled_iff.2 (TableId.column_wellParted hwell hne hdot hlast),
      TableId.endsSolid_of_wellParted hwell⟩
  | applyFragment fragment catalog? => exact hsingle.elim
  | applyStarter starter catalog? => exact hsingle.elim
  | _ => trivial

/-! ### Fragments and runs -/

theorem spelled_of_applyFragment {fragment : List (String × Json)} {catalog? : Option Catalog}
    {r : Replay} (htidy : d.Tidy fun c => c.IsSpelled ∧ c.table.EndsSolid)
    (hfragment : IsTextual fragment) (h : d.applyFragment fragment catalog? ids = .ok r) :
    r.draft.Meets .spelled := by
  have hentries := isTextual_entries htidy.columns htidy.aggregated
  have htextual := hentries.putAll hfragment d.nodup_entries
  exact meets_of_applyFragment h fun e he _ => spelled_admits_of_replays htextual he

/-- What is kept by a run of textual edits. Columns that are solid are asked for only where a fragment
is going to select their tables. -/
def IsReloadable (replayed : Prop) (d : Draft) : Prop :=
  (d.Tidy fun c => c.IsSpelled ∧ (replayed → c.table.EndsSolid)) ∧ d.Meets .spelled

theorem isReloadable_of_coherent {replayed : Prop} (hcoherent : d.Coherent)
    (hspelled : d.Meets .spelled) : d.IsReloadable replayed :=
  ⟨(Tidy.of_coherent hcoherent hspelled).mono fun _ hc => ⟨hc.1, fun _ => hc.2⟩, hspelled⟩

theorem IsReloadable.run {replayed : Prop} {e : Edit} (h : d.IsReloadable replayed)
    (he : e.IsTextual) (hreplayed : ∀ fragment catalog?, e = .applyFragment fragment catalog? → replayed)
    (hrun : e.run ids d = .ok d') : d'.IsReloadable replayed := by
  obtain ⟨htidy, hspelled⟩ := h
  cases e with
  | applyFragment fragment catalog? =>
    obtain ⟨r, hr, rfl⟩ := map_eq_ok_iff.1 hrun
    have hsolid : d.Tidy fun c => c.IsSpelled ∧ c.table.EndsSolid :=
      htidy.mono fun c hc => ⟨hc.1, hc.2 (hreplayed fragment catalog? rfl)⟩
    exact isReloadable_of_coherent (coherent_of_applyFragment hr) (spelled_of_applyFragment hsolid he hr)
  | applyStarter starter catalog? =>
    obtain ⟨r, hr, rfl⟩ := map_eq_ok_iff.1 hrun
    have hfragment := (isTextual_limit Starter.usualLimit).putAll he (by simp)
    exact isReloadable_of_coherent (coherent_of_applyFragment hr)
      (spelled_of_applyFragment (.blank _) hfragment hr)
  | _ =>
    have hselects : Edit.Selects (fun c => c.IsSpelled ∧ (replayed → c.table.EndsSolid)) _ :=
      (selects_of_isTextual he (by trivial)).mono fun c hc => ⟨hc.1, fun _ => hc.2⟩
    have hadmits : Standard.spelled.Admits ids.id _ := spelled_admits_of_isTextual he (by trivial)
    exact ⟨htidy.run hselects hrun, hspelled.run hadmits hrun⟩

theorem IsReloadable.read_document {replayed : Prop} (h : d.IsReloadable replayed)
    (ids : IdSupply) : read ids d.document = .value d :=
  Draft.read_document (h.1.mono fun _ hc => hc.1) h.2 ids

/-- A draft that was read from a document whose tables and columns are texts, and then went through
any run of textual edits, is read back from its own document with everything in its order. Only if
a fragment is among the edits, the columns that the first document selects or aggregates must not
have a blank before the last dot. -/
theorem read_document_after {v : Json} {edits : List Edit}
    (hv : ∀ es, v.entries? = some es → HasTextNames es) (hread : read ids v = .value d)
    (hedits : ∀ e ∈ edits, e.IsTextual)
    (hsolid : (∃ fragment catalog?, .applyFragment fragment catalog? ∈ edits) →
      (∀ c ∈ d.columns, c.table.EndsSolid) ∧ ∀ c ∈ d.aggregations.keys, c.table.EndsSolid)
    (supply fresh : IdSupply) :
    read fresh (after supply 0 d edits).document = .value (after supply 0 d edits) := by
  obtain ⟨es, hes, hread⟩ := Reading.andThen_eq_value.1 hread
  have hnames := hv es (Reading.record_eq_value.1 hes)
  have htidy := tidy_of_read hnames hread
  set replayed : Prop := ∃ fragment catalog?, .applyFragment fragment catalog? ∈ edits
  have hfirst : d.IsReloadable replayed := by
    refine ⟨?_, spelled_of_read hnames hread⟩
    exact { htidy with
      columns := fun c hc => ⟨htidy.columns c hc, fun h => (hsolid h).1 c hc⟩
      aggregated := fun c hc => ⟨htidy.aggregated c hc, fun h => (hsolid h).2 c hc⟩ }
  have hstep : ∀ e ∈ edits, ∀ i d d', d.IsReloadable replayed →
      e.run (supply.branch i) d = .ok d' → d'.IsReloadable replayed := by
    intro e he i d d' hd hrun
    refine hd.run (hedits e he) (fun fragment catalog? hfragment => ?_) hrun
    exact ⟨fragment, catalog?, hfragment ▸ he⟩
  exact (after_keeps hstep 0 hfirst).read_document fresh

end Draft

namespace Sample

/-- A document under older names, with columns that are given twice. -/
def older : Json := .obj [
  ("selected_tables", .texts ["users", " public.users "]),
  ("selectedColumns", .texts ["users.country", "public.users.id", "users.id"]),
  ("aggregations", .obj [("users.id", .str "SUM"), ("public.users.id", .str "COUNT"),
    ("users.country", .str "NONE")]),
  ("filters", .arr [.obj [("column", .str "users.email"), ("operator", .str "IS NOT NULL")]]),
  ("limit", .int 20)]

def olderDraft : Draft where
  tables := [users]
  columns := [users.column "country", users.column "id"]
  aggregations := .ofList [(users.column "id", .count)]
  filters := [⟨"new", users.column "email", .isNotNull, ""⟩]
  limit := 20

theorem older_hasTextNames : ∀ es, older.entries? = some es → Draft.HasTextNames es := by
  rintro es ⟨⟩
  have htexts : ∀ {ss : List String} {v : Json}, v ∈ ss.map .str → ∃ s, v = .str s := by
    intro ss v hv
    obtain ⟨s, _, rfl⟩ := List.mem_map.1 hv
    exact ⟨s, rfl⟩
  constructor
  · rintro vs ⟨⟩ v hv
    exact htexts hv
  · rintro vs ⟨⟩ v hv
    exact htexts hv
  · rintro vs ⟨⟩
  · rintro vs ⟨⟩ v hv fields hfields
    rw [List.mem_singleton.1 hv] at hfields
    cases hfields
    exact textAt_of_all (by simp)
  · rintro vs ⟨⟩
  · rintro vs ⟨⟩

theorem read_document_after_older : Draft.read newIds older = .value olderDraft ∧
    Draft.read newIds (Draft.after newIds 0 olderDraft countUsers).document =
      .value (Draft.after newIds 0 olderDraft countUsers) := by
  have hread : Draft.read newIds older = .value olderDraft := by rfl
  have hends : ∀ name, (users.column name).table.EndsSolid :=
    fun _ => TableId.endsSolid_of_wellParted (TableId.wellParted_of_parse? (s := "users") rfl)
  have hsolid : (∀ c ∈ olderDraft.columns, c.table.EndsSolid) ∧
      ∀ c ∈ olderDraft.aggregations.keys, c.table.EndsSolid := by
    constructor
    · simp only [olderDraft, List.forall_mem_cons]
      exact ⟨hends _, hends _, by simp⟩
    · show ∀ c ∈ [users.column "id"], c.table.EndsSolid
      simpa using hends "id"
  exact ⟨hread, Draft.read_document_after older_hasTextNames hread countUsers_isTextual
    (fun _ => hsolid) newIds newIds⟩

/-- The table that a column with a blank before its last dot selects is not read back. -/
theorem read_document_after_spacedId :
    Draft.read newIds (.obj []) = .value (.blank usualLimit) ∧
    ColumnId.parse? "users .id" = some spacedId ∧
    Draft.read newIds
        (Draft.after newIds 0 (.blank usualLimit) [.toggleColumn spacedId]).document ≠
      .value (Draft.after newIds 0 (.blank usualLimit) [.toggleColumn spacedId]) := by
  have hread : Draft.read newIds
      (Draft.after newIds 0 (.blank usualLimit) [.toggleColumn spacedId]).document =
        .value { spaced with tables := [users] } := by rfl
  refine ⟨rfl, rfl, fun h => ?_⟩
  rw [hread] at h
  have htables := congrArg Draft.tables (Reading.value.inj h)
  exact absurd htables (by decide)

end Sample

end QueryDraft
