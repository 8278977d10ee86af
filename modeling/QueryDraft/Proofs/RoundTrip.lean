import Mathlib
import QueryDraft.Proofs.FragmentValid
import QueryDraft.Proofs.Legible

/-!
# Replaying a draft's own document

A coherent and legible draft whose parts the catalog knows is what the replay of its own document
makes (`applyFragment_nil`): section by section, each entry is read back and goes through its edit
after those before it. So an empty fragment changes nothing in a draft that was made by edits whose
tables and columns are texts (`applyFragment_nil_after`).
-/

namespace QueryDraft

open Reading (field)

/-! ### Parts from their documents -/

theorem Join.read_document {j : Join} (h : Standard.legible.join j) (fresh : String) :
    read fresh j.document = .value j := by
  refine Reading.andThen_eq_value.2 ⟨_, rfl, ofEntries_eq_value.2 ⟨?_, ?_, ?_, ?_, ?_, ?_⟩⟩
  · exact Reading.field_of_entry rfl rfl
  · exact Reading.field_of_entry rfl (TableId.read_str.2 (TableId.parse?_text h.1))
  · exact Reading.field_of_entry rfl rfl
  · exact Reading.field_of_entry rfl
      (Reading.member_eq_value_iff.2 ⟨_, rfl, JoinKind.ofWord?_word j.kind⟩)
  · exact Reading.field_of_entry rfl (TableId.read_str.2 (TableId.parse?_text h.2))
  · exact Reading.field_of_entry rfl rfl

theorem Filter.read_document {f : Filter} (h : WellParted f.column.parts) (fresh : String) :
    read fresh f.document = .value f := by
  refine Reading.andThen_eq_value.2 ⟨_, rfl, ofEntries_eq_value.2 ⟨?_, ?_, ?_, ?_⟩⟩
  · exact Reading.field_of_entry rfl rfl
  · exact Reading.field_of_entry rfl (ColumnId.read_str.2 (ColumnId.parse?_text h))
  · exact Reading.field_of_entry rfl
      (Reading.member_eq_value_iff.2 ⟨_, rfl, Operator.ofWord?_word f.operator⟩)
  · exact Reading.field_of_entry rfl rfl

theorem SortKey.read_document {s : SortKey} (h : WellParted s.column.parts) (fresh : String) :
    read fresh s.document = .value s := by
  refine Reading.andThen_eq_value.2 ⟨_, rfl, ofEntries_eq_value.2 ⟨?_, ?_, ?_⟩⟩
  · exact Reading.field_of_entry rfl rfl
  · exact Reading.field_of_entry rfl (ColumnId.read_str.2 (ColumnId.parse?_text h))
  · exact Reading.field_of_entry rfl
      (Reading.member_eq_value_iff.2 ⟨_, rfl, Direction.ofWord?_word s.direction⟩)

theorem Formula.read_document (f : Formula) (fresh : String) : read fresh f.document = .value f := by
  refine Reading.andThen_eq_value.2 ⟨_, rfl, ofEntries_eq_value.2 ⟨?_, ?_, ?_⟩⟩ <;>
    exact Reading.field_of_entry rfl rfl

theorem Argument.aggregate_word (a : Aggregate) : aggregate (.str a.word) = .ok a := by
  simp [aggregate, member, Aggregate.ofWord?_word]

theorem OrderedMap.ofList_entries {κ ν : Type} [DecidableEq κ] (m : OrderedMap κ ν) :
    ofList m.entries = m := ext (Entries.merge_of_nodup m.nodup_keys)

theorem OrderedMap.insert_ofList {κ ν : Type} [DecidableEq κ] (es : List (κ × ν)) (k : κ) (v : ν) :
    (ofList es).insert k v = ofList (es ++ [(k, v)]) := by
  apply ext
  show Entries.put (Entries.merge es) k v = Entries.merge (es ++ [(k, v)])
  simp [Entries.merge, Entries.putAll]

namespace Draft

variable {catalog? : Option Catalog} {d : Draft} {ids : IdSupply} {dropped : List EntryKind}

theorem idOr_of_ne_empty {fresh id : String} (h : id ≠ "") : idOr fresh id = id := by
  unfold idOr
  rw [if_neg fun hid => h (String.isEmpty_iff.1 hid)]

theorem addTable_of_mem {t : TableId} (h : t ∈ d.tables) : d.addTable t = d := by
  unfold addTable insertLast
  rw [if_pos h]

theorem toggleColumn_of_table_mem (d : Draft) {c : ColumnId} (hnew : c ∉ d.columns)
    (h : c.table ∈ d.tables) :
    d.toggleColumn c = { d with columns := d.columns ++ [c] } := by
  rw [toggleColumn, if_neg hnew, addTable_of_mem h]

theorem setAggregate_of_mem (d : Draft) {c : ColumnId} {a : Aggregate} (ha : a ≠ .none)
    (hc : c ∈ d.columns) (h : c.table ∈ d.tables) :
    d.setAggregate c a = { d with aggregations := d.aggregations.insert c a } := by
  rw [setAggregate, if_neg ha, addTable_of_mem h, insertLast, if_pos hc]

theorem knownColumn_text {c : ColumnId} (hc : WellParted c.parts)
    (hknown : knowsColumn catalog? c = true) : knownColumn catalog? (.str c.text) = .ok c :=
  knownColumn_eq_ok_iff.2 ⟨Argument.column_eq_ok_iff.2 ⟨_, rfl, ColumnId.parse?_text hc⟩, hknown⟩

/-! ### One section

Entries that their steps accept one after the other make a section of just these. -/

theorem replayEach_map {α β : Type} {kind : EntryKind} {shown : α → Json}
    {step : String → α → Draft → Except Failure Draft} {doc : β → α} {xs : List β}
    (build : List β → Draft) (hstep : ∀ before x after, xs = before ++ x :: after → ∀ fresh,
      step fresh (doc x) (build before) = .ok (build (before ++ [x]))) (ids : IdSupply) :
    replayEach kind shown step ids 0 (xs.map doc) ⟨build [], dropped⟩ = .ok ⟨build xs, dropped⟩ := by
  have hrest : ∀ (rest before : List β) (i : Nat), xs = before ++ rest →
      replayEach kind shown step ids i (rest.map doc) ⟨build before, dropped⟩ = .ok ⟨build xs, dropped⟩ := by
    intro rest
    induction rest with
    | nil =>
      intro before i hxs
      rw [hxs, List.append_nil]
      rfl
    | cons x rest ih =>
      intro before i hxs
      rw [List.map_cons, replayEach]
      simp only [hstep before x rest hxs]
      exact ih (before ++ [x]) (i + 1) (by rw [hxs, List.append_assoc]; rfl)
  exact hrest xs [] 0 rfl

section sections

variable (hcoherent : d.Coherent) (hknown : d.Meets (.known catalog?)) (b : Draft)

include hcoherent hknown

theorem replay_tables (hlegible : ∀ t ∈ d.tables, WellParted t.parts) :
    replayEach .table id (fun _ => replayTable catalog?) ids 0
      (d.tables.map fun t => .str t.text) ⟨{ b with tables := [] }, dropped⟩ =
        .ok ⟨{ b with tables := d.tables }, dropped⟩ := by
  refine replayEach_map (fun ts => { b with tables := ts }) (fun before t after ht _ => ?_) ids
  have hmem : t ∈ d.tables := by simp [ht]
  have hread : Argument.table (.str t.text) = .ok t :=
    Argument.table_eq_ok_iff.2 ⟨_, rfl, TableId.parse?_text (hlegible t hmem)⟩
  have hnew := not_mem_of_nodup_append hcoherent.nodup_tables ht
  have hk : knowsTable catalog? t = true := hknown.tables t hmem
  refine bind_eq_ok_iff.2 ⟨t, hread, ?_⟩
  rw [if_pos hk, addTable, insertLast, if_neg hnew]
  rfl

theorem replay_columns (hlegible : ∀ c ∈ d.columns, WellParted c.parts)
    (htables : b.tables = d.tables) :
    replayEach .column id (fun _ => replayColumn catalog?) ids 0
      (d.columns.map fun c => .str c.text) ⟨{ b with columns := [] }, dropped⟩ =
        .ok ⟨{ b with columns := d.columns }, dropped⟩ := by
  refine replayEach_map (fun cs => { b with columns := cs }) (fun before c after hc _ => ?_) ids
  have hmem : c ∈ d.columns := by simp [hc]
  have hnew := not_mem_of_nodup_append hcoherent.nodup_columns hc
  have htable : c.table ∈ b.tables := htables ▸ hcoherent.columns c hmem
  refine bind_eq_ok_iff.2
    ⟨c, knownColumn_text (hlegible c hmem) (hknown.columns c hmem), ?_⟩
  rw [if_neg hnew]
  have htoggle := toggleColumn_of_table_mem { b with columns := before } hnew htable
  exact pure_eq_ok_iff.2 htoggle.symm

theorem replay_aggregations (hlegible : ∀ c ∈ d.columns, WellParted c.parts)
    (htables : b.tables = d.tables) (hcolumns : b.columns = d.columns) :
    replayEach .aggregation Prod.fst (fun _ => replayAggregation catalog?) ids 0
      (d.aggregationEntries.map fun (k, v) => (.str k, v)) ⟨{ b with aggregations := ∅ }, dropped⟩ =
        .ok ⟨{ b with aggregations := d.aggregations }, dropped⟩ := by
  have hspelled : ∀ c ∈ d.aggregations.keys, c.IsSpelled := fun c hc =>
    ColumnId.isSpelled_iff.2 (hlegible c (hcoherent.aggregated c hc))
  rw [aggregationEntries_of_isSpelled hspelled, List.map_map]
  have h : replayEach .aggregation Prod.fst (fun _ => replayAggregation catalog?) ids 0
      (d.aggregations.entries.map fun e => (.str e.1.text, .str e.2.word))
      ⟨{ b with aggregations := .ofList [] }, dropped⟩ =
        .ok ⟨{ b with aggregations := .ofList d.aggregations.entries }, dropped⟩ := by
    refine replayEach_map (fun es => { b with aggregations := .ofList es }) ?_ ids
    rintro before ⟨c, a⟩ after hc _
    have hentry : (c, a) ∈ d.aggregations.entries := by simp [hc]
    have hmem : c ∈ d.columns := hcoherent.aggregated c (List.mem_map_of_mem hentry)
    have hcolumn : c ∈ b.columns := hcolumns ▸ hmem
    have htable : c.table ∈ b.tables := htables ▸ hcoherent.columns c hmem
    refine bind_eq_ok_iff.2
      ⟨c, knownColumn_text (hlegible c hmem) (hknown.columns c hmem), ?_⟩
    refine bind_eq_ok_iff.2 ⟨a, Argument.aggregate_word a, ?_⟩
    rw [← OrderedMap.insert_ofList]
    have hset := setAggregate_of_mem { b with aggregations := .ofList before }
      (hcoherent.aggregates _ hentry) hcolumn htable
    exact pure_eq_ok_iff.2 hset.symm
  rw [OrderedMap.ofList_entries] at h
  exact h

theorem replay_joins (hlegible : ∀ j ∈ d.joins, Standard.legible.join j)
    (htables : b.tables = d.tables) :
    replayEach .join id (replayJoin catalog?) ids 0 (d.joins.map Join.document)
      ⟨{ b with joins := [] }, dropped⟩ = .ok ⟨{ b with joins := d.joins }, dropped⟩ := by
  refine replayEach_map (fun js => { b with joins := js }) (fun before j after hj fresh => ?_)
    ids
  have hmem : j ∈ d.joins := by simp [hj]
  have hnew : j.id ∉ before.map Join.id :=
    not_mem_of_nodup_append hcoherent.nodup_joins (by rw [hj, List.map_append, List.map_cons])
  have hends := hcoherent.joins j hmem
  have hread := Reading.orFail_eq_ok_iff.2 (Join.read_document (hlegible j hmem) fresh)
  refine bind_eq_ok_iff.2 ⟨j, hread, ?_⟩
  rw [(hknown.joins j hmem).1, (hknown.joins j hmem).2]
  refine mapError_eq_ok_iff.2 (addJoin_eq_ok_iff.2 (.inr ⟨hnew, hcoherent.noLoops j hmem, ?_, ?_, rfl⟩))
  · exact htables ▸ hends.1
  · exact htables ▸ hends.2

theorem replay_filters (hlegible : ∀ f ∈ d.filters, Standard.legible.filter f)
    (htables : b.tables = d.tables) :
    replayEach .filter id (replayFilter catalog?) ids 0 (d.filters.map Filter.document)
      ⟨{ b with filters := [] }, dropped⟩ = .ok ⟨{ b with filters := d.filters }, dropped⟩ := by
  refine replayEach_map (fun fs => { b with filters := fs })
    (fun before f after hf fresh => ?_) ids
  have hmem : f ∈ d.filters := by simp [hf]
  obtain ⟨hwell, hid⟩ := hlegible f hmem
  have hread := Reading.orFail_eq_ok_iff.2 (Filter.read_document hwell fresh)
  refine bind_eq_ok_iff.2 ⟨f, hread, ?_⟩
  rw [hknown.filters f hmem, idOr_of_ne_empty hid]
  exact mapError_eq_ok_iff.2 (addFilter_eq_ok_iff.2 ⟨htables ▸ hcoherent.filters f hmem, rfl⟩)

theorem replay_groupBy (hlegible : ∀ c ∈ d.groupBy, WellParted c.parts)
    (htables : b.tables = d.tables) :
    replayEach .groupBy id (fun _ => replayGroupBy catalog?) ids 0
      (d.groupBy.map fun c => .str c.text) ⟨{ b with groupBy := [] }, dropped⟩ =
        .ok ⟨{ b with groupBy := d.groupBy }, dropped⟩ := by
  refine replayEach_map (fun cs => { b with groupBy := cs }) (fun before c after hc _ => ?_) ids
  have hmem : c ∈ d.groupBy := by simp [hc]
  have hnew := not_mem_of_nodup_append hcoherent.nodup_groupBy hc
  have htable : c.table ∈ b.tables := htables ▸ hcoherent.groupBy c hmem
  refine bind_eq_ok_iff.2
    ⟨c, knownColumn_text (hlegible c hmem) (hknown.groupBy c hmem), ?_⟩
  rw [if_neg hnew]
  exact mapError_eq_ok_iff.2 (toggleGroupBy_eq_ok_iff.2 (.inr ⟨hnew, htable, rfl⟩))

theorem replay_sorts (hlegible : ∀ s ∈ d.orderBy, Standard.legible.sort s)
    (htables : b.tables = d.tables) :
    replayEach .orderBy id (replaySort catalog?) ids 0 (d.orderBy.map SortKey.document)
      ⟨{ b with orderBy := [] }, dropped⟩ = .ok ⟨{ b with orderBy := d.orderBy }, dropped⟩ := by
  refine replayEach_map (fun ss => { b with orderBy := ss })
    (fun before s after hs fresh => ?_) ids
  have hmem : s ∈ d.orderBy := by simp [hs]
  obtain ⟨hwell, hid⟩ := hlegible s hmem
  have hread := Reading.orFail_eq_ok_iff.2 (SortKey.read_document hwell fresh)
  refine bind_eq_ok_iff.2 ⟨s, hread, ?_⟩
  rw [hknown.orderBy s hmem, idOr_of_ne_empty hid]
  exact mapError_eq_ok_iff.2 (addSort_eq_ok_iff.2 ⟨htables ▸ hcoherent.orderBy s hmem, rfl⟩)

omit hknown in
theorem replay_formulas (hlegible : ∀ f ∈ d.formulas, Standard.legible.formula f) :
    replayEach .formula id replayFormula ids 0 (d.formulas.map Formula.document)
    ⟨{ b with formulas := [] }, dropped⟩ = .ok ⟨{ b with formulas := d.formulas }, dropped⟩ := by
  refine replayEach_map (fun fs => { b with formulas := fs })
    (fun before f after hf fresh => ?_) ids
  have hmem : f ∈ d.formulas := by simp [hf]
  obtain ⟨hid, hname, hexpression⟩ := hlegible f hmem
  have hsound := hcoherent.formulas f hmem
  have hfault : formulaFault? f.name f.expression = none := formulaFault?_eq_none_iff.2
    ⟨Text.isBlankText_of_ne_empty hsound.name_ne hsound.unbroken, hsound.expressed, hsound.balanced⟩
  have hnew : f.name ∉ before.map Formula.name :=
    not_mem_of_nodup_append hcoherent.nodup_names (by rw [hf, List.map_append, List.map_cons])
  refine bind_eq_ok_iff.2 ⟨f, Reading.orFail_eq_ok_iff.2 (Formula.read_document f fresh), ?_⟩
  rw [idOr_of_ne_empty hid]
  refine mapError_eq_ok_iff.2 (addFormula_eq_ok_iff.2 ⟨hfault, ?_, ?_⟩)
  · rwa [hname]
  · simp only [hname, hexpression]

end sections

/-! ### The whole document -/

theorem applyFragment_nil (hlegible : d.Meets .legible) (hcoherent : d.Coherent)
    (hknown : d.Meets (.known catalog?)) (ids : IdSupply) :
    d.applyFragment [] catalog? ids = .ok { draft := d } := by
  simp only [applyFragment, replaySection, bind_eq_ok_iff]
  have hentries : Entries.putAll d.entries [] = d.entries := rfl
  rw [hentries]
  let b₁ : Draft := { blank d.limit with tables := d.tables }
  let b₂ : Draft := { b₁ with columns := d.columns }
  let b₃ : Draft := { b₂ with aggregations := d.aggregations }
  let b₄ : Draft := { b₃ with joins := d.joins }
  let b₅ : Draft := { b₄ with filters := d.filters }
  let b₆ : Draft := { b₅ with groupBy := d.groupBy }
  let b₇ : Draft := { b₆ with orderBy := d.orderBy }
  refine ⟨_, ⟨_, sectionItems_tables d, replay_tables hcoherent hknown (blank d.limit) hlegible.tables⟩,
    _, ⟨_, sectionItems_columns d, replay_columns hcoherent hknown b₁ hlegible.columns rfl⟩,
    _, sectionEntries_aggregations d, _, replay_aggregations hcoherent hknown b₂ hlegible.columns rfl rfl,
    _, ⟨_, sectionItems_joins d, replay_joins hcoherent hknown b₃ hlegible.joins rfl⟩,
    _, ⟨_, sectionItems_filters d, replay_filters hcoherent hknown b₄ hlegible.filters rfl⟩,
    _, ⟨_, sectionItems_groupBy d, replay_groupBy hcoherent hknown b₅ hlegible.groupBy rfl⟩,
    _, ⟨_, sectionItems_orderBy d, replay_sorts hcoherent hknown b₆ hlegible.orderBy rfl⟩,
    _, ⟨_, sectionItems_formulas d, replay_formulas hcoherent b₇ hlegible.formulas⟩, ?_⟩
  rfl

/-- An empty fragment leaves a draft as it is, with the order and the ids of all its parts, if the
draft was made by edits whose tables and columns are texts. Under a catalog this needs its references
to be in order. -/
theorem applyFragment_nil_after {ids : IdSupply} {edits : List Edit}
    (hids : ∀ path, ids.label path ≠ "") (hedits : ∀ e ∈ edits, e.IsTextual) (limit : Int)
    (fresh : IdSupply) :
    (after ids 0 (blank limit) edits).applyFragment [] none fresh =
      .ok { draft := after ids 0 (blank limit) edits } ∧
    ∀ catalog, (after ids 0 (blank limit) edits).referenceFaults catalog = [] →
      (after ids 0 (blank limit) edits).applyFragment [] (some catalog) fresh =
        .ok { draft := after ids 0 (blank limit) edits } := by
  have hcoherent : (after ids 0 (blank limit) edits).Coherent :=
    coherent_after 0 (coherent_blank limit) edits
  have hlegible : (after ids 0 (blank limit) edits).Meets .legible :=
    legible_after hids hedits 0 (meets_blank _ limit) (coherent_blank limit)
  refine ⟨applyFragment_nil hlegible hcoherent (meets_known_none _) fresh, fun catalog hvalid => ?_⟩
  exact applyFragment_nil hlegible hcoherent ((referenceFaults_eq_nil_iff hcoherent).1 hvalid) fresh

end Draft

namespace Sample

def users : TableId := ⟨"public", "users"⟩

def newIds : IdSupply := ⟨fun _ => "new"⟩

/-- Counts the users by country. -/
def countUsers : List Edit := [
  .addTable users,
  .toggleColumn (users.column "country"),
  .setAggregate (users.column "id") .count,
  .toggleGroupBy (users.column "country"),
  .addFilter ⟨"", users.column "email", .isNotNull, ""⟩,
  .addFormula ⟨"", " Since When ", " MIN(created_at) "⟩,
  .applyFragment [("limit", .int 20)] none]

theorem countUsers_isTextual : ∀ e ∈ countUsers, e.IsTextual := by
  have hends : ∀ name, (users.column name).table.EndsSolid := by
    intro name
    have hlast : "users".toList.getLast? = some 's' := rfl
    show ∀ c ∈ "users".toList.getLast?, Text.isBlank c = false
    rw [hlast]
    rintro c ⟨⟩
    decide
  simp only [countUsers, List.forall_mem_cons]
  refine ⟨⟨"users", rfl⟩, ⟨⟨"users.country", rfl⟩, hends _⟩, ⟨⟨"users.id", rfl⟩, hends _⟩,
    ⟨"users.country", rfl⟩, ⟨"users.email", rfl⟩, trivial, Draft.isTextual_limit 20, by simp⟩

theorem applyFragment_nil_countUsers :
    (Draft.after newIds 0 (.blank 100) countUsers).referenceFaults .shop = [] ∧
      (Draft.after newIds 0 (.blank 100) countUsers).applyFragment [] (some .shop) newIds =
        .ok { draft := Draft.after newIds 0 (.blank 100) countUsers } := by
  have hvalid : (Draft.after newIds 0 (.blank 100) countUsers).referenceFaults .shop = [] := by rfl
  have hids : ∀ path, newIds.label path ≠ "" := fun _ => (by decide : "new" ≠ "")
  refine ⟨hvalid, ?_⟩
  exact (Draft.applyFragment_nil_after hids countUsers_isTextual 100 newIds).2 .shop hvalid

/-- A column whose text has a blank before its last dot. -/
def spacedId : ColumnId := ⟨⟨"public", "users "⟩, "id"⟩

/-- The table of such a column is selected under a name that is not read back: replaying the draft
selects a second table. -/
theorem applyFragment_nil_spacedId : ColumnId.parse? "users .id" = some spacedId ∧
    ((Edit.toggleColumn spacedId).run newIds (.blank 100)).toOption.map Draft.tables =
      some [spacedId.table] ∧
    ((Draft.after newIds 0 (.blank 100) [.toggleColumn spacedId]).applyFragment [] none
        newIds).toOption.map (·.draft.tables) = some [users, spacedId.table] ∧
    (Draft.after newIds 0 (.blank 100) [.toggleColumn spacedId]).applyFragment [] none newIds ≠
      .ok { draft := Draft.after newIds 0 (.blank 100) [.toggleColumn spacedId] } := by
  have hrun : (Draft.after newIds 0 (.blank 100) [.toggleColumn spacedId]).applyFragment [] none newIds =
      .ok { draft := { tables := [users, spacedId.table], columns := [spacedId] } } := by rfl
  refine ⟨rfl, rfl, by rw [hrun]; rfl, fun h => ?_⟩
  rw [hrun] at h
  have htables : [users, spacedId.table] = [spacedId.table] :=
    congrArg (fun r => (r.toOption.map (·.draft.tables)).getD []) h
  exact absurd htables (by decide)

end Sample

end QueryDraft
