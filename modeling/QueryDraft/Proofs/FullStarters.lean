import Mathlib
import QueryDraft.Proofs.CanonicalText
import QueryDraft.Proofs.FragmentTwice
import QueryDraft.Proofs.SelectList
import QueryDraft.Proofs.ValidEdits

/-!
# Starters are applied in full

In a catalog whose names are plain the texts that a starter gives to the replay are read back, and
what it selects is known, so every entry of its fragment is kept and the query compiles; a count
compiles to the count of its key (`applied_in_full`). One starter is not kept: to count the rows of a
table without a primary key it takes a column `id`, for which it does not look. The replay drops that
column and its aggregate, and the table is left (`apply_count_of_not_keyed`).
-/

namespace QueryDraft

open Sql

/-- Not empty, and without dots and blanks. -/
def IsPlainName (s : String) : Prop := s ≠ "" ∧ ∀ c ∈ s.toList, c ≠ '.' ∧ Text.isBlank c = false

/-- The tables of the catalog are all different, and all names in it are plain. -/
structure Catalog.IsPlain (c : Catalog) : Prop where
  distinct : c.tableIds.Nodup
  schemas : ∀ t ∈ c.tables, IsPlainName t.schema
  tables : ∀ t ∈ c.tables, IsPlainName t.name
  columns : ∀ t ∈ c.tables, ∀ k ∈ t.columns, IsPlainName k.name

/-- The rows of the table can be counted: it has a primary key or a column `id`. -/
def Table.IsKeyed (t : Table) : Prop := (∃ k ∈ t.columns, k.isPrimaryKey = true) ∨ t.hasColumn "id" = true

namespace IsPlainName

variable {s : String}

theorem dotless (h : IsPlainName s) : '.' ∉ s.toList := fun hmem => (h.2 '.' hmem).1 rfl

theorem head (h : IsPlainName s) : ∀ c ∈ s.toList.head?, Text.isBlank c = false :=
  fun c hc => (h.2 c (List.mem_of_mem_head? hc)).2

theorem last (h : IsPlainName s) : ∀ c ∈ s.toList.getLast?, Text.isBlank c = false :=
  fun c hc => (h.2 c (List.mem_of_mem_getLast? hc)).2

theorem parts_ne (h : IsPlainName s) : ∀ p ∈ s.toList.splitOn '.', p ≠ [] := by
  rw [List.splitOn_eq_singleton h.dotless, List.forall_mem_singleton]
  exact toList_ne_nil_iff.2 h.1

theorem of_all (hne : s ≠ "") (h : (s.toList.all fun c => c != '.' && !Text.isBlank c) = true) :
    IsPlainName s := by
  refine ⟨hne, fun c hc => ?_⟩
  have hchar := List.all_eq_true.1 h c hc
  rw [Bool.and_eq_true, bne_iff_ne, Bool.not_eq_true'] at hchar
  exact hchar

theorem id : IsPlainName "id" := of_all (by decide) rfl

end IsPlainName

theorem TableId.isWellNamed_of_plain {t : TableId} (hschema : IsPlainName t.schema)
    (htable : IsPlainName t.table) : t.IsWellNamed :=
  ⟨hschema.1, hschema.dotless, hschema.head, htable.parts_ne, htable.last⟩

theorem ColumnId.isWellNamed_of_plain {c : ColumnId} (hschema : IsPlainName c.table.schema)
    (htable : IsPlainName c.table.table) (hname : IsPlainName c.name) : c.IsWellNamed :=
  ⟨hschema.1, hschema.dotless, hschema.head, htable.parts_ne, hname.1, hname.dotless, hname.last⟩

namespace Catalog.IsPlain

variable {catalog : Catalog} {t : Table} {name : String}

theorem parse?_id_text (h : catalog.IsPlain) (ht : t ∈ catalog.tables) :
    TableId.parse? t.id.text = some t.id :=
  TableId.parse?_text_iff.2 (TableId.isWellNamed_of_plain (h.schemas t ht) (h.tables t ht))

theorem parse?_column_text (h : catalog.IsPlain) (ht : t ∈ catalog.tables) (hname : IsPlainName name) :
    ColumnId.parse? (t.id.column name).text = some (t.id.column name) :=
  ColumnId.parse?_text_iff.2 (ColumnId.isWellNamed_of_plain (h.schemas t ht) (h.tables t ht) hname)

theorem isPlainName_of_hasColumn (h : catalog.IsPlain) (ht : t ∈ catalog.tables)
    (hcolumn : t.hasColumn name = true) : IsPlainName name := by
  obtain ⟨k, hk⟩ := Option.isSome_iff_exists.1 hcolumn
  have hname : k.name = name := by simpa using List.find?_some hk
  exact hname ▸ h.columns t ht k (List.mem_of_find?_eq_some hk)

end Catalog.IsPlain

namespace Draft

variable {catalog : Catalog} {d d' : Draft} {ids : IdSupply}

/-! ### Sections of one entry -/

section single

variable {α : Type} {kind : EntryKind} {shown : α → Json}
  {step : String → α → Draft → Except Failure Draft} {v : α} {r : Replay}

theorem replayEach_of_ok (h : step (ids.branch 0).id v r.draft = .ok d') :
    replayEach kind shown step ids 0 [v] r = .ok { r with draft := d' } :=
  replayEach_cons_eq_ok_iff.2 (.inl ⟨d', h, rfl⟩)

theorem replayEach_of_error {e : Failure} (h : step (ids.branch 0).id v r.draft = .error e)
    (he : e.isDroppable = true) (hshown : (shown v).isShowable = true) :
    replayEach kind shown step ids 0 [v] r = .ok { r with dropped := r.dropped ++ [kind] } :=
  replayEach_cons_eq_ok_iff.2 (.inr ⟨e, h, he, hshown, rfl⟩)

end single

section plain

variable (hplain : catalog.IsPlain) {t : Table} (ht : t ∈ catalog.tables)

include hplain ht

theorem replayTable_id : replayTable (some catalog) (.str t.id.text) d = .ok (d.addTable t.id) := by
  have hread : Argument.table (.str t.id.text) = .ok t.id :=
    Argument.table_eq_ok_iff.2 ⟨_, rfl, hplain.parse?_id_text ht⟩
  have hknown : knowsTable (some catalog) t.id = true := by
    show catalog.hasTable t.id = true
    rw [Catalog.hasTable, Catalog.table?_id hplain.distinct ht, Option.isSome_some]
  refine bind_eq_ok_iff.2 ⟨t.id, hread, ?_⟩
  rw [if_pos hknown]
  rfl

theorem knowsColumn_column (name : String) :
    knowsColumn (some catalog) (t.id.column name) = t.hasColumn name := by
  show (catalog.column? (t.id.column name)).isSome = _
  rw [Catalog.column?_id hplain.distinct ht]
  rfl

theorem knownColumn_of_hasColumn {name : String} (h : t.hasColumn name = true) :
    knownColumn (some catalog) (.str (t.id.column name).text) = .ok (t.id.column name) := by
  have hname := hplain.isPlainName_of_hasColumn ht h
  refine knownColumn_eq_ok_iff.2 ⟨?_, by rw [knowsColumn_column hplain ht, h]⟩
  exact Argument.column_eq_ok_iff.2 ⟨_, rfl, hplain.parse?_column_text ht hname⟩

theorem knownColumn_of_not_hasColumn {name : String} (hname : IsPlainName name)
    (h : t.hasColumn name = false) :
    knownColumn (some catalog) (.str (t.id.column name).text) = .error .notInCatalog := by
  have hread : Argument.column (.str (t.id.column name).text) = .ok (t.id.column name) :=
    Argument.column_eq_ok_iff.2 ⟨_, rfl, hplain.parse?_column_text ht hname⟩
  have hknown : knowsColumn (some catalog) (t.id.column name) = false := by
    rw [knowsColumn_column hplain ht, h]
  unfold knownColumn
  rw [hread]
  show (if knowsColumn (some catalog) (t.id.column name) = true then _ else _) = _
  rw [hknown]
  rfl

end plain

end Draft

namespace Starter

open Draft

variable {catalog : Catalog} {t : Table} {d : Draft} {ids : IdSupply}

/-! ### Sections of a starter -/

/-- The document of a starter, with the usual limit unless it has one. -/
def sections (s : Starter) : List (String × Json) :=
  Entries.putAll [("limit", .int usualLimit)] s.fragment

theorem replaySection_of_nil {es : List (String × Json)} {name : String} {kind : EntryKind}
    {step : String → Json → Draft → Except Failure Draft} (r : Replay)
    (h : sectionItems es name = .ok []) : replaySection es name kind ids step r = .ok r :=
  bind_eq_ok_iff.2 ⟨[], h, rfl⟩

/-- Sections that the starter does not have are those of a cleared draft, which are empty. -/
theorem apply_of_selectsFrom {s : Starter} {catalog? : Option Catalog} {limit : Int} {r r' : Replay}
    (hjoins : Entries.last? s.sections "joins" = none)
    (hfilters : Entries.last? s.sections "filters" = none)
    (hgroupBy : Entries.last? s.sections "groupBy" = none)
    (hformulas : Entries.last? s.sections "calculatedColumns" = none)
    (hlimit : Entries.last? s.sections "limit" = some (.int limit))
    (hselects : SelectsFrom catalog? ids (Entries.putAll d.clear.entries s.sections) d.limit r)
    (hsorts : replaySection (Entries.putAll d.clear.entries s.sections) "orderBy" .orderBy
      (ids.branch 2) (replaySort catalog?) r = .ok r') :
    s.apply d catalog? ids = .ok { r' with draft := r'.draft.setLimit limit } := by
  have hnodup := nodup_entries d.clear
  refine applyFragment_eq_ok_iff.2 ⟨r, hselects, r, replaySection_of_nil r ?_,
    r, replaySection_of_nil r ?_, r, replaySection_of_nil r ?_, r', hsorts,
    r', replaySection_of_nil r' ?_, ?_⟩
  · exact (sectionItems_putAll_of_none hnodup hjoins).trans (sectionItems_joins d.clear)
  · exact (sectionItems_putAll_of_none hnodup hfilters).trans (sectionItems_filters d.clear)
  · exact (sectionItems_putAll_of_none hnodup hgroupBy).trans (sectionItems_groupBy d.clear)
  · exact (sectionItems_putAll_of_none hnodup hformulas).trans (sectionItems_formulas d.clear)
  · have hsection : sectionLimit? (Entries.putAll d.clear.entries s.sections) = some limit := by
      rw [sectionLimit?_putAll_of_some hlimit, sectionLimit?, hlimit]
    rw [sections] at hsection
    rw [hsection]

/-! ### The four starters -/

/-- The draft that counts by a column. -/
def counting (c : ColumnId) : Draft where
  tables := [c.table]
  columns := [c]
  aggregations := .ofList [(c, .count)]
  limit := 10

/-- The column that rows are counted by. -/
def countKey (t : Table) : String := ((t.columns.find? (·.isPrimaryKey)).map Column.name).getD "id"

theorem hasColumn_countKey (h : t.IsKeyed) : t.hasColumn (countKey t) = true := by
  unfold countKey
  cases hkey : t.columns.find? (·.isPrimaryKey) with
  | some k =>
    exact List.find?_isSome.2 ⟨k, List.mem_of_find?_eq_some hkey, beq_self_eq_true k.name⟩
  | none =>
    rcases h with ⟨k, hk, hprimary⟩ | hid
    · exact absurd hprimary (List.find?_eq_none.1 hkey k hk)
    · exact hid

theorem countKey_of_not_keyed (h : ¬ t.IsKeyed) : countKey t = "id" ∧ t.hasColumn "id" = false := by
  obtain ⟨hprimary, hid⟩ := not_or.1 h
  have hnone : t.columns.find? (·.isPrimaryKey) = none :=
    List.find?_eq_none.2 fun k hk hkey => hprimary ⟨k, hk, hkey⟩
  rw [countKey, hnone]
  exact ⟨rfl, Bool.eq_false_iff.2 hid⟩

section plain

variable (hplain : catalog.IsPlain) (ht : t ∈ catalog.tables)

include hplain ht

theorem replay_selecting {es : List (String × Json)} (limit : Int)
    (hes : sectionItems es "selectedTables" = .ok [.str t.id.text]) :
    replaySection es "selectedTables" .table ids (fun _ => replayTable (some catalog))
      ⟨blank limit, []⟩ = .ok ⟨{ blank limit with tables := [t.id] }, []⟩ :=
  bind_eq_ok_iff.2 ⟨_, hes, replayEach_of_ok (replayTable_id hplain ht)⟩

theorem apply_list (d : Draft) (ids : IdSupply) : (list t).apply d (some catalog) ids =
    .ok { draft := { tables := [t.id], limit := 10 } } := by
  have hselects : SelectsFrom (some catalog) ids (Entries.putAll d.clear.entries (list t).sections)
      d.limit ⟨{ blank d.limit with tables := [t.id] }, []⟩ :=
    ⟨_, replay_selecting hplain ht _ rfl, _, rfl, _, rfl, rfl⟩
  exact apply_of_selectsFrom rfl rfl rfl rfl rfl hselects rfl

theorem apply_count (hkeyed : t.IsKeyed) (d : Draft) (ids : IdSupply) :
    (count t).apply d (some catalog) ids = .ok { draft := counting (t.id.column (countKey t)) } := by
  set c := t.id.column (countKey t)
  have hknown : knownColumn (some catalog) (.str c.text) = .ok c :=
    knownColumn_of_hasColumn hplain ht (hasColumn_countKey hkeyed)
  let b : Draft := { blank d.limit with tables := [t.id] }
  have htable : c.table ∈ b.tables := List.mem_singleton_self _
  have hcolumn : replayColumn (some catalog) (.str c.text) b = .ok { b with columns := [c] } := by
    have hnew : c ∉ b.columns := List.not_mem_nil
    refine bind_eq_ok_iff.2 ⟨c, hknown, pure_eq_ok_iff.2 ?_⟩
    rw [if_neg hnew, toggleColumn_of_table_mem b hnew htable]
    rfl
  have haggregate : replayAggregation (some catalog) (.str c.text, .str Aggregate.count.word)
      { b with columns := [c] } =
        .ok { b with columns := [c], aggregations := .ofList [(c, .count)] } := by
    refine bind_eq_ok_iff.2 ⟨c, hknown, bind_eq_ok_iff.2 ⟨.count, Argument.aggregate_word _, ?_⟩⟩
    have hset := setAggregate_of_mem (a := .count) { b with columns := [c] } (by decide)
      (List.mem_singleton_self c) htable
    exact pure_eq_ok_iff.2 hset.symm
  have hselects : SelectsFrom (some catalog) ids (Entries.putAll d.clear.entries (count t).sections)
      d.limit ⟨{ b with columns := [c], aggregations := .ofList [(c, .count)] }, []⟩ :=
    ⟨_, replay_selecting hplain ht _ rfl, _, bind_eq_ok_iff.2 ⟨_, rfl, replayEach_of_ok hcolumn⟩,
      _, rfl, replayEach_of_ok haggregate⟩
  exact apply_of_selectsFrom rfl rfl rfl rfl rfl hselects rfl

/-- Without a key the column that would be counted is not known, and both its entries are dropped. -/
theorem apply_count_of_not_keyed (hkeyed : ¬ t.IsKeyed) (d : Draft) (ids : IdSupply) :
    (count t).apply d (some catalog) ids = .ok {
      draft := { tables := [t.id], limit := 10 }
      dropped := [.column, .aggregation] } := by
  have hunknown : knownColumn (some catalog) (.str (t.id.column (countKey t)).text) =
      .error .notInCatalog := by
    obtain ⟨hkey, hid⟩ := countKey_of_not_keyed hkeyed
    rw [hkey]
    exact knownColumn_of_not_hasColumn hplain ht .id hid
  let b : Draft := { blank d.limit with tables := [t.id] }
  have hcolumn : replayColumn (some catalog) (.str (t.id.column (countKey t)).text) b =
      .error .notInCatalog := by
    unfold replayColumn
    rw [hunknown]
    rfl
  have haggregate : replayAggregation (some catalog)
      (.str (t.id.column (countKey t)).text, .str Aggregate.count.word) b = .error .notInCatalog := by
    unfold replayAggregation
    rw [hunknown]
    rfl
  have hselects : SelectsFrom (some catalog) ids (Entries.putAll d.clear.entries (count t).sections)
      d.limit ⟨b, [.column, .aggregation]⟩ :=
    ⟨_, replay_selecting hplain ht _ rfl,
      _, bind_eq_ok_iff.2 ⟨_, rfl, replayEach_of_error hcolumn rfl rfl⟩,
      _, rfl, replayEach_of_error haggregate rfl rfl⟩
  exact apply_of_selectsFrom rfl rfl rfl rfl rfl hselects rfl

theorem read_recent (fresh : String) (hcreated : t.hasColumn "created_at" = true) :
    SortKey.read fresh (.obj [("column", .str (t.id.column "created_at").text),
      ("direction", .str Direction.desc.word)]) = .value ⟨fresh, t.id.column "created_at", .desc⟩ := by
  have hparse := hplain.parse?_column_text ht (hplain.isPlainName_of_hasColumn ht hcreated)
  refine Reading.andThen_eq_value.2 ⟨_, rfl, SortKey.ofEntries_eq_value.2 ⟨?_, ?_, ?_⟩⟩
  · exact Reading.field_eq_value.2 (.inr ⟨rfl, rfl⟩)
  · exact Reading.field_of_entry rfl (ColumnId.read_str.2 hparse)
  · exact Reading.field_of_entry rfl
      (Reading.member_eq_value_iff.2 ⟨_, rfl, Direction.ofWord?_word .desc⟩)

theorem apply_recent (hcreated : t.hasColumn "created_at" = true) (d : Draft) (ids : IdSupply) :
    (recent t).apply d (some catalog) ids = .ok { draft := {
      tables := [t.id]
      orderBy := [⟨((ids.branch 2).branch 0).id, t.id.column "created_at", .desc⟩]
      limit := 20 } } := by
  set fresh := ((ids.branch 2).branch 0).id
  let b : Draft := { blank d.limit with tables := [t.id] }
  let s : SortKey := ⟨fresh, t.id.column "created_at", .desc⟩
  have hread := read_recent hplain ht fresh hcreated
  have hsort : replaySort (some catalog) fresh (.obj [("column", .str (t.id.column "created_at").text),
      ("direction", .str Direction.desc.word)]) b = .ok { b with orderBy := [s] } := by
    have hid : idOr fresh fresh = fresh := ite_self _
    have hknown : knowsColumn (some catalog) s.column = true := by
      rw [knowsColumn_column hplain ht, hcreated]
    refine bind_eq_ok_iff.2 ⟨s, Reading.orFail_eq_ok_iff.2 hread, ?_⟩
    rw [if_pos hknown]
    refine mapError_eq_ok_iff.2 (addSort_eq_ok_iff.2 ⟨List.mem_singleton_self _, ?_⟩)
    rw [hid]
    rfl
  have hselects : SelectsFrom (some catalog) ids (Entries.putAll d.clear.entries (recent t).sections)
      d.limit ⟨b, []⟩ := ⟨_, replay_selecting hplain ht _ rfl, _, rfl, _, rfl, rfl⟩
  have hsorts : replaySection (Entries.putAll d.clear.entries (recent t).sections) "orderBy" .orderBy
      (ids.branch 2) (replaySort (some catalog)) ⟨b, []⟩ = .ok ⟨{ b with orderBy := [s] }, []⟩ :=
    bind_eq_ok_iff.2 ⟨_, rfl, replayEach_of_ok hsort⟩
  exact apply_of_selectsFrom rfl rfl rfl rfl rfl hselects hsorts

end plain

theorem mem_forCatalog {s : Starter} (h : s ∈ forCatalog catalog) : ∃ t ∈ catalog.tables,
    s = list t ∨ s = count t ∨ (s = recent t ∧ t.hasColumn "created_at" = true) ∨ s = explore t := by
  unfold forCatalog at h
  extract_lets found at h
  split_ifs at h
  · obtain ⟨t, ht, rfl⟩ := List.mem_map.1 h
    exact ⟨t, List.mem_of_mem_take ht, .inr (.inr (.inr rfl))⟩
  · rw [List.mem_append, List.mem_append, Option.mem_toList, Option.mem_toList,
      Option.mem_toList] at h
    rcases h with (h | h) | h
    · obtain ⟨t, ht, rfl⟩ := Option.map_eq_some_iff.1 h
      exact ⟨t, List.mem_of_find?_eq_some ht, .inl rfl⟩
    · obtain ⟨t, ht, rfl⟩ := Option.map_eq_some_iff.1 h
      exact ⟨t, List.mem_of_find?_eq_some ht, .inr (.inl rfl)⟩
    · obtain ⟨t, ht, rfl⟩ := Option.map_eq_some_iff.1 h
      have hcreated : t.hasColumn "created_at" = true :=
        List.find?_some (p := fun t : Table => t.hasColumn "created_at") ht
      exact ⟨t, List.mem_of_find?_eq_some ht, .inr (.inr (.inl ⟨rfl, hcreated⟩))⟩

/-! ### Their queries -/

theorem lt_pow_maxDigits {limit : Int} (h : limit < 100) : limit < 10 ^ Text.maxDigits :=
  calc limit
    _ < 10 ^ 2 := h
    _ ≤ 10 ^ Text.maxDigits := pow_le_pow_right₀ (by decide) (by decide)

/-- What the replay of a starter has kept refers to the catalog, so only a rule could be broken. -/
theorem exists_compile_of_apply {s : Starter} {r : Replay}
    (h : s.apply d (some catalog) ids = .ok r) (hlimit : r.draft.limit < 100)
    (htables : r.draft.tables ≠ [])
    (hfilters : r.draft.filters = []) (hformulas : r.draft.formulas = [])
    (hgrouped : ∀ c, r.draft.isGrouped = true → ¬ r.draft.IsPlain catalog c) :
    ∃ q, r.draft.compile catalog = .ok q := by
  have hgrounded : r.draft.Grounded catalog := Grounded.of_applyFragment h
  refine exists_compile_iff.2 ⟨htables, grounded_iff.1 hgrounded, ?_, lt_pow_maxDigits hlimit⟩
  rintro ⟨fault, hbreaks⟩
  cases hbreaks with
  | blankAlias hf _ =>
    rw [hformulas] at hf
    cases hf
  | repeatedAlias hname =>
    rw [hformulas] at hname
    cases hname
  | ungrouped hisGrouped hc _ => exact hgrouped _ hisGrouped hc
  | noValues hf _ _ =>
    rw [hfilters] at hf
    cases hf

theorem aggregate_counting (c : ColumnId) : (counting c).aggregate c = .count := by
  show ((Entries.first? [(c, Aggregate.count)] c).getD .none) = .count
  rw [Entries.first?_cons, if_pos rfl, Option.getD_some]

theorem groups_alone (t : TableId) : groups t [t] [] = [{ root := t }] := by
  have hgrow : Group.grow { root := t } [] = ({ root := t }, []) := by
    rw [Group.grow]
    rfl
  rw [groups, Group.spread_of_grow_nil hgrow, addLoners_cons]
  simp [Group.tables, addLoners]

theorem selectClause_counting (c : ColumnId) :
    selectClause [(SelectItem.aggregate c .count (c.name ++ "_count")).sql] =
      "SELECT COUNT(" ++ c.text ++ ") AS " ++ c.name ++ "_count" := by
  have hcount : "SELECT COUNT(" = "SELECT " ++ ("COUNT" ++ "(") := rfl
  have hitem : (SelectItem.aggregate c .count (c.name ++ "_count")).sql =
      "COUNT" ++ "(" ++ c.text ++ ") AS " ++ (c.name ++ "_count") := by
    rw [SelectItem.sql, columnItem, if_neg (by decide)]
    rfl
  rw [selectClause, hitem, String.intercalate_singleton, hcount]
  simp only [String.append_assoc]

theorem eq_of_selectItems_counting {c : ColumnId} {items : List SelectItem}
    (h : (counting c).selectItems catalog = .ok items) :
    items = [.aggregate c .count (c.name ++ "_count")] := by
  rcases selectItems_eq_ok_iff.1 h with ⟨hbare, -⟩ | ⟨-, -, rfl⟩
  · exact absurd hbare.1 (List.cons_ne_nil c [])
  · have hresult : (counting c).resultColumns catalog = [c] := by
      show insertLast [c] c = [c]
      rw [insertLast, if_pos (List.mem_singleton_self c)]
    have hname : freeAlias [] c .count = c.name ++ "_count" := by
      have hcount : "_" ++ Text.lowercase "COUNT" = "_count" := rfl
      rw [← hcount, ← String.append_assoc, freeAlias]
      exact if_neg List.not_mem_nil
    rw [hresult]
    show (counting c).columnItems [] [c] ++ [] = _
    rw [List.append_nil, columnItems, aggregate_counting, if_neg (by decide)]
    exact congrArg (fun name => [SelectItem.aggregate c .count name]) hname

theorem sql_counting {c : ColumnId} {q : Compiled} (h : (counting c).compile catalog = .ok q) :
    q.sql = "SELECT COUNT(" ++ c.text ++ ") AS " ++ c.name ++ "_count FROM " ++ c.table.text ++
      " LIMIT 10" := by
  have hbase : (counting c).base? = some c.table := rfl
  obtain ⟨_, _, items, conditions, hitems, hconditions, rfl⟩ := parts_of_compile hbase h
  have hconditions : conditions = [] := (Except.ok.inj hconditions).symm
  have hgroups : groups c.table (counting c).tables (counting c).joins = [{ root := c.table }] :=
    groups_alone c.table
  rw [eq_of_selectItems_counting hitems, hconditions, hgroups]
  have hselect := selectClause_counting c
  have hfrom : fromClause ([{ root := c.table }].map Group.sql) = "FROM " ++ c.table.text := by
    simp [fromClause, Group.sql, fromItem]
  have hlimit : limitClause 10 = "LIMIT 10" := rfl
  have hbehind (s : String) : "_count FROM " ++ s = "_count " ++ ("FROM " ++ s) := by
    rw [← String.append_assoc]
    rfl
  show assemble [selectClause [(SelectItem.aggregate c .count (c.name ++ "_count")).sql],
    fromClause ([{ root := c.table }].map Group.sql), "", "", "", limitClause 10] = _
  rw [hselect, hfrom, hlimit]
  simp [assemble, String.append_assoc, hbehind]

/-! ### In full -/

theorem readDistinct_singleton {α : Type} [DecidableEq α] {read : Json → Reading α} {j : Json} {x : α}
    (h : read j = .value x) : readDistinct read (.arr [j]) = .value [x] := by
  let doc : α → Json := fun _ => j
  have hdoc : ∀ y ∈ [x], read (doc y) = .value y := List.forall_mem_singleton.2 h
  exact readDistinct_map (List.nodup_singleton x) hdoc

/-- The replay has kept every entry of the starter, and the draft has nothing else. -/
structure InFull (s : Starter) (ids : IdSupply) (r : Replay) : Prop where
  read : Draft.read ids (.obj s.sections) = .value r.draft
  dropped : r.dropped = []
  bare : r.draft.joins = [] ∧ r.draft.filters = [] ∧ r.draft.groupBy = [] ∧ r.draft.formulas = []

section plain

variable (hplain : catalog.IsPlain) (ht : t ∈ catalog.tables)

include hplain ht

theorem read_selecting {es : List (String × Json)}
    (hes : Entries.last? es "selectedTables" = some (.texts [t.id.text])) :
    Reading.field ⟨"selectedTables", "selected_tables"⟩ (some []) (readDistinct TableId.read) es =
      .value [t.id] := by
  have hread : readDistinct TableId.read (.texts [t.id.text]) = .value [t.id] :=
    readDistinct_singleton (TableId.read_str.2 (hplain.parse?_id_text ht))
  exact Reading.field_of_entry (Option.or_eq_some_iff.2 (.inl hes)) hread

theorem inFull_list : (list t).InFull ids { draft := { tables := [t.id], limit := 10 } } where
  read := Reading.andThen_eq_value.2 ⟨_, rfl, ofEntries_eq_value.2
    ⟨read_selecting hplain ht rfl, rfl, rfl, rfl, rfl, rfl, rfl, rfl, rfl⟩⟩
  dropped := rfl
  bare := ⟨rfl, rfl, rfl, rfl⟩

theorem inFull_count (hkeyed : t.IsKeyed) :
    (count t).InFull ids { draft := counting (t.id.column (countKey t)) } where
  read := by
    set c := t.id.column (countKey t)
    have hname := hplain.isPlainName_of_hasColumn ht (hasColumn_countKey hkeyed)
    have hparse : ColumnId.parse? c.text = some c := hplain.parse?_column_text ht hname
    have hcolumns : readDistinct ColumnId.read (.texts [c.text]) = .value [c] :=
      readDistinct_singleton (ColumnId.read_str.2 hparse)
    have haggregations : readAggregations (.obj [(c.text, .str Aggregate.count.word)]) =
        .value (.ofList [(c, .count)]) := by
      have hspelled : ∀ e ∈ [(c, Aggregate.count)], e.1.IsSpelled :=
        List.forall_mem_singleton.2 ⟨c.text, hparse⟩
      have hentries : readEntries [(c.text, .str Aggregate.count.word)] = .value [(c, .count)] :=
        readEntries_texts hspelled
      refine Reading.andThen_eq_value.2 ⟨_, rfl, Reading.map_eq_value.2 ⟨_, hentries, ?_⟩⟩
      rfl
    refine Reading.andThen_eq_value.2 ⟨_, rfl, ofEntries_eq_value.2
      ⟨read_selecting hplain ht rfl, ?_, ?_, rfl, rfl, rfl, rfl, rfl, rfl⟩⟩
    · exact Reading.field_of_entry rfl hcolumns
    · exact Reading.field_of_entry rfl haggregations
  dropped := rfl
  bare := ⟨rfl, rfl, rfl, rfl⟩

theorem inFull_recent (hcreated : t.hasColumn "created_at" = true) :
    (recent t).InFull ids { draft := {
      tables := [t.id]
      orderBy := [⟨((ids.branch 2).branch 0).id, t.id.column "created_at", .desc⟩]
      limit := 20 } } where
  read := by
    have hsort := read_recent hplain ht ((ids.branch 2).branch 0).id hcreated
    refine Reading.andThen_eq_value.2 ⟨_, rfl, ofEntries_eq_value.2
      ⟨read_selecting hplain ht rfl, rfl, rfl, rfl, rfl, rfl, ?_, rfl, rfl⟩⟩
    refine Reading.field_of_entry rfl ?_
    show List.cons <$> (SortKey.read _ _).under _ <*> Reading.value [] = _
    rw [hsort]
    rfl
  dropped := rfl
  bare := ⟨rfl, rfl, rfl, rfl⟩

end plain

theorem not_isPlain_counting (c k : ColumnId) : ¬ (counting c).IsPlain catalog k := by
  rintro ⟨haggregate, hk⟩
  have hk : k ∈ [c] := hk
  rw [List.mem_singleton.1 hk, aggregate_counting] at haggregate
  cases haggregate

theorem ne_count_of_keys {s : Starter} {keys : List String} (h : s.fragment.map Prod.fst = keys)
    (hkeys : keys ≠ ["selectedTables", "selectedColumns", "aggregations"]) (t : Table) :
    s ≠ count t := by
  rintro rfl
  exact hkeys h.symm

theorem eq_of_count_eq (hplain : catalog.IsPlain) {u : Table} (ht : t ∈ catalog.tables)
    (hu : u ∈ catalog.tables) (h : count t = count u) : t = u := by
  have hfragment : (count t).fragment.head? = (count u).fragment.head? := by rw [h]
  have htext : t.id.text = u.id.text := by
    have hselecting : selecting t = selecting u := Option.some.inj hfragment
    simpa [selecting, Json.texts] using hselecting
  have hid := hplain.parse?_id_text ht
  rw [htext, hplain.parse?_id_text hu] at hid
  exact (Catalog.eq_of_id_eq hplain.distinct hu ht (Option.some.inj hid)).symm

/-- What becomes of a starter: it has a query, and it is kept in full unless it counts the rows of a
table without a key. A count is the query it should be, or only the table is left of it. -/
structure Applied (catalog : Catalog) (s : Starter) (ids : IdSupply) (r : Replay) (q : Compiled) :
    Prop where
  compiles : r.draft.compile catalog = .ok q
  inFull : (∀ t ∈ catalog.tables, s = count t → t.IsKeyed) → s.InFull ids r
  counts : ∀ t ∈ catalog.tables, s = count t → t.IsKeyed → t.hasColumn (countKey t) = true ∧
    q.sql = "SELECT COUNT(" ++ (t.id.column (countKey t)).text ++ ") AS " ++ countKey t ++
      "_count FROM " ++ t.id.text ++ " LIMIT 10"
  keyless : ∀ t ∈ catalog.tables, s = count t → ¬ t.IsKeyed →
    r.draft = { tables := [t.id], limit := 10 } ∧ r.dropped = [.column, .aggregation]

theorem exists_applied_of_inFull {s : Starter} {r : Replay}
    (h : s.apply d (some catalog) ids = .ok r) (hfull : s.InFull ids r)
    (hlimit : r.draft.limit < 100) (htables : r.draft.tables ≠ []) (hgrouped : r.draft.isGrouped = false)
    (hcount : ∀ t, s ≠ count t) :
    ∃ r q, s.apply d (some catalog) ids = .ok r ∧ Applied catalog s ids r q := by
  obtain ⟨-, hfilters, -, hformulas⟩ := hfull.bare
  obtain ⟨q, hq⟩ : ∃ q, r.draft.compile catalog = .ok q :=
    exists_compile_of_apply h hlimit htables hfilters hformulas fun c hisGrouped => by
      rw [hgrouped] at hisGrouped
      cases hisGrouped
  exact ⟨r, q, h, {
    compiles := hq
    inFull := fun _ => hfull
    counts := fun t _ hs => absurd hs (hcount t)
    keyless := fun t _ hs => absurd hs (hcount t) }⟩

theorem exists_applied_count (hplain : catalog.IsPlain) (ht : t ∈ catalog.tables) (d : Draft)
    (ids : IdSupply) :
    ∃ r q, (count t).apply d (some catalog) ids = .ok r ∧ Applied catalog (count t) ids r q := by
  have hten : (10 : Int) < 100 := by decide
  by_cases hkeyed : t.IsKeyed
  · have happly := apply_count hplain ht hkeyed d ids
    obtain ⟨q, hq⟩ : ∃ q, (counting (t.id.column (countKey t))).compile catalog = .ok q :=
      exists_compile_of_apply happly hten (List.cons_ne_nil _ _) rfl rfl fun k _ =>
        not_isPlain_counting _ k
    refine ⟨_, q, happly, hq, fun _ => inFull_count hplain ht hkeyed, fun u hu hcount _ => ?_,
      fun u hu hcount hnot => ?_⟩
    · obtain rfl := eq_of_count_eq hplain ht hu hcount
      exact ⟨hasColumn_countKey hkeyed, sql_counting hq⟩
    · obtain rfl := eq_of_count_eq hplain ht hu hcount
      exact absurd hkeyed hnot
  · have happly := apply_count_of_not_keyed hplain ht hkeyed d ids
    obtain ⟨q, hq⟩ := exists_compile_of_apply happly hten (List.cons_ne_nil _ _) rfl rfl
      fun _ h => nomatch h
    refine ⟨_, q, happly, hq, fun hall => absurd (hall t ht rfl) hkeyed, fun u hu hcount hu' => ?_,
      fun u hu hcount _ => ?_⟩
    · obtain rfl := eq_of_count_eq hplain ht hu hcount
      exact absurd hu' hkeyed
    · obtain rfl := eq_of_count_eq hplain ht hu hcount
      exact ⟨rfl, rfl⟩

/-- With plain names, every starter for a catalog is applied in full to every draft, and its query
compiles, a count to the count of its key; but of a count without a key, only the table is left. -/
theorem applied_in_full (hplain : catalog.IsPlain) {s : Starter} (hs : s ∈ forCatalog catalog)
    (d : Draft) (ids : IdSupply) :
    ∃ r q, s.apply d (some catalog) ids = .ok r ∧ Applied catalog s ids r q := by
  have hten : (10 : Int) < 100 := by decide
  have htwenty : (20 : Int) < 100 := by decide
  obtain ⟨t, ht, rfl | rfl | ⟨rfl, hcreated⟩ | rfl⟩ := mem_forCatalog hs
  · have hkeys : (list t).fragment.map Prod.fst = ["selectedTables", "limit"] := rfl
    exact exists_applied_of_inFull (apply_list hplain ht d ids) (inFull_list hplain ht)
      hten (List.cons_ne_nil _ _) rfl (ne_count_of_keys hkeys (by decide))
  · exact exists_applied_count hplain ht d ids
  · have hkeys : (recent t).fragment.map Prod.fst = ["selectedTables", "orderBy", "limit"] := rfl
    exact exists_applied_of_inFull (apply_recent hplain ht hcreated d ids)
      (inFull_recent hplain ht hcreated) htwenty (List.cons_ne_nil _ _) rfl
      (ne_count_of_keys hkeys (by decide))
  · have hkeys : (explore t).fragment.map Prod.fst = ["selectedTables", "limit"] := rfl
    have hfull : (explore t).InFull ids { draft := { tables := [t.id], limit := 10 } } :=
      { inFull_list hplain ht with }
    exact exists_applied_of_inFull (apply_list hplain ht d ids) hfull hten
      (List.cons_ne_nil _ _) rfl (ne_count_of_keys hkeys (by decide))

end Starter

namespace Sample

/-- A catalog of orders with one column. -/
def ordersWith (column : String) : Catalog where
  name := "orders"
  tables := [{ name := "orders", columns := [{ name := column }] }]

theorem isPlain_ordersWith {column : String} (h : IsPlainName column) :
    (ordersWith column).IsPlain := by
  have hpublic : IsPlainName "public" := .of_all (by decide) rfl
  have horders : IsPlainName "orders" := .of_all (by decide) rfl
  constructor
  · exact List.nodup_singleton _
  · exact List.forall_mem_singleton.2 hpublic
  · exact List.forall_mem_singleton.2 horders
  · exact List.forall_mem_singleton.2 (List.forall_mem_singleton.2 h)

def countOrders (column : String) : Starter :=
  .count { name := "orders", columns := [{ name := column }] }

theorem applied_in_full_id : (ordersWith "id").IsPlain ∧
    countOrders "id" ∈ Starter.forCatalog (ordersWith "id") ∧
    ∃ r q, (countOrders "id").apply sales (some (ordersWith "id")) newIds = .ok r ∧
      Starter.Applied (ordersWith "id") (countOrders "id") newIds r q ∧
      q.sql = "SELECT COUNT(public.orders.id) AS id_count FROM public.orders LIMIT 10" := by
  have hplain := isPlain_ordersWith .id
  have hstarters : Starter.forCatalog (ordersWith "id") = [countOrders "id"] := by rfl
  have hmem : countOrders "id" ∈ Starter.forCatalog (ordersWith "id") := by
    rw [hstarters]
    exact List.mem_singleton_self _
  obtain ⟨r, q, hr, happlied⟩ := Starter.applied_in_full hplain hmem sales newIds
  obtain ⟨-, hsql⟩ := happlied.counts _ (List.mem_singleton_self _) rfl (.inr rfl)
  exact ⟨hplain, hmem, r, q, hr, happlied, hsql⟩

/-- The count is by a column `id`, which the table does not have, and nothing is counted. -/
theorem applied_in_full_code : (ordersWith "code").IsPlain ∧
    Starter.forCatalog (ordersWith "code") = [countOrders "code"] ∧
    Draft.read newIds (.obj (countOrders "code").sections) =
      .value (Starter.counting ⟨⟨"public", "orders"⟩, "id"⟩) ∧
    (countOrders "code").apply (.blank 5) (some (ordersWith "code")) newIds = .ok {
      draft := { tables := [⟨"public", "orders"⟩], limit := 10 }
      dropped := [.column, .aggregation] } := by
  have hcode : IsPlainName "code" := .of_all (by decide) rfl
  exact ⟨isPlain_ordersWith hcode, by rfl, by rfl, by rfl⟩

end Sample

end QueryDraft
