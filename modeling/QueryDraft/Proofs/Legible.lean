import Mathlib
import QueryDraft.Proofs.Coherent
import QueryDraft.Proofs.IdentifierText
import QueryDraft.Proofs.Standards

/-!
# Legible drafts

A draft is spelled if each of its tables and columns is what some text stands for
(`Standard.spelled`), and legible if a replay of its document gives back each of its parts besides
(`Standard.legible`). Edits whose tables and columns are given as texts keep a draft spelled and
legible (`legible_after`), the one exception being columns that select their table under a name
that ends in a blank (`Edit.IsTextual`).
-/

namespace QueryDraft

open Reading (FieldName)

/-! ### The sections of a draft's document -/

namespace Draft

variable {es more : List (String × Json)} {name : String}

theorem nodup_entries (d : Draft) : (d.entries.map Prod.fst).Nodup := by
  show ["selectedTables", "selectedColumns", "aggregations", "joins", "filters", "groupBy",
    "orderBy", "calculatedColumns", "limit"].Nodup
  decide

theorem sectionItems_of_last? {vs : List Json} (h : Entries.last? es name = some (.arr vs)) :
    sectionItems es name = .ok vs := by
  unfold sectionItems
  rw [h]
  cases vs <;> rfl

section merged

variable {more : List (String × Json)} {name : String} {v : Json}

theorem sectionItems_putAll_of_some (h : (es.map Prod.fst).Nodup)
    (hmore : Entries.last? more name = some v) :
    sectionItems (Entries.putAll es more) name = sectionItems more name := by
  rw [sectionItems, Entries.last?_putAll h, hmore, Option.some_or, sectionItems, hmore]

theorem sectionItems_putAll_of_none (h : (es.map Prod.fst).Nodup)
    (hmore : Entries.last? more name = none) :
    sectionItems (Entries.putAll es more) name = sectionItems es name := by
  rw [sectionItems, Entries.last?_putAll h, hmore, Option.none_or, sectionItems]

theorem sectionEntries_putAll_of_some (h : (es.map Prod.fst).Nodup)
    (hmore : Entries.last? more name = some v) :
    sectionEntries (Entries.putAll es more) name = sectionEntries more name := by
  rw [sectionEntries, Entries.last?_putAll h, hmore, Option.some_or, sectionEntries, hmore]

theorem sectionEntries_putAll_of_none (h : (es.map Prod.fst).Nodup)
    (hmore : Entries.last? more name = none) :
    sectionEntries (Entries.putAll es more) name = sectionEntries es name := by
  rw [sectionEntries, Entries.last?_putAll h, hmore, Option.none_or, sectionEntries]

end merged

variable (d : Draft)

theorem sectionItems_tables :
    sectionItems d.entries "selectedTables" = .ok (d.tables.map fun t => .str t.text) := by
  rw [sectionItems_of_last? rfl, List.map_map]
  rfl

theorem sectionItems_columns :
    sectionItems d.entries "selectedColumns" = .ok (d.columns.map fun c => .str c.text) := by
  rw [sectionItems_of_last? rfl, List.map_map]
  rfl

theorem sectionItems_joins : sectionItems d.entries "joins" = .ok (d.joins.map Join.document) :=
  sectionItems_of_last? rfl

theorem sectionItems_filters :
    sectionItems d.entries "filters" = .ok (d.filters.map Filter.document) :=
  sectionItems_of_last? rfl

theorem sectionItems_groupBy :
    sectionItems d.entries "groupBy" = .ok (d.groupBy.map fun c => .str c.text) := by
  rw [sectionItems_of_last? rfl, List.map_map]
  rfl

theorem sectionItems_orderBy :
    sectionItems d.entries "orderBy" = .ok (d.orderBy.map SortKey.document) :=
  sectionItems_of_last? rfl

theorem sectionItems_formulas :
    sectionItems d.entries "calculatedColumns" = .ok (d.formulas.map Formula.document) :=
  sectionItems_of_last? rfl

theorem nodup_aggregationEntries : (d.aggregationEntries.map Prod.fst).Nodup :=
  Entries.nodup_putAll (by simp) _

theorem sectionEntries_aggregations : sectionEntries d.entries "aggregations" =
    .ok (d.aggregationEntries.map fun (k, v) => (.str k, v)) := by
  have hlast : Entries.last? d.entries "aggregations" = some (.obj d.aggregationEntries) := rfl
  have hmerge := Entries.merge_of_nodup d.nodup_aggregationEntries
  unfold sectionEntries
  rw [hlast]
  show (if d.aggregationEntries.isEmpty then _ else _) = _
  split_ifs with hempty
  · rw [List.isEmpty_iff.1 hempty]
    rfl
  · show Except.ok ((Entries.merge d.aggregationEntries).map _) = _
    rw [hmerge]

end Draft

/-! ### What is legible -/

def Standard.spelled : Standard where
  table t := t.IsSpelled
  column c := c.IsSpelled
  join j := j.source.table.IsSpelled ∧ j.target.table.IsSpelled
  filter f := f.column.IsSpelled
  sort s := s.column.IsSpelled
  formula _ := True

def Standard.legible : Standard where
  table t := WellParted t.parts
  column c := WellParted c.parts
  join j := WellParted j.source.table.parts ∧ WellParted j.target.table.parts
  filter f := WellParted f.column.parts ∧ f.id ≠ ""
  sort s := WellParted s.column.parts ∧ s.id ≠ ""
  formula f := f.id ≠ "" ∧ Text.sanitizeAlias f.name = f.name ∧ Text.strip f.expression = f.expression

/-- The entry of a field, if there is one, is a text. -/
def TextAt (name : FieldName) (es : List (String × Json)) : Prop :=
  ∀ v, name.entry? es = some v → ∃ s, v = .str s

namespace Draft

def EachItem (es : List (String × Json)) (name : String) (p : Json → Prop) : Prop :=
  ∀ vs, sectionItems es name = .ok vs → ∀ v ∈ vs, p v

/-- Where a document names a table or a column, it does so by text, and columns that select their
table have none whose name ends in a blank. -/
structure IsTextual (es : List (String × Json)) : Prop where
  columns : EachItem es "selectedColumns" fun v => ∀ c, Argument.column v = .ok c → c.table.EndsSolid
  aggregations : ∀ ps, sectionEntries es "aggregations" = .ok ps → ∀ p ∈ ps, ∀ c,
    Argument.column p.1 = .ok c → c.table.EndsSolid
  joins : EachItem es "joins" fun v => ∀ fields, v.entries? = some fields →
    TextAt ⟨"fromTable", "from_table"⟩ fields ∧ TextAt ⟨"toTable", "to_table"⟩ fields
  filters : EachItem es "filters" fun v => ∀ fields, v.entries? = some fields →
    TextAt ⟨"column", "column"⟩ fields
  orderBy : EachItem es "orderBy" fun v => ∀ fields, v.entries? = some fields →
    TextAt ⟨"column", "column"⟩ fields

end Draft

/-- The tables and columns of an edit are given as texts, the names of columns are such as a text can
end with, and columns that select their table have none whose name ends in a blank. -/
def Edit.IsTextual : Edit → Prop
  | addTable t | toggleTable t => ∃ s, TableId.parse? s = some t
  | toggleColumn c | setAggregate c _ => (∃ s, ColumnId.parse? s = some c) ∧ c.table.EndsSolid
  | selectColumns t names => (∃ s, TableId.parse? s = some t) ∧ ∀ name ∈ names,
      name ≠ "" ∧ '.' ∉ name.toList ∧ ∀ a ∈ name.toList.getLast?, Text.isBlank a = false
  | addJoin j => (∃ s, TableId.parse? s = some j.source.table) ∧
      ∃ s, TableId.parse? s = some j.target.table
  | updateJoin _ changes =>
      TextAt ⟨"fromTable", "from_table"⟩ changes ∧ TextAt ⟨"toTable", "to_table"⟩ changes
  | addFilter f => ∃ s, ColumnId.parse? s = some f.column
  | toggleGroupBy c => ∃ s, ColumnId.parse? s = some c
  | addSort k => ∃ s, ColumnId.parse? s = some k.column
  | updateFilter _ changes | updateSort _ changes => TextAt ⟨"column", "column"⟩ changes
  | applyFragment fragment _ => Draft.IsTextual fragment
  | applyStarter starter _ => Draft.IsTextual starter.fragment
  | _ => True

/-! ### Fields that are texts -/

section fields

variable {name : FieldName} {es fields changes : List (String × Json)}

theorem textAt_of_all (h : ∀ e ∈ es, ∃ s, e.2 = .str s) : TextAt name es := by
  intro v hv
  rcases Option.or_eq_some_iff.1 hv with hv | ⟨_, hv⟩
  · exact h _ (Entries.mem_of_last? hv)
  · exact h _ (Entries.mem_of_last? hv)

theorem textAt_plainEntries (j : Join) : TextAt name j.plainEntries :=
  textAt_of_all (by simp [Join.plainEntries])

theorem textAt_filterEntries (f : Filter) : TextAt name f.entries :=
  textAt_of_all (by simp [Filter.entries])

theorem textAt_sortEntries (s : SortKey) : TextAt name s.entries :=
  textAt_of_all (by simp [SortKey.entries])

theorem TextAt.changed (hfields : TextAt name fields) (hchanges : TextAt name changes)
    (hnodup : (fields.map Prod.fst).Nodup) (hdocument : name.document ≠ "id")
    (hplain : name.plain ≠ "id") (id : String) : TextAt name (Draft.changed fields changes id) := by
  intro v hv
  unfold FieldName.entry? at hv
  rw [Draft.last?_changed hnodup, Draft.last?_changed hnodup, if_neg hdocument, if_neg hplain] at hv
  -- the entries in the order in which they count; which of the two lists has the one that does
  cases hcd : Entries.last? changes name.document with
  | some w => exact hchanges v (by simpa [FieldName.entry?, hcd] using hv)
  | none =>
    cases hfd : Entries.last? fields name.document with
    | some w => exact hfields v (by simpa [FieldName.entry?, hcd, hfd] using hv)
    | none =>
      cases hcp : Entries.last? changes name.plain with
      | some w => exact hchanges v (by simpa [FieldName.entry?, hcd, hfd, hcp] using hv)
      | none => exact hfields v (by simpa [FieldName.entry?, hcd, hfd, hcp] using hv)

theorem TextAt.table {t : TableId} (h : TextAt name es)
    (hread : Reading.field name none TableId.read es = .value t) : t.IsSpelled := by
  rcases Reading.field_eq_value.1 hread with ⟨v, hv, ht⟩ | ⟨_, hnone⟩
  · obtain ⟨s, rfl⟩ := h v hv
    exact ⟨s, TableId.read_str.1 ht⟩
  · cases hnone

theorem TextAt.column {c : ColumnId} (h : TextAt name es)
    (hread : Reading.field name none ColumnId.read es = .value c) : c.IsSpelled := by
  rcases Reading.field_eq_value.1 hread with ⟨v, hv, hc⟩ | ⟨_, hnone⟩
  · obtain ⟨s, rfl⟩ := h v hv
    exact ⟨s, ColumnId.read_str.1 hc⟩
  · cases hnone

end fields

section parts

variable {v : Json} {fresh : String}

theorem Join.spelled_of_read {j : Join} (hv : ∀ fields, v.entries? = some fields →
    TextAt ⟨"fromTable", "from_table"⟩ fields ∧ TextAt ⟨"toTable", "to_table"⟩ fields)
    (hread : read fresh v = .value j) : Standard.spelled.join j := by
  obtain ⟨fields, hfields, hread⟩ := Reading.andThen_eq_value.1 hread
  obtain ⟨hfrom, hto⟩ := hv fields (Reading.record_eq_value.1 hfields)
  obtain ⟨_, hsource, _, _, htarget, _⟩ := ofEntries_eq_value.1 hread
  exact ⟨hfrom.table hsource, hto.table htarget⟩

theorem Filter.spelled_of_read {f : Filter}
    (hv : ∀ fields, v.entries? = some fields → TextAt ⟨"column", "column"⟩ fields)
    (hread : read fresh v = .value f) : f.column.IsSpelled := by
  obtain ⟨fields, hfields, hread⟩ := Reading.andThen_eq_value.1 hread
  have htext := hv fields (Reading.record_eq_value.1 hfields)
  exact htext.column (ofEntries_eq_value.1 hread).2.1

theorem SortKey.spelled_of_read {s : SortKey}
    (hv : ∀ fields, v.entries? = some fields → TextAt ⟨"column", "column"⟩ fields)
    (hread : read fresh v = .value s) : s.column.IsSpelled := by
  obtain ⟨fields, hfields, hread⟩ := Reading.andThen_eq_value.1 hread
  have htext := hv fields (Reading.record_eq_value.1 hfields)
  exact htext.column (ofEntries_eq_value.1 hread).2.1

end parts

/-! ### Edits -/

namespace Draft

variable {d d' : Draft} {ids : IdSupply} {fresh : String} {es more : List (String × Json)}

theorem isSpelled_of_column {v : Json} {c : ColumnId} (h : Argument.column v = .ok c) :
    c.IsSpelled := by
  obtain ⟨s, _, hs⟩ := Argument.column_eq_ok_iff.1 h
  exact ⟨s, hs⟩

theorem spelled_admits_of_replays {catalog? : Option Catalog} {e : Edit} (hes : IsTextual es)
    (h : Replays catalog? es e) : Standard.spelled.Admits fresh e := by
  cases h with
  | table hvs hv ht _ =>
    obtain ⟨s, _, hs⟩ := Argument.table_eq_ok_iff.1 ht
    exact ⟨s, hs⟩
  | column hvs hv hc _ =>
    have hspelled := isSpelled_of_column hc
    exact ⟨hspelled.table (hes.columns _ hvs _ hv _ hc), hspelled⟩
  | aggregation hps hp hc _ =>
    have hspelled := isSpelled_of_column hc
    exact ⟨hspelled.table (hes.aggregations _ hps _ hp _ hc), hspelled⟩
  | join hvs hv hj _ _ => exact Join.spelled_of_read (hes.joins _ hvs _ hv) hj
  | filter hvs hv hf _ =>
    have hspelled := Filter.spelled_of_read (hes.filters _ hvs _ hv) hf
    exact hspelled
  | groupBy hvs hv hc _ => exact isSpelled_of_column hc
  | sort hvs hv hs _ =>
    have hspelled := SortKey.spelled_of_read (hes.orderBy _ hvs _ hv) hs
    exact hspelled
  | formula => trivial
  | limit n => trivial

theorem spelled_admits_of_isTextual {e : Edit} (he : e.IsTextual) (hsingle : e.IsSingle) :
    Standard.spelled.Admits fresh e := by
  cases e with
  | addTable t => exact he
  | toggleTable t => exact he
  | toggleColumn c =>
    have hspelled : c.IsSpelled := he.1
    exact ⟨hspelled.table he.2, hspelled⟩
  | selectColumns t names =>
    obtain ⟨ht, hnames⟩ := he
    refine ⟨ht, fun name hname => ColumnId.isSpelled_iff.2 ?_⟩
    obtain ⟨hne, hdot, hlast⟩ := hnames name hname
    exact TableId.column_wellParted (TableId.isSpelled_iff.1 ht) hne hdot hlast
  | setAggregate c a =>
    have hspelled : c.IsSpelled := he.1
    exact ⟨hspelled.table he.2, hspelled⟩
  | addJoin j => exact he
  | updateJoin id changes =>
    intro j k hj hread
    obtain ⟨_, hsource, _, _, htarget, _⟩ := Join.ofEntries_eq_value.1 hread
    have hfields := nodup_plainEntries j
    exact ⟨((textAt_plainEntries j).changed he.1 hfields (by decide) (by decide) id).table hsource,
      ((textAt_plainEntries j).changed he.2 hfields (by decide) (by decide) id).table htarget⟩
  | addFilter f => exact he
  | updateFilter id changes =>
    intro f g _ hread _
    have htext := (textAt_filterEntries f).changed he (nodup_filterEntries f) (by decide) (by decide) id
    exact htext.column (Filter.ofEntries_eq_value.1 hread).2.1
  | toggleGroupBy c => exact he
  | addSort k => exact he
  | updateSort id changes =>
    intro k r _ hread _
    have htext := (textAt_sortEntries k).changed he (nodup_sortEntries k) (by decide) (by decide) id
    exact htext.column (SortKey.ofEntries_eq_value.1 hread).2.1
  | applyFragment fragment catalog? => exact hsingle.elim
  | applyStarter starter catalog? => exact hsingle.elim
  | _ => trivial

/-! What is spelled is legible if it has an id of its own and a formula is kept as it comes out. -/

theorem idOr_ne_empty (hfresh : fresh ≠ "") (id : String) : idOr fresh id ≠ "" := by
  unfold idOr
  split_ifs with hid
  · exact hfresh
  · exact fun h => hid (String.isEmpty_iff.2 h)

theorem legible_formula (hfresh : fresh ≠ "") (f : Formula) : Standard.legible.formula
    ⟨idOr fresh f.id, Text.sanitizeAlias f.name, Text.strip f.expression⟩ :=
  ⟨idOr_ne_empty hfresh f.id, Text.sanitizeAlias_idem f.name, Text.strip_strip f.expression⟩

theorem legible_admits_of_spelled {e : Edit} (hfresh : fresh ≠ "")
    (h : Standard.spelled.Admits fresh e) : Standard.legible.Admits fresh e := by
  cases e with
  | addTable t => exact TableId.isSpelled_iff.1 h
  | toggleTable t => exact TableId.isSpelled_iff.1 h
  | toggleColumn c => exact ⟨TableId.isSpelled_iff.1 h.1, ColumnId.isSpelled_iff.1 h.2⟩
  | selectColumns t names =>
    exact ⟨TableId.isSpelled_iff.1 h.1, fun name hname => ColumnId.isSpelled_iff.1 (h.2 name hname)⟩
  | setAggregate c a => exact ⟨TableId.isSpelled_iff.1 h.1, ColumnId.isSpelled_iff.1 h.2⟩
  | addJoin j => exact ⟨TableId.isSpelled_iff.1 h.1, TableId.isSpelled_iff.1 h.2⟩
  | updateJoin id changes =>
    intro j k hj hread
    have hj' : Standard.spelled.join j := ⟨TableId.isSpelled_iff.2 hj.1, TableId.isSpelled_iff.2 hj.2⟩
    obtain ⟨hsource, htarget⟩ := h j k hj' hread
    exact ⟨TableId.isSpelled_iff.1 hsource, TableId.isSpelled_iff.1 htarget⟩
  | addFilter f => exact ⟨ColumnId.isSpelled_iff.1 h, idOr_ne_empty hfresh _⟩
  | updateFilter id changes =>
    intro f g hf hread hid
    have hg := h f g (ColumnId.isSpelled_iff.2 hf.1) hread hid
    exact ⟨ColumnId.isSpelled_iff.1 hg, hid ▸ hf.2⟩
  | toggleGroupBy c => exact ColumnId.isSpelled_iff.1 h
  | addSort k => exact ⟨ColumnId.isSpelled_iff.1 h, idOr_ne_empty hfresh _⟩
  | updateSort id changes =>
    intro k r hk hread hid
    have hr := h k r (ColumnId.isSpelled_iff.2 hk.1) hread hid
    exact ⟨ColumnId.isSpelled_iff.1 hr, hid ▸ hk.2⟩
  | addFormula f => exact legible_formula hfresh f
  | applyFragment fragment catalog? => exact h.elim
  | applyStarter starter catalog? => exact h.elim
  | _ => trivial

/-! ### Fragments -/

theorem aggregationEntries_of_isSpelled (h : ∀ c ∈ d.aggregations.keys, c.IsSpelled) :
    d.aggregationEntries = d.aggregations.entries.map fun (c, a) => (c.text, .str a.word) := by
  refine Entries.merge_of_nodup ?_
  have htext : ∀ c ∈ d.aggregations.keys, ColumnId.parse? c.text = some c := fun c hc =>
    ColumnId.parse?_text (ColumnId.isSpelled_iff.1 (h c hc))
  have hkeys : (d.aggregations.entries.map fun (c, a) => (c.text, Json.str a.word)).map Prod.fst =
      d.aggregations.keys.map ColumnId.text := by
    simp [OrderedMap.keys]
  rw [hkeys]
  refine d.aggregations.nodup_keys.map_on fun c hc c' hc' h => ?_
  exact Option.some_inj.1 ((htext c hc).symm.trans (h ▸ htext c' hc'))

theorem eachItem_joins (d : Draft) : EachItem d.entries "joins" fun v => ∀ fields,
    v.entries? = some fields → TextAt ⟨"fromTable", "from_table"⟩ fields ∧
      TextAt ⟨"toTable", "to_table"⟩ fields := by
  intro vs hvs v hv fields hfields
  rw [sectionItems_joins] at hvs
  cases hvs
  obtain ⟨j, _, rfl⟩ := List.mem_map.1 hv
  cases hfields
  exact ⟨textAt_of_all (by simp), textAt_of_all (by simp)⟩

theorem eachItem_filters (d : Draft) : EachItem d.entries "filters" fun v => ∀ fields,
    v.entries? = some fields → TextAt ⟨"column", "column"⟩ fields := by
  intro vs hvs v hv fields hfields
  rw [sectionItems_filters] at hvs
  cases hvs
  obtain ⟨f, _, rfl⟩ := List.mem_map.1 hv
  cases hfields
  exact textAt_filterEntries f

theorem eachItem_orderBy (d : Draft) : EachItem d.entries "orderBy" fun v => ∀ fields,
    v.entries? = some fields → TextAt ⟨"column", "column"⟩ fields := by
  intro vs hvs v hv fields hfields
  rw [sectionItems_orderBy] at hvs
  cases hvs
  obtain ⟨s, _, rfl⟩ := List.mem_map.1 hv
  cases hfields
  exact textAt_sortEntries s

/-- The document of a draft is textual if its columns are spelled and none selects a table whose
name ends in a blank. -/
theorem isTextual_entries (hcolumns : ∀ c ∈ d.columns, c.IsSpelled ∧ c.table.EndsSolid)
    (haggregated : ∀ c ∈ d.aggregations.keys, c.IsSpelled ∧ c.table.EndsSolid) :
    IsTextual d.entries := by
  have hends : ∀ c : ColumnId, c.IsSpelled ∧ c.table.EndsSolid → ∀ c',
      Argument.column (.str c.text) = .ok c' → c'.table.EndsSolid := by
    rintro c ⟨hspelled, hsolid⟩ c' hc'
    obtain ⟨s, hs, hparse⟩ := Argument.column_eq_ok_iff.1 hc'
    cases hs
    rw [ColumnId.parse?_text (ColumnId.isSpelled_iff.1 hspelled)] at hparse
    cases hparse
    exact hsolid
  refine ⟨?_, ?_, eachItem_joins d, eachItem_filters d, eachItem_orderBy d⟩
  · intro vs hvs v hv
    rw [sectionItems_columns] at hvs
    cases hvs
    obtain ⟨c, hc, rfl⟩ := List.mem_map.1 hv
    exact hends c (hcolumns c hc)
  · intro ps hps p hp
    rw [sectionEntries_aggregations,
      aggregationEntries_of_isSpelled fun c hc => (haggregated c hc).1] at hps
    cases hps
    simp only [List.map_map, List.mem_map] at hp
    obtain ⟨e, he, rfl⟩ := hp
    exact hends e.1 (haggregated _ (List.mem_map_of_mem he))

theorem EachItem.mono {name : String} {p q : Json → Prop} (h : EachItem es name p)
    (hpq : ∀ v, p v → q v) : EachItem es name q :=
  fun vs hvs v hv => hpq v (h vs hvs v hv)

theorem EachItem.putAll {name : String} {p : Json → Prop} (hes : EachItem es name p)
    (hmore : EachItem more name p) (hnodup : (es.map Prod.fst).Nodup) :
    EachItem (Entries.putAll es more) name p := by
  intro vs hvs
  cases hname : Entries.last? more name with
  | none =>
    rw [sectionItems_putAll_of_none hnodup hname] at hvs
    exact hes vs hvs
  | some _ =>
    rw [sectionItems_putAll_of_some hnodup hname] at hvs
    exact hmore vs hvs

theorem IsTextual.putAll (hes : IsTextual es) (hmore : IsTextual more)
    (hnodup : (es.map Prod.fst).Nodup) : IsTextual (Entries.putAll es more) where
  columns := hes.columns.putAll hmore.columns hnodup
  aggregations := by
    intro ps hps
    cases hname : Entries.last? more "aggregations" with
    | none =>
      rw [sectionEntries_putAll_of_none hnodup hname] at hps
      exact hes.aggregations ps hps
    | some _ =>
      rw [sectionEntries_putAll_of_some hnodup hname] at hps
      exact hmore.aggregations ps hps
  joins := hes.joins.putAll hmore.joins hnodup
  filters := hes.filters.putAll hmore.filters hnodup
  orderBy := hes.orderBy.putAll hmore.orderBy hnodup

theorem isTextual_limit (n : Int) : IsTextual [("limit", .int n)] := by
  constructor <;> (intro vs hvs v hv; cases hvs; cases hv)

theorem legible_of_applyFragment {fragment : List (String × Json)} {catalog? : Option Catalog}
    {r : Replay} (hids : ∀ path, ids.label path ≠ "") (hfragment : IsTextual fragment)
    (hlegible : d.Meets .legible) (hcoherent : d.Coherent)
    (h : d.applyFragment fragment catalog? ids = .ok r) : r.draft.Meets .legible := by
  have hcolumns : ∀ c ∈ d.columns, c.IsSpelled ∧ c.table.EndsSolid := fun c hc =>
    ⟨ColumnId.isSpelled_iff.2 (hlegible.columns c hc),
      TableId.endsSolid_of_wellParted (hlegible.tables _ (hcoherent.columns c hc))⟩
  have hentries := isTextual_entries hcolumns fun c hc => hcolumns c (hcoherent.aggregated c hc)
  have htextual := hentries.putAll hfragment d.nodup_entries
  exact meets_of_applyFragment h fun e he path =>
    legible_admits_of_spelled (hids path) (spelled_admits_of_replays htextual he)

theorem legible_of_run {e : Edit} (hids : ∀ path, ids.label path ≠ "") (he : e.IsTextual)
    (hlegible : d.Meets .legible) (hcoherent : d.Coherent) (hrun : e.run ids d = .ok d') :
    d'.Meets .legible := by
  cases e with
  | applyFragment fragment catalog? =>
    obtain ⟨r, hr, rfl⟩ := map_eq_ok_iff.1 hrun
    exact legible_of_applyFragment hids he hlegible hcoherent hr
  | applyStarter starter catalog? =>
    obtain ⟨r, hr, rfl⟩ := map_eq_ok_iff.1 hrun
    have hfragment := (isTextual_limit Starter.usualLimit).putAll he (by simp)
    exact legible_of_applyFragment hids hfragment (meets_blank _ _) (coherent_blank _) hr
  | _ =>
    have hspelled : Standard.spelled.Admits ids.id _ := spelled_admits_of_isTextual he (by trivial)
    exact hlegible.run (legible_admits_of_spelled (hids []) hspelled) hrun

theorem legible_after {edits : List Edit} (hids : ∀ path, ids.label path ≠ "")
    (hedits : ∀ e ∈ edits, e.IsTextual) (i : Nat) (hlegible : d.Meets .legible)
    (hcoherent : d.Coherent) : (after ids i d edits).Meets .legible := by
  have hstep : ∀ e ∈ edits, ∀ i d d', (d.Coherent ∧ d.Meets .legible) →
      e.run (ids.branch i) d = .ok d' → d'.Coherent ∧ d'.Meets .legible := by
    rintro e he i d d' ⟨hd, hl⟩ hrun
    have hbranch : ∀ path, (ids.branch i).label path ≠ "" := fun path => hids (i :: path)
    exact ⟨coherent_of_run hd hrun, legible_of_run hbranch (hedits e he) hl hd hrun⟩
  exact (after_keeps hstep i ⟨hcoherent, hlegible⟩).2

end Draft

end QueryDraft
