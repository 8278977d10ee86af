import Mathlib
import QueryDraft.Proofs.JsonText
import QueryDraft.Proofs.RoundTrip

/-!
# Drafts read from their own documents

`Draft.Tidy`: what a document can say of a draft's lists, for instance that nothing is there twice.
A draft that is tidy and spelled is read back from its document (`read_document`), and from its text
by any reader that bears nesting of depth three and the digits of its limit (`ofText_text`).
-/

namespace QueryDraft

open Reading (field)

theorem OrderedMap.filterValues_eq_self {κ ν : Type} {m : OrderedMap κ ν} {p : ν → Bool}
    (h : ∀ e ∈ m.entries, p e.2 = true) : m.filterValues p = m :=
  ext (List.filter_eq_self.2 h)

/-! ### Items -/

namespace Reading

variable {α : Type} {read : Nat → Json → Reading α}

theorem itemsFrom_map {doc : α → Json} {xs : List α}
    (h : ∀ x ∈ xs, ∀ i, read i (doc x) = .value x) (i : Nat) :
    itemsFrom i read (xs.map doc) = .value xs := by
  induction xs generalizing i with
  | nil => rfl
  | cons x xs ih =>
    rw [List.forall_mem_cons] at h
    have hx : (read i (doc x)).under (.index i) = .value x := under_eq_value.2 (h.1 i)
    exact ap_eq_value.2 ⟨_, _, map_eq_value.2 ⟨_, hx, rfl⟩, ih h.2 (i + 1), rfl⟩

end Reading

namespace Draft

/-! ### Sections -/

theorem readDistinct_map {α : Type} [DecidableEq α] {read : Json → Reading α} {doc : α → Json}
    {xs : List α} (hnodup : xs.Nodup) (h : ∀ x ∈ xs, read (doc x) = .value x) :
    readDistinct read (.arr (xs.map doc)) = .value xs := by
  have hitems : Reading.itemsFrom 0 (fun _ => read) (xs.map doc) = .value xs :=
    Reading.itemsFrom_map (fun x hx _ => h x hx) 0
  exact Reading.map_eq_value.2 ⟨xs, hitems, distinct_of_nodup hnodup⟩

theorem readParts_map {α : Type} {ids : IdSupply} {read : String → Json → Reading α}
    {doc : α → Json} {xs : List α} (h : ∀ x ∈ xs, ∀ fresh, read fresh (doc x) = .value x) :
    readParts ids read (.arr (xs.map doc)) = .value xs :=
  Reading.itemsFrom_map (fun x hx _ => h x hx _) 0

theorem ofEntries_eq_value {ids : IdSupply} {es : List (String × Json)} {d : Draft} :
    ofEntries ids es = .value d ↔
      field ⟨"selectedTables", "selected_tables"⟩ (some []) (readDistinct TableId.read) es =
        .value d.tables ∧
      field ⟨"selectedColumns", "selected_columns"⟩ (some []) (readDistinct ColumnId.read) es =
        .value d.columns ∧
      field ⟨"aggregations", "aggregations"⟩ (some ∅) readAggregations es = .value d.aggregations ∧
      field ⟨"joins", "joins"⟩ (some []) (readParts (ids.branch 0) Join.read) es = .value d.joins ∧
      field ⟨"filters", "filters"⟩ (some []) (readParts (ids.branch 1) Filter.read) es =
        .value d.filters ∧
      field ⟨"groupBy", "group_by"⟩ (some []) (readDistinct ColumnId.read) es = .value d.groupBy ∧
      field ⟨"orderBy", "order_by"⟩ (some []) (readParts (ids.branch 2) SortKey.read) es =
        .value d.orderBy ∧
      field ⟨"calculatedColumns", "calculated_columns"⟩ (some []) (readFormulas (ids.branch 3)) es =
        .value d.formulas ∧
      field ⟨"limit", "limit"⟩ (some usualLimit) Reading.whole es = .value d.limit := by
  simp only [ofEntries, Reading.ap_eq_value, Reading.map_eq_value]
  constructor
  · rintro ⟨_, _, ⟨_, _, ⟨_, _, ⟨_, _, ⟨_, _, ⟨_, _, ⟨_, _, ⟨_, _, ⟨_, ht, rfl⟩, hc, rfl⟩, ha, rfl⟩,
      hj, rfl⟩, hf, rfl⟩, hg, rfl⟩, ho, rfl⟩, hx, rfl⟩, hl, rfl⟩
    exact ⟨ht, hc, ha, hj, hf, hg, ho, hx, hl⟩
  · rintro ⟨ht, hc, ha, hj, hf, hg, ho, hx, hl⟩
    exact ⟨_, _, ⟨_, _, ⟨_, _, ⟨_, _, ⟨_, _, ⟨_, _, ⟨_, _, ⟨_, _, ⟨_, ht, rfl⟩, hc, rfl⟩, ha, rfl⟩,
      hj, rfl⟩, hf, rfl⟩, hg, rfl⟩, ho, rfl⟩, hx, rfl⟩, hl, rfl⟩

/-! ### The whole document -/

/-- Nothing is there twice and no aggregate is kept that aggregates nothing; `p` holds of the columns
that are selected or aggregated. -/
structure Tidy (p : ColumnId → Prop) (d : Draft) : Prop where
  nodup_tables : d.tables.Nodup
  nodup_columns : d.columns.Nodup
  nodup_groupBy : d.groupBy.Nodup
  aggregates : ∀ e ∈ d.aggregations.entries, e.2 ≠ .none
  columns : ∀ c ∈ d.columns, p c
  aggregated : ∀ c ∈ d.aggregations.keys, p c

variable {d : Draft} {ids : IdSupply}

theorem read_tableText {t : TableId} (h : t.IsSpelled) : TableId.read (.str t.text) = .value t :=
  TableId.read_str.2 (TableId.parse?_text (TableId.isSpelled_iff.1 h))

theorem read_columnText {c : ColumnId} (h : c.IsSpelled) : ColumnId.read (.str c.text) = .value c :=
  ColumnId.read_str.2 (ColumnId.parse?_text (ColumnId.isSpelled_iff.1 h))

theorem readEntries_texts {es : List (ColumnId × Aggregate)} (h : ∀ e ∈ es, e.1.IsSpelled) :
    readEntries (es.map fun (c, a) => (c.text, .str a.word)) = .value es := by
  induction es with
  | nil => rfl
  | cons e es ih =>
    rw [List.forall_mem_cons] at h
    have hcolumn : (ColumnId.read (.str e.1.text)).under (.key "[key]") = .value e.1 :=
      Reading.under_eq_value.2 (read_columnText h.1)
    have haggregate : Reading.member Aggregate.ofWord? (.str e.2.word) = .value e.2 :=
      Reading.member_eq_value_iff.2 ⟨_, rfl, Aggregate.ofWord?_word e.2⟩
    have hread : readAggregate (e.1.text, .str e.2.word) = .value e :=
      Reading.under_eq_value.2 (Reading.ap_eq_value.2
        ⟨_, _, Reading.map_eq_value.2 ⟨_, hcolumn, rfl⟩, haggregate, rfl⟩)
    exact Reading.ap_eq_value.2 ⟨_, _, Reading.map_eq_value.2 ⟨_, hread, rfl⟩, ih h.2, rfl⟩

theorem readAggregations_entries (haggregates : ∀ e ∈ d.aggregations.entries, e.2 ≠ .none)
    (h : ∀ c ∈ d.aggregations.keys, c.IsSpelled) :
    readAggregations (.obj d.aggregationEntries) = .value d.aggregations := by
  have hentries : readEntries d.aggregationEntries = .value d.aggregations.entries := by
    rw [aggregationEntries_of_isSpelled h]
    exact readEntries_texts fun e he => h e.1 (List.mem_map_of_mem he)
  refine Reading.andThen_eq_value.2 ⟨_, rfl, Reading.map_eq_value.2 ⟨_, hentries, ?_⟩⟩
  rw [OrderedMap.ofList_entries]
  exact OrderedMap.filterValues_eq_self fun e he => by simpa using haggregates e he

/-- A draft is read back from its document, with the order of everything. -/
theorem read_document (htidy : d.Tidy ColumnId.IsSpelled) (hspelled : d.Meets .spelled)
    (ids : IdSupply) : read ids d.document = .value d := by
  refine Reading.andThen_eq_value.2 ⟨d.entries, rfl, ofEntries_eq_value.2 ⟨?_, ?_, ?_, ?_, ?_, ?_, ?_, ?_, ?_⟩⟩
  · refine Reading.field_of_entry rfl ?_
    rw [Json.texts, List.map_map]
    exact readDistinct_map htidy.nodup_tables fun t ht => read_tableText (hspelled.tables t ht)
  · refine Reading.field_of_entry rfl ?_
    rw [Json.texts, List.map_map]
    exact readDistinct_map htidy.nodup_columns fun c hc => read_columnText (htidy.columns c hc)
  · exact Reading.field_of_entry rfl (readAggregations_entries htidy.aggregates htidy.aggregated)
  · refine Reading.field_of_entry rfl (readParts_map fun j hj fresh => Join.read_document ?_ fresh)
    obtain ⟨hsource, htarget⟩ := hspelled.joins j hj
    exact ⟨TableId.isSpelled_iff.1 hsource, TableId.isSpelled_iff.1 htarget⟩
  · refine Reading.field_of_entry rfl (readParts_map fun f hf fresh => Filter.read_document ?_ fresh)
    exact ColumnId.isSpelled_iff.1 (hspelled.filters f hf)
  · refine Reading.field_of_entry rfl ?_
    rw [Json.texts, List.map_map]
    exact readDistinct_map htidy.nodup_groupBy fun c hc => read_columnText (hspelled.groupBy c hc)
  · refine Reading.field_of_entry rfl (readParts_map fun s hs fresh => SortKey.read_document ?_ fresh)
    exact ColumnId.isSpelled_iff.1 (hspelled.orderBy s hs)
  · exact Reading.field_of_entry rfl (readParts_map fun f _ fresh => Formula.read_document f fresh)
  · exact Reading.field_of_entry rfl rfl

/-! ### The text -/

section texts

open Json (Fits)

variable {rules : Json.Rules} {depth : Nat}

theorem fits_texts (ss : List String) : Fits rules (depth + 1) (.texts ss) := by
  refine .arr fun v hv => ?_
  obtain ⟨s, _, rfl⟩ := List.mem_map.1 hv
  exact .str depth s

theorem fits_parts {α : Type} {doc : α → Json} {xs : List α} (h : ∀ x, Fits rules depth (doc x)) :
    Fits rules (depth + 1) (.arr (xs.map doc)) := by
  refine .arr fun v hv => ?_
  obtain ⟨x, _, rfl⟩ := List.mem_map.1 hv
  exact h x

/-- An object of texts. -/
theorem fits_record {es : List (String × Json)} (hkeys : (es.map Prod.fst).Nodup)
    (h : ∀ e ∈ es, ∃ s, e.2 = .str s) : Fits rules (depth + 1) (.obj es) := by
  refine .obj hkeys fun e he => ?_
  obtain ⟨s, hs⟩ := h e he
  rw [hs]
  exact .str depth s

theorem exists_text_of_mem_aggregationEntries :
    ∀ e ∈ d.aggregationEntries, ∃ s, e.2 = .str s := by
  refine Entries.forall_mem_putAll (by simp) fun e he => ?_
  obtain ⟨⟨c, a⟩, _, rfl⟩ := List.mem_map.1 he
  exact ⟨a.word, rfl⟩

/-- The document of a draft is three deep. -/
theorem fits_document (hlimit : (Nat.toDigits 10 d.limit.natAbs).length ≤ rules.digits) :
    Fits rules (depth + 3) d.document := by
  refine .obj d.nodup_entries ?_
  simp only [entries, List.forall_mem_cons]
  refine ⟨fits_texts _, fits_texts _, ?_, fits_parts fun j => ?_, fits_parts fun f => ?_,
    fits_texts _, fits_parts fun s => ?_, fits_parts fun f => ?_, .int _ hlimit, by simp⟩
  · exact fits_record d.nodup_aggregationEntries exists_text_of_mem_aggregationEntries
  · refine fits_record ?_ (by simp)
    show ["id", "fromTable", "fromColumn", "type", "toTable", "toColumn"].Nodup
    decide
  · exact fits_record (nodup_filterEntries f) (by simp [Filter.entries])
  · exact fits_record (nodup_sortEntries s) (by simp [SortKey.entries])
  · refine fits_record ?_ (by simp)
    show ["id", "alias", "expression"].Nodup
    decide

theorem read_text (d : Draft) (hdepth : 3 ≤ rules.depth)
    (hlimit : (Nat.toDigits 10 d.limit.natAbs).length ≤ rules.digits) :
    Json.read rules d.text = .ok d.document := by
  obtain ⟨depth, hdepth⟩ : ∃ depth, rules.depth = depth + 3 := ⟨rules.depth - 3, by omega⟩
  refine Json.read_text ?_
  rw [hdepth]
  exact fits_document hlimit

end texts

/-- The text of a draft gives it back, whatever characters it holds, if each table and column of it is
what a text of its own stands for: any reader that bears the depth of a document and the digits of
the limit finds the document in the text, and the document is read as the draft. The reader of
drafts bears limits of `Text.maxDigits` digits. -/
theorem ofText_text (htidy : d.Tidy ColumnId.IsSpelled) (hspelled : d.Meets .spelled)
    (ids : IdSupply) :
    (∀ rules : Json.Rules, 3 ≤ rules.depth →
      (Nat.toDigits 10 d.limit.natAbs).length ≤ rules.digits →
        Json.read rules d.text = .ok d.document) ∧
    read ids d.document = .value d ∧
    (d.limit.natAbs < 10 ^ Text.maxDigits → ofText ids d.text = .value d) := by
  have hread := read_document htidy hspelled ids
  refine ⟨fun rules hdepth hlimit => read_text d hdepth hlimit, hread, fun hlimit => ?_⟩
  have hdigits : (Nat.toDigits 10 d.limit.natAbs).length ≤ Text.maxDigits :=
    (Nat.length_toDigits_le_iff (by decide) (by decide)).2 hlimit
  have htext : Json.read textRules d.text = .ok d.document := read_text d (by decide) hdigits
  unfold ofText
  rw [htext]
  exact hread

end Draft

namespace Sample

/-- A draft with quotes, control characters and characters that no 16 bits hold. -/
def curious : Draft where
  tables := [users]
  columns := [users.column "say \"hi\" \\", users.column "id"]
  aggregations := .ofList [(users.column "id", .count)]
  filters := [⟨"\x01", users.column "\u2028name", .like, "\t%😀%\r\n"⟩]
  formulas := [⟨"f", "half", "amount / 2"⟩]
  limit := -(10 ^ 40)

theorem curious_tidy : curious.Tidy ColumnId.IsSpelled where
  nodup_tables := by decide
  nodup_columns := by decide
  nodup_groupBy := by decide
  aggregates := by decide
  columns := by
    simp only [curious, List.forall_mem_cons]
    exact ⟨⟨"users.say \"hi\" \\", rfl⟩, ⟨"users.id", rfl⟩, by simp⟩
  aggregated := by
    show ∀ c ∈ [users.column "id"], c.IsSpelled
    simp only [List.forall_mem_cons]
    exact ⟨⟨"users.id", rfl⟩, by simp⟩

theorem curious_spelled : curious.Meets .spelled := by
  have hcolumns : ∀ c ∈ curious.columns, c.IsSpelled := curious_tidy.columns
  constructor <;> simp only [curious, List.forall_mem_cons, List.not_mem_nil, false_imp_iff,
    implies_true, and_true]
  · exact ⟨"users", rfl⟩
  · exact ⟨hcolumns _ (by decide), hcolumns _ (by decide)⟩
  · exact ⟨"users.\u2028name", rfl⟩
  · trivial

theorem ofText_text_curious : curious.Tidy ColumnId.IsSpelled ∧ curious.Meets .spelled ∧
    Draft.ofText newIds curious.text = .value curious := by
  have hlimit : curious.limit.natAbs < 10 ^ Text.maxDigits := by
    have h : curious.limit.natAbs < 10 ^ 41 := by decide
    exact h.trans_le (Nat.pow_le_pow_right (by decide) (by decide))
  exact ⟨curious_tidy, curious_spelled,
    (Draft.ofText_text curious_tidy curious_spelled newIds).2.2 hlimit⟩

/-- A column whose text has a blank before its last dot, and the table it selects. -/
def spaced : Draft := { tables := [spacedId.table], columns := [spacedId] }

/-- The table of such a draft is not the one that its own text stands for. -/
theorem ofText_text_spaced : ColumnId.parse? "users .id" = some spacedId ∧
    spaced = (Draft.blank usualLimit).toggleColumn spacedId ∧
    Draft.ofText newIds spaced.text = .value { spaced with tables := [users] } ∧
    Draft.ofText newIds spaced.text ≠ .value spaced := by
  have htext : Json.read Draft.textRules spaced.text = .ok spaced.document :=
    Draft.read_text spaced (by decide) (by decide)
  have hread : Draft.ofText newIds spaced.text = .value { spaced with tables := [users] } := by
    unfold Draft.ofText
    rw [htext]
    rfl
  refine ⟨rfl, rfl, hread, fun h => ?_⟩
  rw [hread] at h
  have htables := congrArg Draft.tables (Reading.value.inj h)
  exact absurd htables (by decide)

end Sample

end QueryDraft
