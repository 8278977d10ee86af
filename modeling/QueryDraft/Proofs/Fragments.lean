import Mathlib
import QueryDraft.Proofs.Edits

/-!
# Fragments as runs of edits

`Replays`: the edits that the replay of a merged document may perform, each with the entry that it
comes from and what the catalog knows. A fragment is applied by such edits only, the first of them
to a blank draft (`applyFragment_keeps`).
-/

namespace QueryDraft

def IdSupply.below (ids : IdSupply) (path : List Nat) : IdSupply :=
  ⟨fun rest => ids.label (path ++ rest)⟩

/-! ### Names and words -/

namespace Argument

theorem table_eq_ok_iff {v : Json} {t : TableId} :
    table v = .ok t ↔ ∃ s, v = .str s ∧ TableId.parse? s = some t := by
  cases v <;> simp [table, Reading.fault, Reading.orFail, acceptOrFail_eq_ok_iff,
    TableId.parse_eq_ok_iff]

theorem column_eq_ok_iff {v : Json} {c : ColumnId} :
    column v = .ok c ↔ ∃ s, v = .str s ∧ ColumnId.parse? s = some c := by
  cases v <;> simp [column, Reading.fault, Reading.orFail, acceptOrFail_eq_ok_iff,
    ColumnId.parse_eq_ok_iff]

end Argument

/-- A text, possibly a torn one. -/
def Json.IsText : Json → Prop
  | .str _ | .tornStr _ => True
  | _ => False

theorem Json.isShowable_of_isText {v : Json} (h : v.IsText) : v.isShowable = true := by
  cases v <;> first | rfl | cases h

namespace Argument

theorem table_of_not_isText {v : Json} (h : ¬ v.IsText) : table v = .error .notAName := by
  cases v <;> first | rfl | exact absurd trivial h

theorem column_of_not_isText {v : Json} (h : ¬ v.IsText) : column v = .error .notAName := by
  cases v <;> first | rfl | exact absurd trivial h

end Argument

namespace Draft

variable {catalog? : Option Catalog} {es : List (String × Json)} {d d' : Draft}

theorem knownColumn_eq_ok_iff {v : Json} {c : ColumnId} : knownColumn catalog? v = .ok c ↔
    Argument.column v = .ok c ∧ knowsColumn catalog? c = true := by
  simp only [knownColumn, bind_eq_ok_iff]
  constructor
  · rintro ⟨c', hc', h⟩
    split_ifs at h with hknown
    cases pure_eq_ok_iff.1 h
    exact ⟨hc', hknown⟩
  · rintro ⟨hc, hknown⟩
    exact ⟨c, hc, by rw [if_pos hknown]; rfl⟩

theorem knownColumn_of_not_isText {v : Json} (h : ¬ v.IsText) :
    knownColumn catalog? v = .error .notAName := by
  rw [knownColumn, Argument.column_of_not_isText h]
  rfl

/-- The edits that may replay an entry of a document. -/
inductive Replays (catalog? : Option Catalog) (es : List (String × Json)) : Edit → Prop
  | table {vs : List Json} {v : Json} {t : TableId} (hvs : sectionItems es "selectedTables" = .ok vs)
      (hv : v ∈ vs) (ht : Argument.table v = .ok t) (hknown : knowsTable catalog? t = true) :
      Replays catalog? es (.addTable t)
  | column {vs : List Json} {v : Json} {c : ColumnId}
      (hvs : sectionItems es "selectedColumns" = .ok vs) (hv : v ∈ vs)
      (hc : Argument.column v = .ok c) (hknown : knowsColumn catalog? c = true) :
      Replays catalog? es (.toggleColumn c)
  | aggregation {ps : List (Json × Json)} {e : Json × Json} {c : ColumnId} {a : Aggregate}
      (hps : sectionEntries es "aggregations" = .ok ps) (he : e ∈ ps)
      (hc : Argument.column e.1 = .ok c) (hknown : knowsColumn catalog? c = true) :
      Replays catalog? es (.setAggregate c a)
  | join {vs : List Json} {v : Json} {fresh : String} {j : Join}
      (hvs : sectionItems es "joins" = .ok vs) (hv : v ∈ vs) (hj : Join.read fresh v = .value j)
      (hsource : knowsColumn catalog? j.source = true)
      (htarget : knowsColumn catalog? j.target = true) : Replays catalog? es (.addJoin j)
  | filter {vs : List Json} {v : Json} {fresh : String} {f : Filter}
      (hvs : sectionItems es "filters" = .ok vs) (hv : v ∈ vs)
      (hf : Filter.read fresh v = .value f) (hknown : knowsColumn catalog? f.column = true) :
      Replays catalog? es (.addFilter f)
  | groupBy {vs : List Json} {v : Json} {c : ColumnId} (hvs : sectionItems es "groupBy" = .ok vs)
      (hv : v ∈ vs) (hc : Argument.column v = .ok c) (hknown : knowsColumn catalog? c = true) :
      Replays catalog? es (.toggleGroupBy c)
  | sort {vs : List Json} {v : Json} {fresh : String} {s : SortKey}
      (hvs : sectionItems es "orderBy" = .ok vs) (hv : v ∈ vs)
      (hs : SortKey.read fresh v = .value s) (hknown : knowsColumn catalog? s.column = true) :
      Replays catalog? es (.addSort s)
  | formula {vs : List Json} {v : Json} {fresh : String} {f : Formula}
      (hvs : sectionItems es "calculatedColumns" = .ok vs) (hv : v ∈ vs)
      (hf : Formula.read fresh v = .value f) : Replays catalog? es (.addFormula f)
  | limit (n : Int) : Replays catalog? es (.setLimit n)

/-! ### One entry

What replaying an entry does is an edit, or nothing if the entry is there already. -/

section entries

variable {ids : IdSupply} {v : Json}

def MayReplay (catalog? : Option Catalog) (es : List (String × Json)) (ids : IdSupply)
    (d d' : Draft) : Prop :=
  d' = d ∨ ∃ e, Replays catalog? es e ∧ e.run ids d = .ok d'

theorem mayReplay_table {vs : List Json} (hvs : sectionItems es "selectedTables" = .ok vs)
    (hv : v ∈ vs) (h : replayTable catalog? v d = .ok d') : MayReplay catalog? es ids d d' := by
  obtain ⟨t, ht, h⟩ := bind_eq_ok_iff.1 h
  split_ifs at h with hknown
  exact .inr ⟨_, .table hvs hv ht hknown, h⟩

theorem mayReplay_column {vs : List Json} (hvs : sectionItems es "selectedColumns" = .ok vs)
    (hv : v ∈ vs) (h : replayColumn catalog? v d = .ok d') : MayReplay catalog? es ids d d' := by
  obtain ⟨c, hc, h⟩ := bind_eq_ok_iff.1 h
  obtain ⟨hc, hknown⟩ := knownColumn_eq_ok_iff.1 hc
  split_ifs at h with hmem
  · exact .inl (pure_eq_ok_iff.1 h)
  · exact .inr ⟨_, .column hvs hv hc hknown, h⟩

theorem mayReplay_aggregation {ps : List (Json × Json)} {e : Json × Json}
    (hps : sectionEntries es "aggregations" = .ok ps) (he : e ∈ ps)
    (h : replayAggregation catalog? e d = .ok d') : MayReplay catalog? es ids d d' := by
  obtain ⟨c, hc, h⟩ := bind_eq_ok_iff.1 h
  obtain ⟨hc, hknown⟩ := knownColumn_eq_ok_iff.1 hc
  obtain ⟨a, -, h⟩ := bind_eq_ok_iff.1 h
  exact .inr ⟨.setAggregate c a, .aggregation hps he hc hknown, h⟩

theorem mayReplay_join {vs : List Json} (hvs : sectionItems es "joins" = .ok vs) (hv : v ∈ vs)
    (h : replayJoin catalog? ids.id v d = .ok d') : MayReplay catalog? es ids d d' := by
  obtain ⟨j, hj, h⟩ := bind_eq_ok_iff.1 h
  split_ifs at h with hknown
  rw [Bool.and_eq_true] at hknown
  exact .inr ⟨_, .join hvs hv (Reading.orFail_eq_ok_iff.1 hj) hknown.1 hknown.2, h⟩

theorem mayReplay_filter {vs : List Json} (hvs : sectionItems es "filters" = .ok vs) (hv : v ∈ vs)
    (h : replayFilter catalog? ids.id v d = .ok d') : MayReplay catalog? es ids d d' := by
  obtain ⟨f, hf, h⟩ := bind_eq_ok_iff.1 h
  split_ifs at h with hknown
  exact .inr ⟨_, .filter hvs hv (Reading.orFail_eq_ok_iff.1 hf) hknown, h⟩

theorem mayReplay_groupBy {vs : List Json} (hvs : sectionItems es "groupBy" = .ok vs) (hv : v ∈ vs)
    (h : replayGroupBy catalog? v d = .ok d') : MayReplay catalog? es ids d d' := by
  obtain ⟨c, hc, h⟩ := bind_eq_ok_iff.1 h
  obtain ⟨hc, hknown⟩ := knownColumn_eq_ok_iff.1 hc
  split_ifs at h with hmem
  · exact .inl (pure_eq_ok_iff.1 h)
  · exact .inr ⟨_, .groupBy hvs hv hc hknown, h⟩

theorem mayReplay_sort {vs : List Json} (hvs : sectionItems es "orderBy" = .ok vs) (hv : v ∈ vs)
    (h : replaySort catalog? ids.id v d = .ok d') : MayReplay catalog? es ids d d' := by
  obtain ⟨s, hs, h⟩ := bind_eq_ok_iff.1 h
  split_ifs at h with hknown
  exact .inr ⟨_, .sort hvs hv (Reading.orFail_eq_ok_iff.1 hs) hknown, h⟩

theorem mayReplay_formula {vs : List Json} (hvs : sectionItems es "calculatedColumns" = .ok vs)
    (hv : v ∈ vs) (h : replayFormula ids.id v d = .ok d') : MayReplay catalog? es ids d d' := by
  obtain ⟨f, hf, h⟩ := bind_eq_ok_iff.1 h
  exact .inr ⟨_, .formula hvs hv (Reading.orFail_eq_ok_iff.1 hf), h⟩

end entries

/-! ### All entries -/

section replayEach

variable {α : Type} {kind : EntryKind} {shown : α → Json}
  {step : String → α → Draft → Except Failure Draft} {ids : IdSupply} {i : Nat} {v : α}
  {vs : List α} {r r' : Replay}

theorem drop_eq_ok_iff {v : Json} :
    r.drop kind v = .ok r' ↔ v.isShowable = true ∧ r' = { r with dropped := r.dropped ++ [kind] } := by
  unfold Replay.drop
  split_ifs with h <;> simp [h, eq_comm]

/-- An entry is replayed or dropped, and then the log can show it. -/
theorem replayEach_cons_eq_ok_iff : replayEach kind shown step ids i (v :: vs) r = .ok r' ↔
    (∃ d, step (ids.branch i).id v r.draft = .ok d ∧
      replayEach kind shown step ids (i + 1) vs { r with draft := d } = .ok r') ∨
    ∃ e, step (ids.branch i).id v r.draft = .error e ∧ e.isDroppable = true ∧
      (shown v).isShowable = true ∧
      replayEach kind shown step ids (i + 1) vs { r with dropped := r.dropped ++ [kind] } =
        .ok r' := by
  rw [replayEach]
  cases step (ids.branch i).id v r.draft with
  | ok d => simp
  | error e => cases he : e.isDroppable <;> simp [bind_eq_ok_iff, drop_eq_ok_iff, he]

theorem replayEach_keeps {P : Draft → Prop}
    (hstep : ∀ v ∈ vs, ∀ i d d', P d → step (ids.branch i).id v d = .ok d' → P d')
    (hr : P r.draft) (h : replayEach kind shown step ids i vs r = .ok r') : P r'.draft := by
  induction vs generalizing i r with
  | nil =>
    cases h
    exact hr
  | cons v vs ih =>
    rw [List.forall_mem_cons] at hstep
    rcases replayEach_cons_eq_ok_iff.1 h with ⟨d, hd, h⟩ | ⟨_, _, _, _, h⟩
    · exact ih hstep.2 (hstep.1 i _ d hr hd) h
    · exact ih (r := { r with dropped := r.dropped ++ [kind] }) hstep.2 hr h

end replayEach

/-- What holds of the blank draft and is kept by every edit of the replay, with any id from the
supply, holds of the draft that a fragment makes. -/
theorem applyFragment_keeps {P : Draft → Prop} {fragment : List (String × Json)} {ids : IdSupply}
    {r : Replay} (h : d.applyFragment fragment catalog? ids = .ok r) (hblank : P (blank d.limit))
    (hstep : ∀ e, Replays catalog? (Entries.putAll d.entries fragment) e →
      ∀ path d₁ d₂, P d₁ → e.run (ids.below path) d₁ = .ok d₂ → P d₂) : P r.draft := by
  set es := Entries.putAll d.entries fragment
  have hmay : ∀ path {d₁ d₂}, P d₁ → MayReplay catalog? es (ids.below path) d₁ d₂ → P d₂ := by
    rintro path d₁ d₂ hd₁ (rfl | ⟨e, he, hrun⟩)
    · exact hd₁
    · exact hstep e he path _ _ hd₁ hrun
  simp only [applyFragment, replaySection, bind_eq_ok_iff] at h
  obtain ⟨r₁, ⟨tables, htables, h₁⟩, r₂, ⟨columns, hcolumns, h₂⟩, aggregations, haggregations, r₃, h₃,
    r₄, ⟨joins, hjoins, h₄⟩, r₅, ⟨filters, hfilters, h₅⟩, r₆, ⟨groupBy, hgroupBy, h₆⟩, r₇,
    ⟨orderBy, horderBy, h₇⟩, r₈, ⟨formulas, hformulas, h₈⟩, h⟩ := h
  have k₁ : P r₁.draft := replayEach_keeps (P := P)
    (fun v hv i _ _ hd h => hmay [i] hd (mayReplay_table htables hv h)) hblank h₁
  have k₂ : P r₂.draft := replayEach_keeps (P := P)
    (fun v hv i _ _ hd h => hmay [i] hd (mayReplay_column hcolumns hv h)) k₁ h₂
  have k₃ : P r₃.draft := replayEach_keeps (P := P)
    (fun e he i _ _ hd h => hmay [i] hd (mayReplay_aggregation haggregations he h)) k₂ h₃
  have k₄ : P r₄.draft := replayEach_keeps (P := P)
    (fun v hv i _ _ hd h => hmay [0, i] hd (mayReplay_join hjoins hv h)) k₃ h₄
  have k₅ : P r₅.draft := replayEach_keeps (P := P)
    (fun v hv i _ _ hd h => hmay [1, i] hd (mayReplay_filter hfilters hv h)) k₄ h₅
  have k₆ : P r₆.draft := replayEach_keeps (P := P)
    (fun v hv i _ _ hd h => hmay [i] hd (mayReplay_groupBy hgroupBy hv h)) k₅ h₆
  have k₇ : P r₇.draft := replayEach_keeps (P := P)
    (fun v hv i _ _ hd h => hmay [2, i] hd (mayReplay_sort horderBy hv h)) k₆ h₇
  have k₈ : P r₈.draft := replayEach_keeps (P := P)
    (fun v hv i _ _ hd h => hmay [3, i] hd (mayReplay_formula hformulas hv h)) k₇ h₈
  rw [pure_eq_ok_iff] at h
  split at h
  · rename_i n _
    rw [h]
    exact hstep _ (.limit n) [] _ _ k₈ rfl
  · rw [h]
    exact k₈

end Draft

end QueryDraft
