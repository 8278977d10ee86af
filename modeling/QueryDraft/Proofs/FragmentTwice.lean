import Mathlib
import QueryDraft.Proofs.Selecting

/-!
# Applying a fragment twice

A fragment applied once more to the draft that it made changes nothing (`applyFragment_twice`). Each
section of the second replay either is in the fragment, and its entries do what they did before
(`replayEach_steady`), or it is that of the draft, which is read back as it is. The selection is one
matter (`selectsFrom_again`), since columns bring tables and aggregates bring columns. Entries must
have ids of their own, or they would get new ones.
-/

namespace QueryDraft

open Reading (field)

namespace Draft

variable {catalog? : Option Catalog} {ids : IdSupply} {fragment : List (String × Json)}

/-! ### Edits and the limit -/

section limits

variable (d : Draft) (n : Int)

theorem addJoin_setLimit (j : Join) :
    (d.setLimit n).addJoin j = (d.addJoin j).map (·.setLimit n) := by
  unfold addJoin checkJoin requireTable setLimit
  simp only [bind, Except.bind, pure, Except.pure]
  split_ifs <;> rfl

theorem addFilter_setLimit (f : Filter) :
    (d.setLimit n).addFilter f = (d.addFilter f).map (·.setLimit n) := by
  unfold addFilter requireTable setLimit
  simp only [bind, Except.bind, pure, Except.pure]
  split_ifs <;> rfl

theorem addSort_setLimit (s : SortKey) :
    (d.setLimit n).addSort s = (d.addSort s).map (·.setLimit n) := by
  unfold addSort requireTable setLimit
  simp only [bind, Except.bind, pure, Except.pure]
  split_ifs <;> rfl

theorem toggleGroupBy_setLimit (c : ColumnId) :
    (d.setLimit n).toggleGroupBy c = (d.toggleGroupBy c).map (·.setLimit n) := by
  unfold toggleGroupBy requireTable setLimit
  simp only [bind, Except.bind, pure, Except.pure]
  split_ifs <;> rfl

theorem addFormula_setLimit (f : Formula) :
    (d.setLimit n).addFormula f = (d.addFormula f).map (·.setLimit n) := by
  unfold addFormula setLimit
  cases formulaFault? f.name f.expression with
  | some fault => rfl
  | none =>
    simp only
    split_ifs <;> rfl

end limits

/-! ### Steady entries -/

/-- What the step does with an entry depends neither on the limit of the draft nor on the id that an
entry without one would get. -/
def Steady (step : String → Json → Draft → Except Failure Draft) (v : Json) : Prop :=
  ∀ fresh fresh' d n, step fresh' v (d.setLimit n) = (step fresh v d).map (·.setLimit n)

/-- A record has an id of its own, which is not empty. -/
def HasOwnId (v : Json) : Prop :=
  ∀ fields, v.entries? = some fields →
    ∃ id, Entries.last? fields "id" = some (.str id) ∧ id ≠ ""

section steady

variable {α : Type} {v : Json} {idOf : α → String}

/-- A record with an id of its own is read without looking at the fresh one, and keeps its id. -/
theorem read_of_hasOwnId {ofEntries : String → List (String × Json) → Reading α} (h : HasOwnId v)
    (hcongr : ∀ fields fresh fresh', field ⟨"id", "id"⟩ (some fresh') Reading.text fields =
        field ⟨"id", "id"⟩ (some fresh) Reading.text fields →
      ofEntries fresh' fields = ofEntries fresh fields)
    (hvalue : ∀ fields fresh x, ofEntries fresh fields = .value x →
      field ⟨"id", "id"⟩ (some fresh) Reading.text fields = .value (idOf x))
    (fresh fresh' : String) :
    (Reading.record v).andThen (ofEntries fresh') = (Reading.record v).andThen (ofEntries fresh) ∧
      ∀ x, (Reading.record v).andThen (ofEntries fresh) = .value x → idOf x ≠ "" := by
  unfold Reading.record
  cases hv : v.entries? with
  | none => exact ⟨rfl, fun x hx => by cases hx⟩
  | some fields =>
    obtain ⟨id, hid, hne⟩ := h fields hv
    have hentry : Reading.FieldName.entry? ⟨"id", "id"⟩ fields = some (.str id) := by
      rw [Reading.FieldName.entry?, Option.or_self, hid]
    have hfield : ∀ fresh, field ⟨"id", "id"⟩ (some fresh) Reading.text fields = .value id :=
      fun _ => Reading.field_of_entry hentry rfl
    constructor
    · exact hcongr fields fresh fresh' (by rw [hfield, hfield])
    · intro x hx
      have hx := hvalue fields fresh x hx
      rw [hfield] at hx
      cases hx
      exact hne

theorem mapError_map {β ε ε' : Type} (x : Except ε α) (f : α → β) (g : ε → ε') :
    (x.map f).mapError g = (x.mapError g).map f := by
  cases x <;> rfl

variable (idOf) in
/-- Reading a record and acting on it under its own id, else under the fresh one, is steady if the
action does not look at the limit. -/
theorem steady_of_read {step : String → Json → Draft → Except Failure Draft}
    {read : String → Json → Reading α} (act : String → α → Draft → Except Failure Draft)
    (hstep : ∀ fresh d, step fresh v d =
      (read fresh v).orFail >>= fun x => act (idOr fresh (idOf x)) x d)
    (hread : ∀ fresh fresh', read fresh' v = read fresh v ∧
      ∀ x, read fresh v = .value x → idOf x ≠ "")
    (hact : ∀ id x d n, act id x (d.setLimit n) = (act id x d).map (·.setLimit n)) :
    Steady step v := by
  intro fresh fresh' d n
  obtain ⟨hsame, hne⟩ := hread fresh fresh'
  rw [hstep, hstep, hsame]
  cases hx : read fresh v with
  | faults es => rfl
  | value x =>
    show act (idOr fresh' (idOf x)) x (d.setLimit n) =
      (act (idOr fresh (idOf x)) x d).map (·.setLimit n)
    rw [idOr_of_ne_empty (hne x hx), idOr_of_ne_empty (hne x hx), hact]

theorem guarded_setLimit {p : Bool} {x y : Except Fault Draft} {n : Int}
    (h : x = y.map (·.setLimit n)) :
    (if p then x.mapError .fault else .error .notInCatalog) =
      (if p then y.mapError Failure.fault else .error .notInCatalog).map (·.setLimit n) := by
  cases p
  · rfl
  · rw [h]
    exact mapError_map y _ _

end steady

theorem steady_join {v : Json} (h : HasOwnId v) : Steady (replayJoin catalog?) v := by
  refine steady_of_read Join.id (fun _ j d =>
    if knowsColumn catalog? j.source && knowsColumn catalog? j.target then
      (d.addJoin j).mapError .fault else .error .notInCatalog)
    (fun _ _ => rfl) (read_of_hasOwnId h ?_ ?_)
    fun _ j d n => guarded_setLimit (addJoin_setLimit d n j)
  · intro fields fresh fresh' hid
    simp only [Join.ofEntries, hid]
  · exact fun fields fresh j hj => (Join.ofEntries_eq_value.1 hj).1

theorem steady_filter {v : Json} (h : HasOwnId v) : Steady (replayFilter catalog?) v := by
  refine steady_of_read Filter.id (fun id f d =>
    if knowsColumn catalog? f.column then (d.addFilter { f with id }).mapError .fault
    else .error .notInCatalog)
    (fun _ _ => rfl) (read_of_hasOwnId h ?_ ?_)
    fun _ f d n => guarded_setLimit (addFilter_setLimit d n _)
  · intro fields fresh fresh' hid
    simp only [Filter.ofEntries, hid]
  · exact fun fields fresh f hf => (Filter.ofEntries_eq_value.1 hf).1

theorem steady_sort {v : Json} (h : HasOwnId v) : Steady (replaySort catalog?) v := by
  refine steady_of_read SortKey.id (fun id s d =>
    if knowsColumn catalog? s.column then (d.addSort { s with id }).mapError .fault
    else .error .notInCatalog)
    (fun _ _ => rfl) (read_of_hasOwnId h ?_ ?_)
    fun _ s d n => guarded_setLimit (addSort_setLimit d n _)
  · intro fields fresh fresh' hid
    simp only [SortKey.ofEntries, hid]
  · exact fun fields fresh s hs => (SortKey.ofEntries_eq_value.1 hs).1

theorem steady_formula {v : Json} (h : HasOwnId v) : Steady replayFormula v := by
  refine steady_of_read Formula.id (fun id f d => (d.addFormula { f with id }).mapError .fault)
    (fun _ _ => rfl) (read_of_hasOwnId h ?_ ?_) fun _ f d n => ?_
  · intro fields fresh fresh' hid
    simp only [Formula.ofEntries, hid]
  · exact fun fields fresh f hf => (Formula.ofEntries_eq_value.1 hf).1
  · rw [addFormula_setLimit]
    exact mapError_map _ _ _

theorem steady_groupBy (v : Json) : Steady (fun _ => replayGroupBy catalog?) v := by
  intro _ _ d n
  show replayGroupBy catalog? v (d.setLimit n) = (replayGroupBy catalog? v d).map (·.setLimit n)
  unfold replayGroupBy
  cases knownColumn catalog? v with
  | error e => rfl
  | ok c =>
    show (if c ∈ d.groupBy then _ else _) = Except.map _ (if c ∈ d.groupBy then _ else _)
    split_ifs
    · rfl
    · rw [toggleGroupBy_setLimit, mapError_map]

/-! ### Sections -/

theorem replayEach_steady (ids' : IdSupply) {kind : EntryKind} {shown : Json → Json}
    {step : String → Json → Draft → Except Failure Draft} {vs : List Json}
    (hvs : ∀ v ∈ vs, Steady step v) {i : Nat} {b d : Draft} {x x' : List EntryKind}
    (h : replayEach kind shown step ids i vs ⟨b, x⟩ = .ok ⟨d, x'⟩) (limit : Int) (y : List EntryKind) :
    ∃ y', replayEach kind shown step ids' i vs ⟨b.setLimit limit, y⟩ = .ok ⟨d.setLimit limit, y'⟩ := by
  -- both replays go through the same entries; only the ids on offer and the limit differ
  induction vs generalizing i b x y with
  | nil =>
    cases h
    exact ⟨y, rfl⟩
  | cons v vs ih =>
    rw [List.forall_mem_cons] at hvs
    have hstep := hvs.1 (ids.branch i).id (ids'.branch i).id b limit
    simp only [replayEach_cons_eq_ok_iff] at h ⊢
    rcases h with ⟨b', hb, h⟩ | ⟨e, hb, hdrop, hshown, h⟩
    · rw [hb] at hstep
      obtain ⟨y', hy⟩ := ih hvs.2 h y
      exact ⟨y', .inl ⟨_, hstep, hy⟩⟩
    · rw [hb] at hstep
      obtain ⟨y', hy⟩ := ih hvs.2 h _
      exact ⟨y', .inr ⟨e, hstep, hdrop, hshown, hy⟩⟩

variable {d e b c : Draft} {name : String}

theorem sectionLimit?_putAll_of_some {v : Json} (h : Entries.last? fragment "limit" = some v)
    (d : Draft) : sectionLimit? (Entries.putAll d.entries fragment) = sectionLimit? fragment := by
  rw [sectionLimit?, Entries.last?_putAll d.nodup_entries, h, Option.some_or, sectionLimit?, h]

theorem sectionLimit?_putAll_of_none (h : Entries.last? fragment "limit" = none) (d : Draft) :
    sectionLimit? (Entries.putAll d.entries fragment) = some d.limit := by
  rw [sectionLimit?, Entries.last?_putAll d.nodup_entries, h, Option.none_or]
  rfl

theorem limit_again {r r' : Replay}
    (h : r' = match sectionLimit? (Entries.putAll d.entries fragment) with
      | some n => { r with draft := r.draft.setLimit n }
      | none => r) :
    r'.draft = r.draft.setLimit r'.draft.limit ∧
      ∀ n, sectionLimit? (Entries.putAll r'.draft.entries fragment) = some n → n = r'.draft.limit := by
  cases hname : Entries.last? fragment "limit" with
  | some v =>
    rw [sectionLimit?_putAll_of_some hname] at h ⊢
    cases hfragment : sectionLimit? fragment with
    | none =>
      rw [hfragment] at h
      subst h
      exact ⟨rfl, fun n hn => by cases hn⟩
    | some n =>
      rw [hfragment] at h
      subst h
      exact ⟨rfl, fun m hm => by cases hm; rfl⟩
  | none =>
    rw [sectionLimit?_putAll_of_none hname] at h ⊢
    subst h
    exact ⟨rfl, fun n hn => by cases hn; rfl⟩

/-- A section is replayed to the same end under another limit and over another draft's document: from
the fragment because its entries are steady, and else if that document's own section does so. -/
theorem replaySection_again (ids' : IdSupply) {kind : EntryKind}
    {step : String → Json → Draft → Except Failure Draft}
    (hsteady : EachItem fragment name (Steady step)) {x x' : List EntryKind}
    (h : replaySection (Entries.putAll d.entries fragment) name kind ids step ⟨b, x⟩ = .ok ⟨c, x'⟩)
    (limit : Int) (y : List EntryKind)
    (hown : Entries.last? fragment name = none →
      ∃ y', replaySection e.entries name kind ids' step ⟨b.setLimit limit, y⟩ =
        .ok ⟨c.setLimit limit, y'⟩) :
    ∃ y', replaySection (Entries.putAll e.entries fragment) name kind ids' step
      ⟨b.setLimit limit, y⟩ = .ok ⟨c.setLimit limit, y'⟩ := by
  unfold replaySection at h hown ⊢
  cases hname : Entries.last? fragment name with
  | none =>
    rw [sectionItems_putAll_of_none (nodup_entries _) hname]
    exact hown hname
  | some v =>
    rw [sectionItems_putAll_of_some (nodup_entries _) hname] at h ⊢
    obtain ⟨vs, hvs, h⟩ := bind_eq_ok_iff.1 h
    obtain ⟨y', hy⟩ := replayEach_steady ids' (hsteady vs hvs) h limit y
    exact ⟨y', bind_eq_ok_iff.2 ⟨vs, hvs, hy⟩⟩

/-! A section other than those of the selection changes its own list only. -/

section frames

variable {es : List (String × Json)} {x x' : List EntryKind}

theorem exists_joins
    (h : replaySection es "joins" .join ids (replayJoin catalog?) ⟨b, x⟩ = .ok ⟨c, x'⟩) :
    ∃ joins, c = { b with joins } := by
  obtain ⟨vs, _, h⟩ := bind_eq_ok_iff.1 h
  refine replayEach_keeps (P := fun d => ∃ joins, d = { b with joins }) ?_ ⟨b.joins, rfl⟩ h
  rintro v _ i _ d' ⟨joins, rfl⟩ hstep
  obtain ⟨j, _, hstep⟩ := bind_eq_ok_iff.1 hstep
  split_ifs at hstep
  obtain ⟨_, rfl⟩ | ⟨_, _, _, _, rfl⟩ := addJoin_eq_ok_iff.1 (mapError_eq_ok_iff.1 hstep)
  · exact ⟨joins, rfl⟩
  · exact ⟨joins ++ [j], rfl⟩

theorem exists_filters
    (h : replaySection es "filters" .filter ids (replayFilter catalog?) ⟨b, x⟩ = .ok ⟨c, x'⟩) :
    ∃ filters, c = { b with filters } := by
  obtain ⟨vs, _, h⟩ := bind_eq_ok_iff.1 h
  refine replayEach_keeps (P := fun d => ∃ filters, d = { b with filters }) ?_ ⟨b.filters, rfl⟩ h
  rintro v _ i _ d' ⟨filters, rfl⟩ hstep
  obtain ⟨f, _, hstep⟩ := bind_eq_ok_iff.1 hstep
  split_ifs at hstep
  obtain ⟨_, rfl⟩ := addFilter_eq_ok_iff.1 (mapError_eq_ok_iff.1 hstep)
  exact ⟨_, rfl⟩

theorem exists_groupBy
    (h : replaySection es "groupBy" .groupBy ids (fun _ => replayGroupBy catalog?) ⟨b, x⟩ =
      .ok ⟨c, x'⟩) : ∃ groupBy, c = { b with groupBy } := by
  obtain ⟨vs, _, h⟩ := bind_eq_ok_iff.1 h
  refine replayEach_keeps (P := fun d => ∃ groupBy, d = { b with groupBy }) ?_ ⟨b.groupBy, rfl⟩ h
  rintro v _ i _ d' ⟨groupBy, rfl⟩ hstep
  obtain ⟨k, _, hstep⟩ := bind_eq_ok_iff.1 hstep
  split_ifs at hstep
  · exact ⟨groupBy, pure_eq_ok_iff.1 hstep⟩
  · obtain ⟨_, rfl⟩ | ⟨_, _, rfl⟩ := toggleGroupBy_eq_ok_iff.1 (mapError_eq_ok_iff.1 hstep)
    · exact ⟨_, rfl⟩
    · exact ⟨_, rfl⟩

theorem exists_orderBy
    (h : replaySection es "orderBy" .orderBy ids (replaySort catalog?) ⟨b, x⟩ = .ok ⟨c, x'⟩) :
    ∃ orderBy, c = { b with orderBy } := by
  obtain ⟨vs, _, h⟩ := bind_eq_ok_iff.1 h
  refine replayEach_keeps (P := fun d => ∃ orderBy, d = { b with orderBy }) ?_ ⟨b.orderBy, rfl⟩ h
  rintro v _ i _ d' ⟨orderBy, rfl⟩ hstep
  obtain ⟨s, _, hstep⟩ := bind_eq_ok_iff.1 hstep
  split_ifs at hstep
  obtain ⟨_, rfl⟩ := addSort_eq_ok_iff.1 (mapError_eq_ok_iff.1 hstep)
  exact ⟨_, rfl⟩

theorem exists_formulas
    (h : replaySection es "calculatedColumns" .formula ids replayFormula ⟨b, x⟩ = .ok ⟨c, x'⟩) :
    ∃ formulas, c = { b with formulas } := by
  obtain ⟨vs, _, h⟩ := bind_eq_ok_iff.1 h
  refine replayEach_keeps (P := fun d => ∃ formulas, d = { b with formulas }) ?_ ⟨b.formulas, rfl⟩ h
  rintro v _ i _ d' ⟨formulas, rfl⟩ hstep
  obtain ⟨f, _, hstep⟩ := bind_eq_ok_iff.1 hstep
  obtain ⟨_, _, rfl⟩ := addFormula_eq_ok_iff.1 (mapError_eq_ok_iff.1 hstep)
  exact ⟨_, rfl⟩

end frames

/-! ### The selection once more -/

section selection

variable {vs : List Json}

theorem tables_again
    (hvs : sectionItems (Entries.putAll d.entries fragment) "selectedTables" = .ok vs)
    (hdrops : DropsOnly (acceptTable catalog?) vs)
    (hown : Entries.last? fragment "selectedTables" = none →
      ∀ t ∈ e.tables, t.IsSpelled ∧ knowsTable catalog? t = true) :
    ∃ vs', sectionItems (Entries.putAll e.entries fragment) "selectedTables" = .ok vs' ∧
      DropsOnly (acceptTable catalog?) vs' ∧
      (accepted (acceptTable catalog?) vs' = accepted (acceptTable catalog?) vs ∨
        accepted (acceptTable catalog?) vs' = e.tables) := by
  cases hname : Entries.last? fragment "selectedTables" with
  | some v =>
    rw [sectionItems_putAll_of_some (nodup_entries _) hname] at hvs ⊢
    exact ⟨vs, hvs, hdrops, .inl rfl⟩
  | none =>
    rw [sectionItems_putAll_of_none (nodup_entries _) hname, sectionItems_tables]
    have haccept : ∀ t ∈ e.tables, acceptTable catalog? (.str t.text) = .ok t := by
      intro t ht
      obtain ⟨hspelled, hknown⟩ := hown hname t ht
      have hparse := TableId.parse?_text (TableId.isSpelled_iff.1 hspelled)
      exact acceptTable_eq_ok_iff.2 ⟨Argument.table_eq_ok_iff.2 ⟨_, rfl, hparse⟩, hknown⟩
    obtain ⟨hall, hnone⟩ := accepted_map haccept
    exact ⟨_, rfl, hnone, .inr hall⟩

theorem columns_again
    (hvs : sectionItems (Entries.putAll d.entries fragment) "selectedColumns" = .ok vs)
    (hdrops : DropsOnly (knownColumn catalog?) vs)
    (hown : ∀ c ∈ e.columns, c.IsSpelled ∧ knowsColumn catalog? c = true) :
    ∃ vs', sectionItems (Entries.putAll e.entries fragment) "selectedColumns" = .ok vs' ∧
      DropsOnly (knownColumn catalog?) vs' ∧
      (accepted (knownColumn catalog?) vs' = accepted (knownColumn catalog?) vs ∨
        accepted (knownColumn catalog?) vs' = e.columns) := by
  cases hname : Entries.last? fragment "selectedColumns" with
  | some v =>
    rw [sectionItems_putAll_of_some (nodup_entries _) hname] at hvs ⊢
    exact ⟨vs, hvs, hdrops, .inl rfl⟩
  | none =>
    rw [sectionItems_putAll_of_none (nodup_entries _) hname, sectionItems_columns]
    have haccept : ∀ c ∈ e.columns, knownColumn catalog? (.str c.text) = .ok c := by
      intro c hc
      obtain ⟨hspelled, hknown⟩ := hown c hc
      exact knownColumn_text (ColumnId.isSpelled_iff.1 hspelled) hknown
    obtain ⟨hall, hnone⟩ := accepted_map haccept
    exact ⟨_, rfl, hnone, .inr hall⟩

/-- The aggregates of a draft's document are those of the draft, so that none of them is none. -/
theorem ne_none_of_mem_accepted (haggregates : ∀ e ∈ d.aggregations.entries, e.2 ≠ .none) :
    ∀ x ∈ accepted (acceptAggregate catalog?) (d.aggregationEntries.map fun (k, v) => (.str k, v)),
      x.2 ≠ .none := by
  have hwords : ∀ e ∈ d.aggregationEntries, ∃ a : Aggregate, a ≠ .none ∧ e.2 = .str a.word := by
    refine Entries.forall_mem_putAll (by simp) fun e he => ?_
    obtain ⟨x, hx, rfl⟩ := List.mem_map.1 he
    exact ⟨x.2, haggregates x hx, rfl⟩
  rintro ⟨c, a⟩ hx
  obtain ⟨v, hv, haccept⟩ := exists_of_mem_accepted hx
  obtain ⟨e, he, rfl⟩ := List.mem_map.1 hv
  obtain ⟨a', ha', hword⟩ := hwords e he
  obtain ⟨_, ha⟩ := acceptAggregate_eq_ok_iff.1 haccept
  rw [hword, Argument.aggregate_word] at ha
  cases ha
  exact ha'

theorem aggregations_again {ps : List (Json × Json)}
    (haggregates : ∀ a ∈ d.aggregations.entries, a.2 ≠ .none)
    (hps : sectionEntries (Entries.putAll d.entries fragment) "aggregations" = .ok ps)
    (hdrops : DropsOnly (acceptAggregate catalog?) ps)
    (hown : ∀ c ∈ e.aggregations.keys, c.IsSpelled ∧ knowsColumn catalog? c = true) :
    ∃ ps', sectionEntries (Entries.putAll e.entries fragment) "aggregations" = .ok ps' ∧
      DropsOnly (acceptAggregate catalog?) ps' ∧
      (accepted (acceptAggregate catalog?) ps' = accepted (acceptAggregate catalog?) ps ∨
        (accepted (acceptAggregate catalog?) ps' = e.aggregations.entries ∧
          ∀ x ∈ accepted (acceptAggregate catalog?) ps, x.2 ≠ .none)) := by
  cases hname : Entries.last? fragment "aggregations" with
  | some v =>
    rw [sectionEntries_putAll_of_some (nodup_entries _) hname] at hps ⊢
    exact ⟨ps, hps, hdrops, .inl rfl⟩
  | none =>
    rw [sectionEntries_putAll_of_none (nodup_entries _) hname, sectionEntries_aggregations] at hps ⊢
    cases hps
    rw [aggregationEntries_of_isSpelled fun c hc => (hown c hc).1, List.map_map]
    have haccept : ∀ x ∈ e.aggregations.entries,
        acceptAggregate catalog? (.str x.1.text, .str x.2.word) = .ok x := by
      rintro ⟨c, a⟩ hx
      obtain ⟨hspelled, hknown⟩ := hown c (List.mem_map_of_mem hx)
      exact acceptAggregate_eq_ok_iff.2
        ⟨knownColumn_text (ColumnId.isSpelled_iff.1 hspelled) hknown, Argument.aggregate_word a⟩
    obtain ⟨hall, hnone⟩ := accepted_map haccept
    exact ⟨_, rfl, hnone, .inr ⟨hall, ne_none_of_mem_accepted haggregates⟩⟩

end selection

end Draft

/-! ### The whole fragment -/

/-- What is known of the parts of a draft that a fragment made: those of sections that are not in the
fragment come from a draft's document, and are read back. -/
def Standard.carried (fragment : List (String × Json)) : Standard where
  table _ := True
  column c := c.IsSpelled
  join j := Entries.last? fragment "joins" = none → Standard.legible.join j
  filter f := Entries.last? fragment "filters" = none → Standard.legible.filter f
  sort s := Entries.last? fragment "orderBy" = none → Standard.legible.sort s
  formula f := Standard.legible.formula f

namespace Draft

variable {catalog? : Option Catalog} {ids : IdSupply} {fragment : List (String × Json)} {d : Draft}

theorem carried_admits_of_replays {e : Edit} {fresh : String} (hfresh : fresh ≠ "")
    (h : Replays catalog? (Entries.putAll d.entries fragment) e) :
    (Standard.carried fragment).Admits fresh e := by
  cases h with
  | table => trivial
  | column _ _ hc _ => exact ⟨trivial, isSpelled_of_column hc⟩
  | aggregation _ _ hc _ => exact ⟨trivial, isSpelled_of_column hc⟩
  | join hvs hv hj _ _ =>
    intro hname
    rw [sectionItems_putAll_of_none (nodup_entries _) hname] at hvs
    obtain ⟨hsource, htarget⟩ := Join.spelled_of_read (eachItem_joins d _ hvs _ hv) hj
    exact ⟨TableId.isSpelled_iff.1 hsource, TableId.isSpelled_iff.1 htarget⟩
  | filter hvs hv hf _ =>
    intro hname
    rw [sectionItems_putAll_of_none (nodup_entries _) hname] at hvs
    have hspelled := Filter.spelled_of_read (eachItem_filters d _ hvs _ hv) hf
    exact ⟨ColumnId.isSpelled_iff.1 hspelled, idOr_ne_empty hfresh _⟩
  | groupBy _ _ hc _ => exact isSpelled_of_column hc
  | sort hvs hv hs _ =>
    intro hname
    rw [sectionItems_putAll_of_none (nodup_entries _) hname] at hvs
    have hspelled := SortKey.spelled_of_read (eachItem_orderBy d _ hvs _ hv) hs
    exact ⟨ColumnId.isSpelled_iff.1 hspelled, idOr_ne_empty hfresh _⟩
  | formula => exact legible_formula hfresh _
  | limit => trivial

/-- Accepted tables are read from a text, and the others are those of columns. -/
theorem isSpelled_of_mem_selecting (limit : Int) {vs : List Json} {cs : List ColumnId}
    {as : List (ColumnId × Aggregate)}
    (hcolumns : ∀ c ∈ (selecting limit (accepted (acceptTable catalog?) vs) cs as).columns,
      c.IsSpelled ∧ c.table.EndsSolid) :
    ∀ t ∈ (selecting limit (accepted (acceptTable catalog?) vs) cs as).tables, t.IsSpelled := by
  intro t ht
  rcases List.mem_append.1 (mem_distinct.1 ht) with ht | ht
  · obtain ⟨v, _, haccept⟩ := exists_of_mem_accepted ht
    obtain ⟨s, _, hs⟩ := Argument.table_eq_ok_iff.1 (acceptTable_eq_ok_iff.1 haccept).1
    exact ⟨s, hs⟩
  · obtain ⟨c, hc, rfl⟩ := List.mem_map.1 ht
    obtain ⟨hspelled, hends⟩ := hcolumns c (mem_distinct.2 hc)
    exact hspelled.table hends

/-! ### Section by section -/

/-- The first three sections of a document, replayed on a blank draft, end in `r`. -/
def SelectsFrom (catalog? : Option Catalog) (ids : IdSupply) (es : List (String × Json)) (limit : Int)
    (r : Replay) : Prop :=
  ∃ r₁, replaySection es "selectedTables" .table ids (fun _ => replayTable catalog?)
      ⟨blank limit, []⟩ = .ok r₁ ∧
    ∃ r₂, replaySection es "selectedColumns" .column ids (fun _ => replayColumn catalog?) r₁ = .ok r₂ ∧
      ∃ ps, sectionEntries es "aggregations" = .ok ps ∧
        replayEach .aggregation Prod.fst (fun _ => replayAggregation catalog?) ids 0 ps r₂ = .ok r

theorem applyFragment_eq_ok_iff {r : Replay} : d.applyFragment fragment catalog? ids = .ok r ↔
    let es := Entries.putAll d.entries fragment
    ∃ r₃, SelectsFrom catalog? ids es d.limit r₃ ∧
      ∃ r₄, replaySection es "joins" .join (ids.branch 0) (replayJoin catalog?) r₃ = .ok r₄ ∧
      ∃ r₅, replaySection es "filters" .filter (ids.branch 1) (replayFilter catalog?) r₄ = .ok r₅ ∧
      ∃ r₆, replaySection es "groupBy" .groupBy ids (fun _ => replayGroupBy catalog?) r₅ = .ok r₆ ∧
      ∃ r₇, replaySection es "orderBy" .orderBy (ids.branch 2) (replaySort catalog?) r₆ = .ok r₇ ∧
      ∃ r₈, replaySection es "calculatedColumns" .formula (ids.branch 3) replayFormula r₇ = .ok r₈ ∧
        r = match sectionLimit? es with
          | some n => { r₈ with draft := r₈.draft.setLimit n }
          | none => r₈ := by
  simp only [applyFragment, SelectsFrom, bind_eq_ok_iff, pure_eq_ok_iff]
  constructor
  · rintro ⟨r₁, h₁, r₂, h₂, ps, hps, r₃, h₃, hrest⟩
    exact ⟨r₃, ⟨r₁, h₁, r₂, h₂, ps, hps, h₃⟩, hrest⟩
  · rintro ⟨r₃, ⟨r₁, h₁, r₂, h₂, ps, hps, h₃⟩, hrest⟩
    exact ⟨r₁, h₁, r₂, h₂, ps, hps, r₃, h₃, hrest⟩

theorem blank_of_selectsFrom {b : Draft} {x : List EntryKind} {limit : Int} {es : List (String × Json)}
    (h : SelectsFrom catalog? ids es limit ⟨b, x⟩) :
    b.joins = [] ∧ b.filters = [] ∧ b.groupBy = [] ∧ b.orderBy = [] ∧ b.formulas = [] := by
  obtain ⟨r₁, h₁, r₂, h₂, ps, hps, h₃⟩ := h
  obtain ⟨vs, _, h₁⟩ := bind_eq_ok_iff.1 h₁
  obtain ⟨ws, _, h₂⟩ := bind_eq_ok_iff.1 h₂
  obtain ⟨_, rfl⟩ := replay_selection_iff.1 ⟨r₁, h₁, r₂, h₂, x, h₃⟩
  exact ⟨rfl, rfl, rfl, rfl, rfl⟩

section parts

variable {e b c : Draft} {x x' : List EntryKind} (hcoherent : e.Coherent)
  (hknown : e.Meets (.known catalog?)) (hcarried : e.Meets (.carried fragment)) (ids' : IdSupply)

include hcoherent hknown hcarried

theorem selectsFrom_again (haggregates : ∀ a ∈ d.aggregations.entries, a.2 ≠ .none)
    (hsolid : Entries.last? fragment "selectedTables" = none → ∀ c ∈ e.columns, c.table.EndsSolid)
    (h : SelectsFrom catalog? ids (Entries.putAll d.entries fragment) d.limit ⟨b, x⟩)
    (htables : e.tables = b.tables) (hcolumns : e.columns = b.columns)
    (haggregations : e.aggregations = b.aggregations) :
    ∃ y, SelectsFrom catalog? ids' (Entries.putAll e.entries fragment) e.limit
      ⟨b.setLimit e.limit, y⟩ := by
  obtain ⟨r₁, h₁, r₂, h₂, ps, hps, h₃⟩ := h
  obtain ⟨vs, hvs, h₁⟩ := bind_eq_ok_iff.1 h₁
  obtain ⟨ws, hws, h₂⟩ := bind_eq_ok_iff.1 h₂
  obtain ⟨⟨hvdrops, hwdrops, hpdrops⟩, hb⟩ := replay_selection_iff.1 ⟨r₁, h₁, r₂, h₂, x, h₃⟩
  rw [hb] at htables hcolumns haggregations
  have hreadColumns : ∀ c ∈ e.columns, c.IsSpelled ∧ knowsColumn catalog? c = true :=
    fun c hc => ⟨hcarried.columns c hc, hknown.columns c hc⟩
  have hreadAggregated : ∀ c ∈ e.aggregations.keys, c.IsSpelled ∧ knowsColumn catalog? c = true :=
    fun c hc => hreadColumns c (hcoherent.aggregated c hc)
  -- tables that the fragment does not have are read from the texts in the document of `e`
  have hreadTables : Entries.last? fragment "selectedTables" = none →
      ∀ t ∈ e.tables, t.IsSpelled ∧ knowsTable catalog? t = true := by
    intro hname t ht
    refine ⟨?_, hknown.tables t ht⟩
    rw [hcolumns] at hreadColumns hsolid
    rw [htables] at ht
    exact isSpelled_of_mem_selecting d.limit
      (fun c hc => ⟨(hreadColumns c hc).1, hsolid hname c hc⟩) t ht
  obtain ⟨vs', hvs', hvdrops', hts⟩ := tables_again hvs hvdrops hreadTables
  obtain ⟨ws', hws', hwdrops', hcs⟩ := columns_again hws hwdrops hreadColumns
  obtain ⟨ps', hps', hpdrops', has⟩ := aggregations_again haggregates hps hpdrops hreadAggregated
  rw [htables] at hts
  rw [hcolumns] at hcs
  rw [haggregations] at has
  have hb' := selecting_again hts hcs has e.limit
  rw [← hb] at hb'
  obtain ⟨r₁', h₁', r₂', h₂', y, h₃'⟩ :=
    replay_selection_iff.2 ⟨⟨hvdrops', hwdrops', hpdrops'⟩, hb'.symm⟩
  exact ⟨y, r₁', bind_eq_ok_iff.2 ⟨vs', hvs', h₁'⟩, r₂', bind_eq_ok_iff.2 ⟨ws', hws', h₂'⟩,
    ps', hps', h₃'⟩

variable (limit : Int) (y : List EntryKind)

theorem joins_again (hown : EachItem fragment "joins" HasOwnId)
    (h : replaySection (Entries.putAll d.entries fragment) "joins" .join ids (replayJoin catalog?)
      ⟨b, x⟩ = .ok ⟨c, x'⟩)
    (htables : b.tables = e.tables) (hbefore : b.joins = [])
    (hafter : c = { b with joins := e.joins }) :
    ∃ y', replaySection (Entries.putAll e.entries fragment) "joins" .join ids' (replayJoin catalog?)
      ⟨b.setLimit limit, y⟩ = .ok ⟨c.setLimit limit, y'⟩ := by
  have hb : { b.setLimit limit with joins := [] } = b.setLimit limit := by rw [← hbefore]; rfl
  subst hafter
  refine replaySection_again ids' (hown.mono fun _ => steady_join) h limit y fun hname => ?_
  rw [← hb]
  exact ⟨y, bind_eq_ok_iff.2 ⟨_, sectionItems_joins e, replay_joins hcoherent hknown
    (b.setLimit limit) (fun j hj => hcarried.joins j hj hname) htables⟩⟩

theorem filters_again (hown : EachItem fragment "filters" HasOwnId)
    (h : replaySection (Entries.putAll d.entries fragment) "filters" .filter ids
      (replayFilter catalog?) ⟨b, x⟩ = .ok ⟨c, x'⟩)
    (htables : b.tables = e.tables) (hbefore : b.filters = [])
    (hafter : c = { b with filters := e.filters }) :
    ∃ y', replaySection (Entries.putAll e.entries fragment) "filters" .filter ids'
      (replayFilter catalog?) ⟨b.setLimit limit, y⟩ = .ok ⟨c.setLimit limit, y'⟩ := by
  have hb : { b.setLimit limit with filters := [] } = b.setLimit limit := by rw [← hbefore]; rfl
  subst hafter
  refine replaySection_again ids' (hown.mono fun _ => steady_filter) h limit y fun hname => ?_
  rw [← hb]
  exact ⟨y, bind_eq_ok_iff.2 ⟨_, sectionItems_filters e, replay_filters hcoherent hknown
    (b.setLimit limit) (fun f hf => hcarried.filters f hf hname) htables⟩⟩

theorem groupBy_again
    (h : replaySection (Entries.putAll d.entries fragment) "groupBy" .groupBy ids
      (fun _ => replayGroupBy catalog?) ⟨b, x⟩ = .ok ⟨c, x'⟩)
    (htables : b.tables = e.tables) (hbefore : b.groupBy = [])
    (hafter : c = { b with groupBy := e.groupBy }) :
    ∃ y', replaySection (Entries.putAll e.entries fragment) "groupBy" .groupBy ids'
      (fun _ => replayGroupBy catalog?) ⟨b.setLimit limit, y⟩ = .ok ⟨c.setLimit limit, y'⟩ := by
  have hb : { b.setLimit limit with groupBy := [] } = b.setLimit limit := by rw [← hbefore]; rfl
  subst hafter
  refine replaySection_again ids' (fun _ _ v _ => steady_groupBy v) h limit y fun _ => ?_
  rw [← hb]
  exact ⟨y, bind_eq_ok_iff.2 ⟨_, sectionItems_groupBy e, replay_groupBy hcoherent hknown
    (b.setLimit limit) (fun k hk => ColumnId.isSpelled_iff.1 (hcarried.groupBy k hk)) htables⟩⟩

theorem orderBy_again (hown : EachItem fragment "orderBy" HasOwnId)
    (h : replaySection (Entries.putAll d.entries fragment) "orderBy" .orderBy ids
      (replaySort catalog?) ⟨b, x⟩ = .ok ⟨c, x'⟩)
    (htables : b.tables = e.tables) (hbefore : b.orderBy = [])
    (hafter : c = { b with orderBy := e.orderBy }) :
    ∃ y', replaySection (Entries.putAll e.entries fragment) "orderBy" .orderBy ids'
      (replaySort catalog?) ⟨b.setLimit limit, y⟩ = .ok ⟨c.setLimit limit, y'⟩ := by
  have hb : { b.setLimit limit with orderBy := [] } = b.setLimit limit := by rw [← hbefore]; rfl
  subst hafter
  refine replaySection_again ids' (hown.mono fun _ => steady_sort) h limit y fun hname => ?_
  rw [← hb]
  exact ⟨y, bind_eq_ok_iff.2 ⟨_, sectionItems_orderBy e, replay_sorts hcoherent hknown
    (b.setLimit limit) (fun s hs => hcarried.orderBy s hs hname) htables⟩⟩

omit hknown in
theorem formulas_again (hown : EachItem fragment "calculatedColumns" HasOwnId)
    (h : replaySection (Entries.putAll d.entries fragment) "calculatedColumns" .formula ids
      replayFormula ⟨b, x⟩ = .ok ⟨c, x'⟩)
    (hbefore : b.formulas = []) (hafter : c = { b with formulas := e.formulas }) :
    ∃ y', replaySection (Entries.putAll e.entries fragment) "calculatedColumns" .formula ids'
      replayFormula ⟨b.setLimit limit, y⟩ = .ok ⟨c.setLimit limit, y'⟩ := by
  have hb : { b.setLimit limit with formulas := [] } = b.setLimit limit := by rw [← hbefore]; rfl
  subst hafter
  refine replaySection_again ids' (hown.mono fun _ => steady_formula) h limit y fun _ => ?_
  rw [← hb]
  exact ⟨y, bind_eq_ok_iff.2 ⟨_, sectionItems_formulas e, replay_formulas hcoherent
    (b.setLimit limit) hcarried.formulas⟩⟩

end parts

/-- A fragment whose joins, filters, sort keys and formulas have ids of their own changes nothing when
it is applied once more, with the same catalog or none, to the draft that it made. The one exception
is a fragment without tables of its own that selects a column whose table's name ends in a blank. -/
theorem applyFragment_twice (hids : ∀ path, ids.label path ≠ "")
    (haggregates : ∀ e ∈ d.aggregations.entries, e.2 ≠ .none)
    (hjoins : EachItem fragment "joins" HasOwnId) (hfilters : EachItem fragment "filters" HasOwnId)
    (horderBy : EachItem fragment "orderBy" HasOwnId)
    (hformulas : EachItem fragment "calculatedColumns" HasOwnId) {r : Replay}
    (h : d.applyFragment fragment catalog? ids = .ok r)
    (hsolid : Entries.last? fragment "selectedTables" = none →
      ∀ c ∈ r.draft.columns, c.table.EndsSolid) (ids' : IdSupply) :
    ∃ dropped, r.draft.applyFragment fragment catalog? ids' = .ok ⟨r.draft, dropped⟩ := by
  have hcoherent : r.draft.Coherent := coherent_of_applyFragment h
  have hknown : r.draft.Meets (.known catalog?) :=
    meets_of_applyFragment h fun e he path => known_admits_of_replays he _
  have hcarried : r.draft.Meets (.carried fragment) :=
    meets_of_applyFragment h fun e he path => carried_admits_of_replays (hids path) he
  obtain ⟨⟨d₃, x₃⟩, h₃, ⟨d₄, x₄⟩, h₄, ⟨d₅, x₅⟩, h₅, ⟨d₆, x₆⟩, h₆, ⟨d₇, x₇⟩, h₇, ⟨d₈, x₈⟩, h₈, hr⟩ :=
    applyFragment_eq_ok_iff.1 h
  obtain ⟨hdraft, hlimit⟩ := limit_again hr
  obtain ⟨e, dropped⟩ := r
  simp only at hdraft hlimit hsolid hcoherent hknown hcarried ⊢
  -- each stage of the first replay has one more part as the draft `e` has it in the end
  obtain ⟨hd₄, hd₅, hd₆, hd₇, hd₈⟩ : d₄ = { d₃ with joins := e.joins } ∧
      d₅ = { d₄ with filters := e.filters } ∧ d₆ = { d₅ with groupBy := e.groupBy } ∧
      d₇ = { d₆ with orderBy := e.orderBy } ∧ d₈ = { d₇ with formulas := e.formulas } := by
    rw [hdraft]
    obtain ⟨joins, rfl⟩ := exists_joins h₄
    obtain ⟨filters, rfl⟩ := exists_filters h₅
    obtain ⟨groupBy, rfl⟩ := exists_groupBy h₆
    obtain ⟨orderBy, rfl⟩ := exists_orderBy h₇
    obtain ⟨formulas, rfl⟩ := exists_formulas h₈
    exact ⟨rfl, rfl, rfl, rfl, rfl⟩
  obtain ⟨htables, hcolumns, haggregations⟩ : e.tables = d₃.tables ∧ e.columns = d₃.columns ∧
      e.aggregations = d₃.aggregations := by
    rw [hdraft, hd₈, hd₇, hd₆, hd₅, hd₄]
    exact ⟨rfl, rfl, rfl⟩
  have hblank := blank_of_selectsFrom h₃
  obtain ⟨y₃, h₃'⟩ := selectsFrom_again hcoherent hknown hcarried ids' haggregates hsolid h₃
    htables hcolumns haggregations
  obtain ⟨y₄, h₄'⟩ := joins_again hcoherent hknown hcarried (ids'.branch 0) e.limit y₃ hjoins h₄
    htables.symm hblank.1 hd₄
  obtain ⟨y₅, h₅'⟩ := filters_again hcoherent hknown hcarried (ids'.branch 1) e.limit y₄ hfilters h₅
    (by rw [hd₄, htables]) (by rw [hd₄, hblank.2.1]) hd₅
  obtain ⟨y₆, h₆'⟩ := groupBy_again hcoherent hknown hcarried ids' e.limit y₅ h₆
    (by rw [hd₅, hd₄, htables]) (by rw [hd₅, hd₄, hblank.2.2.1]) hd₆
  obtain ⟨y₇, h₇'⟩ := orderBy_again hcoherent hknown hcarried (ids'.branch 2) e.limit y₆ horderBy h₇
    (by rw [hd₆, hd₅, hd₄, htables]) (by rw [hd₆, hd₅, hd₄, hblank.2.2.2.1]) hd₇
  obtain ⟨y₈, h₈'⟩ := formulas_again hcoherent hcarried (ids'.branch 3) e.limit y₇ hformulas h₈
    (by rw [hd₇, hd₆, hd₅, hd₄, hblank.2.2.2.2]) hd₈
  rw [← hdraft] at h₈'
  refine ⟨y₈, applyFragment_eq_ok_iff.2 ⟨_, h₃', _, h₄', _, h₅', _, h₆', _, h₇', _, h₈', ?_⟩⟩
  cases hn : sectionLimit? (Entries.putAll e.entries fragment) with
  | none => rfl
  | some n =>
    cases hlimit n hn
    rfl

end Draft

namespace Sample

/-- Counts the orders that were refunded much. -/
def countRefunded : List (String × Json) := [
  ("aggregations", .obj [("sales.orders.id", .str "COUNT")]),
  ("filters", .arr [.obj [("id", .str "much"), ("column", .str "sales.refunds.amount_usd"),
    ("operator", .str ">"), ("value", .int 100)], .str "sales.orders"]),
  ("groupBy", .texts ["sales.refunds.order_id"])]

def countedRefunded : Draft where
  tables := [refunds, orders]
  columns := [refunds.column "order_id", orders.column "id"]
  aggregations := .ofList [(orders.column "id", .count)]
  filters := [⟨"much", refunds.column "amount_usd", .greater, "100"⟩]
  groupBy := [refunds.column "order_id"]
  limit := 5

theorem applyFragment_twice_countRefunded :
    haunted.applyFragment countRefunded (some .multiSchema) newIds =
      .ok ⟨countedRefunded, [.table, .filter, .formula]⟩ ∧
    ∃ dropped, countedRefunded.applyFragment countRefunded (some .multiSchema) newIds =
      .ok ⟨countedRefunded, dropped⟩ := by
  have h : haunted.applyFragment countRefunded (some .multiSchema) newIds =
      .ok ⟨countedRefunded, [.table, .filter, .formula]⟩ := by rfl
  have habsent : ∀ name, Draft.sectionItems countRefunded name = .ok [] →
      Draft.EachItem countRefunded name Draft.HasOwnId := by
    intro name hname vs hvs v hv
    rw [hname] at hvs
    cases hvs
    cases hv
  have hfilters : Draft.EachItem countRefunded "filters" Draft.HasOwnId := by
    intro vs hvs v hv fields hfields
    cases hvs
    rcases List.mem_pair.1 hv with rfl | rfl
    · cases hfields
      exact ⟨"much", rfl, by decide⟩
    · cases hfields
  have hends : ∀ t name, t ∈ [refunds, orders] → (TableId.column t name).table.EndsSolid := by
    intro t name ht
    rcases List.mem_pair.1 ht with rfl | rfl
    · exact TableId.endsSolid_of_wellParted (TableId.wellParted_of_parse? (s := "sales.refunds") rfl)
    · exact TableId.endsSolid_of_wellParted (TableId.wellParted_of_parse? (s := "sales.orders") rfl)
  have hsolid : ∀ c ∈ countedRefunded.columns, c.table.EndsSolid := by
    intro c hc
    rcases List.mem_pair.1 hc with rfl | rfl
    · exact hends _ _ (by simp)
    · exact hends _ _ (by simp)
  exact ⟨h, Draft.applyFragment_twice (fun _ => (by decide : "new" ≠ "")) (fun _ he => by cases he)
    (habsent _ rfl) hfilters (habsent _ rfl) (habsent _ rfl) h (fun _ => hsolid) newIds⟩

/-- The draft made by selecting a column whose table's name ends in a blank writes that table under a
name that is not read back, so the fragment selects a second table when it is applied again. -/
theorem applyFragment_twice_spacedId :
    (Draft.blank 100).applyFragment [("selectedColumns", .texts ["users .id"])] none newIds =
      .ok { draft := { tables := [spacedId.table], columns := [spacedId] } } ∧
    ∀ dropped, Draft.applyFragment { tables := [spacedId.table], columns := [spacedId] }
        [("selectedColumns", .texts ["users .id"])] none newIds ≠
      .ok ⟨{ tables := [spacedId.table], columns := [spacedId] }, dropped⟩ := by
  have hrun : Draft.applyFragment { tables := [spacedId.table], columns := [spacedId] }
      [("selectedColumns", .texts ["users .id"])] none newIds =
        .ok { draft := { tables := [users, spacedId.table], columns := [spacedId] } } := by rfl
  refine ⟨by rfl, fun dropped h => ?_⟩
  rw [hrun] at h
  have htables : [users, spacedId.table] = [spacedId.table] :=
    congrArg (fun r => (r.toOption.map (·.draft.tables)).getD []) h
  exact absurd htables (by decide)

end Sample

end QueryDraft
