import Mathlib
import QueryDraft.Proofs.RoundTrip

/-!
# What a fragment selects

The first three sections of a merged document make up the selection. Whether one of their entries is
accepted does not depend on the draft, so the replay makes what the accepted entries select
(`replay_selection_iff`): the tables, then those of the columns, then those of the aggregated columns,
each where it comes up first. Selecting once more from what is selected already, be it in place of the
tables, the columns or the aggregates, gives the same selection (`selecting_again`).
-/

namespace QueryDraft

/-! ### Values in order of first appearance -/

section lists

variable {α β : Type} [DecidableEq α] [DecidableEq β]

theorem distinct_concat (xs : List α) (a : α) :
    distinct (xs ++ [a]) = insertLast (distinct xs) a := by
  simp [distinct, List.foldl_append]

theorem insertLast_of_mem {xs : List α} {a : α} (h : a ∈ xs) : insertLast xs a = xs := if_pos h

theorem insertLast_of_not_mem {xs : List α} {a : α} (h : a ∉ xs) : insertLast xs a = xs ++ [a] :=
  if_neg h

theorem foldl_insertLast_of_subset {as xs : List α} (h : ∀ a ∈ as, a ∈ xs) :
    as.foldl insertLast xs = xs := by
  induction as with
  | nil => rfl
  | cons a as ih =>
    rw [List.forall_mem_cons] at h
    rw [List.foldl_cons, insertLast_of_mem h.1, ih h.2]

theorem distinct_append (xs as : List α) : distinct (xs ++ as) = as.foldl insertLast (distinct xs) :=
  List.foldl_append

theorem distinct_append_of_subset {xs as : List α} (h : ∀ a ∈ as, a ∈ xs) :
    distinct (xs ++ as) = distinct xs := by
  rw [distinct_append]
  exact foldl_insertLast_of_subset fun a ha => mem_distinct.2 (h a ha)

/-- Only the first appearance of each value counts, also for what a map makes of the values. -/
theorem distinct_append_map_distinct (f : α → β) (bs : List β) (as : List α) :
    distinct (bs ++ (distinct as).map f) = distinct (bs ++ as.map f) := by
  induction as using List.reverseRecOn with
  | nil => rfl
  | append_singleton as a ih =>
    rw [distinct_concat, List.map_append, ← List.append_assoc, List.map_singleton, distinct_concat,
      ← ih]
    by_cases ha : a ∈ distinct as
    · have hfa : f a ∈ distinct (bs ++ (distinct as).map f) :=
        mem_distinct.2 (List.mem_append_right _ (List.mem_map_of_mem ha))
      rw [insertLast_of_mem ha, insertLast_of_mem hfa]
    · rw [insertLast_of_not_mem ha, List.map_append, ← List.append_assoc, List.map_singleton,
        distinct_concat]

theorem distinct_append_distinct (xs as : List α) :
    distinct (xs ++ distinct as) = distinct (xs ++ as) := by
  have h := distinct_append_map_distinct id xs as
  rwa [List.map_id, List.map_id] at h

theorem distinct_distinct (as : List α) : distinct (distinct as) = distinct as :=
  distinct_of_nodup (nodup_distinct as)

end lists

/-! ### Entries that are accepted -/

namespace Draft

section accepted

variable {α β : Type} {kind : EntryKind} {shown : α → Json} {ids : IdSupply} {d : Draft}
  {step : String → α → Draft → Except Failure Draft}

/-- The values of the entries that are accepted. -/
def accepted (accept : α → Except Failure β) (vs : List α) : List β :=
  vs.filterMap fun v => (accept v).toOption

/-- Entries are refused for such reasons only as let them be dropped. -/
def DropsOnly (accept : α → Except Failure β) (vs : List α) : Prop :=
  ∀ v ∈ vs, ∀ e, accept v = .error e → e.isDroppable = true

/-- Entries that let themselves be dropped can be shown. -/
def ShowsDropped (shown : α → Json) (accept : α → Except Failure β) : Prop :=
  ∀ v e, accept v = .error e → e.isDroppable = true → (shown v).isShowable = true

/-- Where only texts are ever accepted or dropped, all that is dropped can be shown. -/
theorem showsDropped_of_isText {accept : α → Except Failure β}
    (h : ∀ v, ¬ (shown v).IsText → accept v = .error .notAName) : ShowsDropped shown accept := by
  intro v e he hdrop
  by_cases htext : (shown v).IsText
  · exact Json.isShowable_of_isText htext
  · rw [h v htext] at he
    cases he
    cases hdrop

theorem accepted_map {accept : α → Except Failure β} {doc : β → α} {xs : List β}
    (h : ∀ x ∈ xs, accept (doc x) = .ok x) :
    accepted accept (xs.map doc) = xs ∧ DropsOnly accept (xs.map doc) := by
  constructor
  · have hsome : ∀ x ∈ xs, (accept (doc x)).toOption = some x := by
      intro x hx
      rw [h x hx]
      rfl
    rw [accepted, List.filterMap_map]
    calc xs.filterMap (fun x => (accept (doc x)).toOption)
      _ = xs.filterMap some := List.filterMap_congr hsome
      _ = xs := List.filterMap_some
  · intro v hv e he
    obtain ⟨x, hx, rfl⟩ := List.mem_map.1 hv
    rw [h x hx] at he
    cases he

theorem exists_of_mem_accepted {accept : α → Except Failure β} {vs : List α} {b : β}
    (h : b ∈ accepted accept vs) : ∃ v ∈ vs, accept v = .ok b := by
  obtain ⟨v, hv, hb⟩ := List.mem_filterMap.1 h
  refine ⟨v, hv, ?_⟩
  cases haccept : accept v with
  | ok x =>
    rw [haccept] at hb
    cases hb
    rfl
  | error e =>
    rw [haccept] at hb
    cases hb

/-- If what a step does to what was built from the values before is to add its own, the replay builds
the draft of all accepted values. -/
theorem replayEach_eq_ok_iff {accept : α → Except Failure β} (build : List β → Draft)
    (hshown : ShowsDropped shown accept)
    (hstep : ∀ before v fresh, step fresh v (build before) =
      (accept v).map fun x => build (before ++ [x])) {vs : List α} {dropped : List EntryKind} :
    (∃ dropped', replayEach kind shown step ids 0 vs ⟨build [], dropped⟩ = .ok ⟨d, dropped'⟩) ↔
      DropsOnly accept vs ∧ d = build (accepted accept vs) := by
  have hrest : ∀ (vs : List α) (before : List β) (i : Nat) (dropped : List EntryKind),
      (∃ dropped', replayEach kind shown step ids i vs ⟨build before, dropped⟩ = .ok ⟨d, dropped'⟩) ↔
        DropsOnly accept vs ∧ d = build (before ++ accepted accept vs) := by
    intro vs
    induction vs with
    | nil =>
      intro before i dropped
      have hbuild : build (before ++ accepted accept []) = build before := by simp [accepted]
      rw [hbuild]
      constructor
      · rintro ⟨_, h⟩
        cases h
        exact ⟨fun v hv => absurd hv List.not_mem_nil, rfl⟩
      · rintro ⟨_, rfl⟩
        exact ⟨dropped, rfl⟩
    | cons v vs ih =>
      intro before i dropped
      have hcons : DropsOnly accept (v :: vs) ↔
          (∀ e, accept v = .error e → e.isDroppable = true) ∧ DropsOnly accept vs :=
        List.forall_mem_cons
      rw [hcons]
      unfold replayEach
      simp only [hstep]
      cases haccept : accept v with
      | ok x =>
        have hvs : before ++ accepted accept (v :: vs) = before ++ [x] ++ accepted accept vs := by
          simp [accepted, haccept, Except.toOption]
        simp only [Except.map, ih, hvs, reduceCtorEq, false_imp_iff, implies_true, true_and]
      | error e =>
        have hvs : accepted accept (v :: vs) = accepted accept vs := by
          simp [accepted, haccept, Except.toOption]
        by_cases hdrop : e.isDroppable = true
        · have hdropped (r : Replay) : r.drop kind (shown v) =
              .ok { r with dropped := r.dropped ++ [kind] } :=
            drop_eq_ok_iff.2 ⟨hshown v e haccept hdrop, rfl⟩
          simp only [Except.map, hdrop, if_true, hdropped, bind, Except.bind, ih, hvs,
            Except.error.injEq, forall_eq', true_and]
        · simp [Except.map, hdrop]
  exact hrest vs [] 0 dropped

end accepted

/-! ### The selection -/

variable {catalog? : Option Catalog}

/-- A table that the catalog knows, by name. -/
def acceptTable (catalog? : Option Catalog) (v : Json) : Except Failure TableId := do
  let t ← Argument.table v
  if knowsTable catalog? t then return t else throw .notInCatalog

/-- One aggregate, of a column that the catalog knows. -/
def acceptAggregate (catalog? : Option Catalog) (e : Json × Json) :
    Except Failure (ColumnId × Aggregate) := do
  let c ← knownColumn catalog? e.1
  return (c, ← Argument.aggregate e.2)

theorem acceptTable_eq_ok_iff {v : Json} {t : TableId} : acceptTable catalog? v = .ok t ↔
    Argument.table v = .ok t ∧ knowsTable catalog? t = true := by
  simp only [acceptTable, bind_eq_ok_iff]
  constructor
  · rintro ⟨t', ht', h⟩
    split_ifs at h with hknown
    cases pure_eq_ok_iff.1 h
    exact ⟨ht', hknown⟩
  · rintro ⟨ht, hknown⟩
    exact ⟨t, ht, by rw [if_pos hknown]; rfl⟩

theorem showsDropped_acceptTable : ShowsDropped id (acceptTable catalog?) :=
  showsDropped_of_isText fun v h => by
    rw [acceptTable, Argument.table_of_not_isText (v := v) h]
    rfl

theorem showsDropped_knownColumn : ShowsDropped id (knownColumn catalog?) :=
  showsDropped_of_isText fun _ h => knownColumn_of_not_isText h

theorem showsDropped_acceptAggregate : ShowsDropped Prod.fst (acceptAggregate catalog?) :=
  showsDropped_of_isText fun e h => by
    rw [acceptAggregate, knownColumn_of_not_isText h]
    rfl

theorem acceptAggregate_eq_ok_iff {e : Json × Json} {c : ColumnId} {a : Aggregate} :
    acceptAggregate catalog? e = .ok (c, a) ↔
      knownColumn catalog? e.1 = .ok c ∧ Argument.aggregate e.2 = .ok a := by
  simp only [acceptAggregate, bind_eq_ok_iff, pure_eq_ok_iff, Prod.mk.injEq]
  constructor
  · rintro ⟨c', hc, a', ha, rfl, rfl⟩
    exact ⟨hc, ha⟩
  · rintro ⟨hc, ha⟩
    exact ⟨c, hc, a, ha, rfl, rfl⟩

/-- The columns that aggregates are put on. -/
def aggregatedColumns (as : List (ColumnId × Aggregate)) : List ColumnId :=
  (as.filter (·.2 ≠ .none)).map Prod.fst

/-- The aggregates that are left when they are set one after the other. -/
def settled (as : List (ColumnId × Aggregate)) : OrderedMap ColumnId Aggregate :=
  as.foldl (fun m e => if e.2 = .none then m.erase e.1 else m.insert e.1 e.2) ∅

/-- The draft in which tables, columns and aggregates are selected, in this order. -/
def selecting (limit : Int) (ts : List TableId) (cs : List ColumnId)
    (as : List (ColumnId × Aggregate)) : Draft where
  tables := distinct (ts ++ (cs ++ aggregatedColumns as).map ColumnId.table)
  columns := distinct (cs ++ aggregatedColumns as)
  aggregations := settled as
  limit

variable {limit : Int} {ts : List TableId} {cs : List ColumnId} {as : List (ColumnId × Aggregate)}

theorem selecting_addTable (limit : Int) (ts : List TableId) (t : TableId) :
    (selecting limit ts [] []).addTable t = selecting limit (ts ++ [t]) [] [] := by
  simp [selecting, addTable, aggregatedColumns, distinct_concat]

theorem replayTable_selecting (limit : Int) (ts : List TableId) (v : Json) :
    replayTable catalog? v (selecting limit ts [] []) =
      (acceptTable catalog? v).map fun t => selecting limit (ts ++ [t]) [] [] := by
  unfold replayTable acceptTable
  cases Argument.table v with
  | error e => rfl
  | ok t =>
    show (if knowsTable catalog? t = true then _ else _) =
      Except.map _ (if knowsTable catalog? t = true then _ else _)
    split_ifs
    · rw [selecting_addTable]
      rfl
    · rfl

theorem table_mem_selecting {c : ColumnId} (h : c ∈ (selecting limit ts cs as).columns) :
    c.table ∈ (selecting limit ts cs as).tables :=
  mem_distinct.2 (List.mem_append_right _ (List.mem_map_of_mem (mem_distinct.1 h)))

/-- A further column comes with its table and stands behind the others. -/
theorem selecting_concat_column (limit : Int) (ts : List TableId) (cs : List ColumnId) (c : ColumnId) :
    selecting limit ts (cs ++ [c]) [] =
      { (selecting limit ts cs []).addTable c.table with
        columns := insertLast (selecting limit ts cs []).columns c } := by
  have htables : distinct (ts ++ (cs ++ [c]).map ColumnId.table) =
      insertLast (distinct (ts ++ cs.map ColumnId.table)) c.table := by
    rw [List.map_append, ← List.append_assoc, List.map_singleton, distinct_concat]
  simp only [selecting, addTable, aggregatedColumns, List.filter_nil, List.map_nil, List.append_nil,
    htables, distinct_concat]

theorem replayColumn_selecting (limit : Int) (ts : List TableId) (cs : List ColumnId) (v : Json) :
    replayColumn catalog? v (selecting limit ts cs []) =
      (knownColumn catalog? v).map fun c => selecting limit ts (cs ++ [c]) [] := by
  unfold replayColumn
  cases knownColumn catalog? v with
  | error e => rfl
  | ok c =>
    show Except.ok _ = Except.ok (selecting limit ts (cs ++ [c]) [])
    rw [selecting_concat_column]
    split_ifs with hc
    · rw [addTable_of_mem (table_mem_selecting hc), insertLast_of_mem hc]
    · rw [toggleColumn, if_neg hc, insertLast_of_not_mem hc]

theorem replayAggregation_selecting (limit : Int) (ts : List TableId) (cs : List ColumnId)
    (as : List (ColumnId × Aggregate)) (e : Json × Json) :
    replayAggregation catalog? e (selecting limit ts cs as) =
      (acceptAggregate catalog? e).map fun x => selecting limit ts cs (as ++ [x]) := by
  unfold replayAggregation acceptAggregate
  cases knownColumn catalog? e.1 with
  | error e => rfl
  | ok c =>
    cases Argument.aggregate e.2 with
    | error e => rfl
    | ok a =>
      show Except.ok _ = Except.ok _
      have hsettled : settled (as ++ [(c, a)]) =
          if a = .none then (settled as).erase c else (settled as).insert c a := by
        simp [settled, List.foldl_append]
      by_cases ha : a = .none
      · have hcolumns : aggregatedColumns (as ++ [(c, a)]) = aggregatedColumns as := by
          simp [aggregatedColumns, ha]
        rw [if_pos ha] at hsettled
        simp only [setAggregate, if_pos ha, selecting, hcolumns, hsettled]
      · have hcolumns : aggregatedColumns (as ++ [(c, a)]) = aggregatedColumns as ++ [c] := by
          simp [aggregatedColumns, ha]
        have htables : distinct (ts ++ (cs ++ aggregatedColumns as ++ [c]).map ColumnId.table) =
            insertLast (distinct (ts ++ (cs ++ aggregatedColumns as).map ColumnId.table)) c.table := by
          rw [List.map_append, ← List.append_assoc, List.map_singleton, distinct_concat]
        rw [if_neg ha] at hsettled
        simp only [setAggregate, if_neg ha, selecting, hcolumns, hsettled, addTable,
          ← List.append_assoc cs, distinct_concat, htables]

section replays

variable {ids : IdSupply} {vs ws : List Json} {ps : List (Json × Json)} {d : Draft}
  {dropped : List EntryKind}

theorem replay_tables_iff :
    (∃ x, replayEach .table id (fun _ => replayTable catalog?) ids 0 vs ⟨blank limit, dropped⟩ =
      .ok ⟨d, x⟩) ↔ DropsOnly (acceptTable catalog?) vs ∧
        d = selecting limit (accepted (acceptTable catalog?) vs) [] [] :=
  replayEach_eq_ok_iff (fun ts => selecting limit ts [] []) showsDropped_acceptTable
    fun before v _ => replayTable_selecting limit before v

theorem replay_columns_iff :
    (∃ x, replayEach .column id (fun _ => replayColumn catalog?) ids 0 ws
      ⟨selecting limit ts [] [], dropped⟩ = .ok ⟨d, x⟩) ↔ DropsOnly (knownColumn catalog?) ws ∧
        d = selecting limit ts (accepted (knownColumn catalog?) ws) [] :=
  replayEach_eq_ok_iff (fun cs => selecting limit ts cs []) showsDropped_knownColumn
    fun before v _ => replayColumn_selecting limit ts before v

theorem replay_aggregations_iff :
    (∃ x, replayEach .aggregation Prod.fst (fun _ => replayAggregation catalog?) ids 0 ps
      ⟨selecting limit ts cs [], dropped⟩ = .ok ⟨d, x⟩) ↔ DropsOnly (acceptAggregate catalog?) ps ∧
        d = selecting limit ts cs (accepted (acceptAggregate catalog?) ps) :=
  replayEach_eq_ok_iff (fun as => selecting limit ts cs as) showsDropped_acceptAggregate
    fun before e _ => replayAggregation_selecting limit ts cs before e

/-- The three sections of the selection, replayed one after the other on a blank draft, make the
draft in which their accepted entries are selected. -/
theorem replay_selection_iff :
    (∃ r₁, replayEach .table id (fun _ => replayTable catalog?) ids 0 vs ⟨blank limit, []⟩ = .ok r₁ ∧
      ∃ r₂, replayEach .column id (fun _ => replayColumn catalog?) ids 0 ws r₁ = .ok r₂ ∧
        ∃ x, replayEach .aggregation Prod.fst (fun _ => replayAggregation catalog?) ids 0 ps r₂ =
          .ok ⟨d, x⟩) ↔
      (DropsOnly (acceptTable catalog?) vs ∧ DropsOnly (knownColumn catalog?) ws ∧
        DropsOnly (acceptAggregate catalog?) ps) ∧
      d = selecting limit (accepted (acceptTable catalog?) vs) (accepted (knownColumn catalog?) ws)
        (accepted (acceptAggregate catalog?) ps) := by
  constructor
  · rintro ⟨⟨d₁, x₁⟩, h₁, ⟨d₂, x₂⟩, h₂, x₃, h₃⟩
    obtain ⟨hvs, rfl⟩ := replay_tables_iff.1 ⟨x₁, h₁⟩
    obtain ⟨hws, rfl⟩ := replay_columns_iff.1 ⟨x₂, h₂⟩
    obtain ⟨hps, rfl⟩ := replay_aggregations_iff.1 ⟨x₃, h₃⟩
    exact ⟨⟨hvs, hws, hps⟩, rfl⟩
  · rintro ⟨⟨hvs, hws, hps⟩, rfl⟩
    obtain ⟨x₁, h₁⟩ := replay_tables_iff.2 ⟨hvs, rfl⟩
    obtain ⟨x₂, h₂⟩ := replay_columns_iff.2 ⟨hws, rfl⟩
    obtain ⟨x₃, h₃⟩ := replay_aggregations_iff.2 ⟨hps, rfl⟩
    exact ⟨_, h₁, _, h₂, x₃, h₃⟩

end replays

/-! ### Once more -/

theorem keys_ofList (as : List (ColumnId × Aggregate)) :
    (OrderedMap.ofList as).keys = distinct (as.map Prod.fst) := by
  induction as using List.reverseRecOn with
  | nil => rfl
  | append_singleton as e ih =>
    have hput : ∀ m : OrderedMap ColumnId Aggregate, (m.insert e.1 e.2).keys = insertLast m.keys e.1 :=
      fun m => Entries.keys_put m.entries e.1 e.2
    rw [← OrderedMap.insert_ofList, hput, ih, List.map_append, List.map_singleton, distinct_concat]

theorem settled_eq_ofList (h : ∀ e ∈ as, e.2 ≠ .none) : settled as = .ofList as := by
  induction as using List.reverseRecOn with
  | nil => rfl
  | append_singleton as e ih =>
    rw [List.forall_mem_append, List.forall_mem_singleton] at h
    have hsettled : settled (as ++ [e]) = (settled as).insert e.1 e.2 := by
      simp [settled, List.foldl_append, h.2]
    rw [hsettled, ih h.1, OrderedMap.insert_ofList]

theorem aggregatedColumns_eq_map (h : ∀ e ∈ as, e.2 ≠ .none) :
    aggregatedColumns as = as.map Prod.fst := by
  rw [aggregatedColumns, List.filter_eq_self.2]
  intro e he
  simpa using h e he

/-- The aggregates that are left settle to themselves and are of the same columns. -/
theorem settled_entries (h : ∀ e ∈ as, e.2 ≠ .none) :
    settled (settled as).entries = settled as ∧
      aggregatedColumns (settled as).entries = distinct (aggregatedColumns as) := by
  rw [settled_eq_ofList h, aggregatedColumns_eq_map h]
  have hentries : ∀ e ∈ (OrderedMap.ofList as).entries, e.2 ≠ .none :=
    Entries.forall_mem_putAll (by simp) h
  constructor
  · rw [settled_eq_ofList hentries, OrderedMap.ofList_entries]
  · rw [aggregatedColumns_eq_map hentries, ← keys_ofList]
    rfl

theorem selecting_again {ts' : List TableId} {cs' : List ColumnId} {as' : List (ColumnId × Aggregate)}
    (hts : ts' = ts ∨ ts' = (selecting limit ts cs as).tables)
    (hcs : cs' = cs ∨ cs' = (selecting limit ts cs as).columns)
    (has : as' = as ∨
      (as' = (selecting limit ts cs as).aggregations.entries ∧ ∀ e ∈ as, e.2 ≠ .none))
    (limit' : Int) : selecting limit' ts' cs' as' = (selecting limit ts cs as).setLimit limit' := by
  obtain ⟨hsettled, hsame⟩ : settled as' = settled as ∧
      distinct (aggregatedColumns as') = distinct (aggregatedColumns as) := by
    rcases has with rfl | ⟨rfl, hsolid⟩
    · exact ⟨rfl, rfl⟩
    · obtain ⟨hsettled, hcolumns⟩ := settled_entries hsolid
      refine ⟨hsettled, ?_⟩
      show distinct (aggregatedColumns (settled as).entries) = _
      rw [hcolumns, distinct_distinct]
  have hcolumns : distinct (cs' ++ aggregatedColumns as') = distinct (cs ++ aggregatedColumns as) := by
    rw [← distinct_append_distinct, hsame, distinct_append_distinct]
    rcases hcs with rfl | rfl
    · rfl
    · show distinct (distinct (cs ++ aggregatedColumns as) ++ aggregatedColumns as) = _
      rw [distinct_append_of_subset, distinct_distinct]
      exact fun c hc => mem_distinct.2 (List.mem_append_right _ hc)
  have htables : distinct (ts' ++ (cs' ++ aggregatedColumns as').map ColumnId.table) =
      distinct (ts ++ (cs ++ aggregatedColumns as).map ColumnId.table) := by
    rw [← distinct_append_map_distinct, hcolumns, distinct_append_map_distinct]
    rcases hts with rfl | rfl
    · rfl
    · show distinct (distinct (ts ++ (cs ++ aggregatedColumns as).map ColumnId.table) ++ _) = _
      rw [distinct_append_of_subset, distinct_distinct]
      exact fun t ht => mem_distinct.2 (List.mem_append_right _ ht)
  simp only [selecting, setLimit, htables, hcolumns, hsettled]

end Draft

end QueryDraft
