import Mathlib
import QueryDraft.Proofs.RoundTrip

/-!
# Edits within a catalog

A draft that is grounded in a catalog stays so under every edit that names only what the catalog has
(`Edit.IsWithin`), whatever the draft was made by: a removed table takes along all that refers to it,
and a column comes with its table. A changed entry counts with the columns it has after the change;
naming a table the catalog has is not enough, since the column it leaves in place may be missing
there (`valid_runs_halfChanged`).
-/

namespace QueryDraft

/-- The tables and columns that an edit brings into a draft are in the catalog, those of a changed
entry as they are after the change. -/
def Edit.IsWithin (catalog : Catalog) (d : Draft) : Edit → Prop
  | addTable t | toggleTable t => catalog.hasTable t = true
  | toggleColumn c | setAggregate c _ | toggleGroupBy c => (catalog.column? c).isSome = true
  | selectColumns t names => catalog.hasTable t = true ∧
      ∀ name ∈ names, (catalog.column? (t.column name)).isSome = true
  | addJoin j => (catalog.column? j.source).isSome = true ∧ (catalog.column? j.target).isSome = true
  | updateJoin id changes => ∀ j ∈ d.joins, j.id = id → ∀ k,
      Join.ofEntries id (Draft.changed j.plainEntries changes id) = .value k →
        (catalog.column? k.source).isSome = true ∧ (catalog.column? k.target).isSome = true
  | addFilter f => (catalog.column? f.column).isSome = true
  | updateFilter id changes => ∀ f ∈ d.filters, f.id = id → ∀ g,
      Filter.ofEntries id (Draft.changed f.entries changes id) = .value g →
        (catalog.column? g.column).isSome = true
  | addSort s => (catalog.column? s.column).isSome = true
  | updateSort id changes => ∀ s ∈ d.orderBy, s.id = id → ∀ r,
      SortKey.ofEntries id (Draft.changed s.entries changes id) = .value r →
        (catalog.column? r.column).isSome = true
  | applyFragment _ catalog? | applyStarter _ catalog? => catalog? = some catalog
  | _ => True

namespace Draft

variable {catalog : Catalog} {d d' : Draft} {ids : IdSupply}

/-! ### What is offered -/

theorem Offers.addTable {c : ColumnId} (h : d.Offers catalog c) (t : TableId) :
    (d.addTable t).Offers catalog c := ⟨mem_insertLast.2 (.inl h.1), h.2⟩

theorem offers_addTable (d : Draft) {c : ColumnId} (h : (catalog.column? c).isSome = true) :
    (d.addTable c.table).Offers catalog c := ⟨Coherent.mem_tables_addTable d c.table, h⟩

theorem hasTable_of_column? {c : ColumnId} (h : (catalog.column? c).isSome = true) :
    catalog.hasTable c.table = true := by
  have hknows : knowsColumn (some catalog) c = true := h
  exact knowsTable_of_knowsColumn hknows

namespace Grounded

theorem blank (limit : Int) : (Draft.blank limit).Grounded catalog :=
  grounded_iff.2 rfl

/-! ### Tables -/

theorem addTable (h : d.Grounded catalog) {t : TableId} (ht : catalog.hasTable t = true) :
    (d.addTable t).Grounded catalog where
  tables := forall_insertLast h.tables ht
  columns := fun c hc => (h.columns c hc).addTable t
  aggregated := fun c hc => (h.aggregated c hc).addTable t
  filters := fun f hf => (h.filters f hf).addTable t
  groupBy := fun c hc => (h.groupBy c hc).addTable t
  orderBy := fun s hs => (h.orderBy s hs).addTable t
  joins := fun j hj => ⟨(h.joins j hj).1.addTable t, (h.joins j hj).2.addTable t⟩
  noLoops := h.noLoops

/-- What is left when a table goes refers to other tables only, and these stay. -/
theorem removeTable (h : d.Grounded catalog) (t : TableId) : (d.removeTable t).Grounded catalog := by
  by_cases ht : t ∈ d.tables
  · have hkept : ∀ c, d.Offers catalog c → c.table ≠ t → (d.removeTable t).Offers catalog c := by
      intro c hc hne
      refine ⟨?_, hc.2⟩
      rw [Draft.removeTable, if_pos ht]
      exact List.mem_filter.2 ⟨hc.1, by simpa using hne⟩
    rw [Draft.removeTable, if_pos ht] at hkept ⊢
    refine {
      tables := forall_filter h.tables _
      columns := fun c hc => ?_
      aggregated := fun c hc => ?_
      filters := fun f hf => ?_
      groupBy := fun c hc => ?_
      orderBy := fun s hs => ?_
      joins := fun j hj => ?_
      noLoops := forall_filter h.noLoops _ }
    · obtain ⟨hc, hne⟩ := List.mem_filter.1 hc
      exact hkept c (h.columns c hc) (by simpa using hne)
    · obtain ⟨hc, hne⟩ := OrderedMap.mem_keys_filterKeys.1 hc
      exact hkept c (h.aggregated c hc) (by simpa using hne)
    · obtain ⟨hf, hne⟩ := List.mem_filter.1 hf
      exact hkept f.column (h.filters f hf) (by simpa using hne)
    · obtain ⟨hc, hne⟩ := List.mem_filter.1 hc
      exact hkept c (h.groupBy c hc) (by simpa using hne)
    · obtain ⟨hs, hne⟩ := List.mem_filter.1 hs
      exact hkept s.column (h.orderBy s hs) (by simpa using hne)
    · obtain ⟨hj, hne⟩ := List.mem_filter.1 hj
      simp only [Join.mentions, Bool.not_or, Bool.and_eq_true, Bool.not_eq_true',
        decide_eq_false_iff_not] at hne
      exact ⟨hkept j.source (h.joins j hj).1 hne.1, hkept j.target (h.joins j hj).2 hne.2⟩
  · rw [Draft.removeTable, if_neg ht]
    exact h

/-! ### Columns and aggregates -/

theorem filterColumns (h : d.Grounded catalog) (keep : ColumnId → Bool) : Grounded catalog
    { d with columns := d.columns.filter keep, aggregations := d.aggregations.filterKeys keep } :=
  { h with
    columns := forall_filter h.columns _
    aggregated := fun c hc => h.aggregated c (OrderedMap.mem_keys_filterKeys.1 hc).1 }

theorem toggleColumn (h : d.Grounded catalog) {c : ColumnId}
    (hc : (catalog.column? c).isSome = true) : (d.toggleColumn c).Grounded catalog := by
  unfold Draft.toggleColumn
  split_ifs
  · exact h.filterColumns (· ≠ c)
  · have hd := h.addTable (hasTable_of_column? hc)
    exact { hd with columns := forall_append_singleton hd.columns (offers_addTable d hc) }

theorem selectColumns (h : d.Grounded catalog) {t : TableId} {names : List String}
    (ht : catalog.hasTable t = true)
    (hnames : ∀ name ∈ names, (catalog.column? (t.column name)).isSome = true) :
    (d.selectColumns t names).Grounded catalog := by
  have hd := h.addTable ht
  refine { hd with columns := fun c hc => ?_ }
  rcases mem_foldl_insertLast.1 hc with hc | hc
  · exact hd.columns c hc
  · obtain ⟨name, hname, rfl⟩ := List.mem_map.1 hc
    exact offers_addTable d (hnames name hname)

theorem setAggregate (h : d.Grounded catalog) {c : ColumnId}
    (hc : (catalog.column? c).isSome = true) (a : Aggregate) :
    (d.setAggregate c a).Grounded catalog := by
  unfold Draft.setAggregate
  split_ifs
  · exact { h with
      aggregated := fun c' hc' => h.aggregated c' (OrderedMap.mem_keys_filterKeys.1 hc').1 }
  · have hd := h.addTable (hasTable_of_column? hc)
    have hoffers := offers_addTable d hc
    refine { hd with
      columns := forall_insertLast hd.columns hoffers
      aggregated := fun c' hc' => ?_ }
    rcases OrderedMap.mem_keys_insert.1 hc' with hc' | rfl
    · exact hd.aggregated c' hc'
    · exact hoffers

/-! ### Joins and groupings -/

theorem addJoin (h : d.Grounded catalog) {j : Join}
    (hj : (catalog.column? j.source).isSome = true ∧ (catalog.column? j.target).isSome = true)
    (hrun : d.addJoin j = .ok d') : d'.Grounded catalog := by
  obtain ⟨_, rfl⟩ | ⟨_, hne, hs, ht, rfl⟩ := addJoin_eq_ok_iff.1 hrun
  · exact h
  · exact { h with
      joins := forall_append_singleton h.joins ⟨⟨hs, hj.1⟩, ht, hj.2⟩
      noLoops := forall_append_singleton h.noLoops hne }

theorem toggleGroupBy (h : d.Grounded catalog) {c : ColumnId}
    (hc : (catalog.column? c).isSome = true) (hrun : d.toggleGroupBy c = .ok d') :
    d'.Grounded catalog := by
  obtain ⟨_, rfl⟩ | ⟨_, ht, rfl⟩ := toggleGroupBy_eq_ok_iff.1 hrun
  · exact { h with groupBy := forall_filter h.groupBy _ }
  · exact { h with groupBy := forall_append_singleton h.groupBy ⟨ht, hc⟩ }

/-! ### All edits -/

theorem of_applyFragment {fragment : List (String × Json)} {r : Replay}
    (h : d.applyFragment fragment (some catalog) ids = .ok r) : r.draft.Grounded catalog := by
  have hknown : r.draft.Meets (.known (some catalog)) :=
    meets_of_applyFragment h fun e he path => known_admits_of_replays he _
  exact grounded_iff.2 ((referenceFaults_eq_nil_iff (coherent_of_applyFragment h)).2 hknown)

theorem run {e : Edit} (h : d.Grounded catalog) (he : e.IsWithin catalog d)
    (hrun : e.run ids d = .ok d') : d'.Grounded catalog := by
  have hmem : ∀ {α : Type} {as before after : List α} {a : α}, as = before ++ a :: after → a ∈ as := by
    rintro α as before after a rfl
    exact List.mem_append_right _ (List.mem_cons_self ..)
  cases e with
  | addTable t => cases hrun; exact h.addTable he
  | removeTable t => cases hrun; exact h.removeTable t
  | toggleTable t =>
    cases hrun
    unfold Draft.toggleTable
    split_ifs
    · exact h.removeTable t
    · exact h.addTable he
  | clear => cases hrun; exact blank d.limit
  | toggleColumn c => cases hrun; exact h.toggleColumn he
  | selectColumns t names => cases hrun; exact h.selectColumns he.1 he.2
  | deselectColumns t names => cases hrun; exact h.filterColumns _
  | setAggregate c a => cases hrun; exact h.setAggregate he a
  | addJoin j => exact h.addJoin he (mapError_eq_ok_iff.1 hrun)
  | updateJoin id changes =>
    obtain ⟨before, j, after, k, hjoins, hj, hread, _, hne, hs, ht, rfl⟩ := exists_of_updateJoin hrun
    obtain ⟨hsource, htarget⟩ := he j (hmem hjoins) hj k hread
    exact { h with
      joins := forall_replaced h.joins hjoins fun _ => ⟨⟨hs, hsource⟩, ht, htarget⟩
      noLoops := forall_replaced h.noLoops hjoins fun _ => hne }
  | removeJoin id =>
    cases hrun
    exact { h with joins := forall_filter h.joins _, noLoops := forall_filter h.noLoops _ }
  | addFilter f =>
    obtain ⟨ht, rfl⟩ := addFilter_eq_ok_iff.1 (mapError_eq_ok_iff.1 hrun)
    exact { h with filters := forall_append_singleton h.filters ⟨ht, he⟩ }
  | updateFilter id changes =>
    obtain ⟨before, f, after, g, hfilters, hf, hread, _, ht, rfl⟩ := exists_of_updateFilter hrun
    have hg := he f (hmem hfilters) hf g hread
    exact { h with filters := forall_replaced h.filters hfilters fun _ => ⟨ht, hg⟩ }
  | removeFilter id => cases hrun; exact { h with filters := forall_filter h.filters _ }
  | toggleGroupBy c => exact h.toggleGroupBy he (mapError_eq_ok_iff.1 hrun)
  | addSort s =>
    obtain ⟨ht, rfl⟩ := addSort_eq_ok_iff.1 (mapError_eq_ok_iff.1 hrun)
    exact { h with orderBy := forall_append_singleton h.orderBy ⟨ht, he⟩ }
  | updateSort id changes =>
    obtain ⟨before, s, after, r, hsorts, hs, hread, _, ht, rfl⟩ := exists_of_updateSort hrun
    have hr := he s (hmem hsorts) hs r hread
    exact { h with orderBy := forall_replaced h.orderBy hsorts fun _ => ⟨ht, hr⟩ }
  | removeSort id => cases hrun; exact { h with orderBy := forall_filter h.orderBy _ }
  | addFormula f =>
    obtain ⟨_, _, rfl⟩ := addFormula_eq_ok_iff.1 (mapError_eq_ok_iff.1 hrun)
    exact { h with }
  | removeFormula id => cases hrun; exact { h with }
  | setLimit limit => cases hrun; exact { h with }
  | applyFragment fragment catalog? =>
    have hcatalog : catalog? = some catalog := he
    subst hcatalog
    obtain ⟨r, hr, rfl⟩ := map_eq_ok_iff.1 hrun
    exact of_applyFragment hr
  | applyStarter starter catalog? =>
    have hcatalog : catalog? = some catalog := he
    subst hcatalog
    obtain ⟨r, hr, rfl⟩ := map_eq_ok_iff.1 hrun
    exact of_applyFragment hr

end Grounded

/-! ### Runs -/

/-- Every edit of a run is within the catalog at the draft that it comes to. -/
def RunsWithin (catalog : Catalog) (ids : IdSupply) : (i : Nat) → Draft → List Edit → Prop
  | _, _, [] => True
  | i, d, e :: es => e.IsWithin catalog d ∧
      match e.run (ids.branch i) d with
      | .ok d' => RunsWithin catalog ids (i + 1) d' es
      | .error _ => RunsWithin catalog ids (i + 1) d es

theorem RunsWithin.cons {e : Edit} {es : List Edit} {i : Nat} (he : e.IsWithin catalog d)
    (hrun : e.run (ids.branch i) d = .ok d') (hes : RunsWithin catalog ids (i + 1) d' es) :
    RunsWithin catalog ids i d (e :: es) := by
  unfold RunsWithin
  rw [hrun]
  exact ⟨he, hes⟩

theorem Grounded.after (h : d.Grounded catalog) {i : Nat} {edits : List Edit}
    (hedits : RunsWithin catalog ids i d edits) : (after ids i d edits).Grounded catalog := by
  induction edits generalizing i d with
  | nil => exact h
  | cons e es ih =>
    obtain ⟨he, hes⟩ := hedits
    cases hrun : e.run (ids.branch i) d with
    | ok d' =>
      rw [hrun] at hes
      rw [after_cons_of_ok hrun]
      exact ih (h.run he hrun) hes
    | error fault =>
      rw [hrun] at hes
      rw [after_cons_of_error hrun]
      exact ih h hes

theorem compile_ne_reference (h : d.Grounded catalog) (fault : ReferenceFault) :
    d.compile catalog ≠ .error (.reference fault) := by
  intro hfault
  obtain ⟨-, hhead⟩ := compile_eq_reference_iff.1 hfault
  rw [grounded_iff.1 h] at hhead
  cases hhead

/-- An edit within a catalog leaves the check of references nothing to find if it found nothing
before, whatever the draft is. So a draft that came from a blank one by edits that name only what the
catalog has, in any order and with any removals in between, never fails to compile for a dangling
reference. -/
theorem valid_runs (catalog : Catalog) :
    (∀ (d d' : Draft) (ids : IdSupply) (e : Edit), d.referenceFaults catalog = [] →
      e.IsWithin catalog d → e.run ids d = .ok d' → d'.referenceFaults catalog = []) ∧
    ∀ ids limit edits, RunsWithin catalog ids 0 (blank limit) edits →
      (after ids 0 (blank limit) edits).referenceFaults catalog = [] ∧
      ∀ fault, (after ids 0 (blank limit) edits).compile catalog ≠ .error (.reference fault) := by
  constructor
  · intro d d' ids e hvalid he hrun
    have hgrounded := grounded_iff.2 hvalid
    exact grounded_iff.1 (hgrounded.run he hrun)
  · intro ids limit edits hedits
    have hgrounded := (Grounded.blank limit).after hedits
    exact ⟨grounded_iff.1 hgrounded, compile_ne_reference hgrounded⟩

end Draft

namespace Sample

def userOrders : TableId := ⟨"public", "orders"⟩

def orderItems : TableId := ⟨"public", "order_items"⟩

def byUser : Join := ⟨"j", userOrders.column "user_id", .inner, users.column "id"⟩

/-- Orders by user, the users taken away again, and a fragment. -/
def shopping : List Edit := [
  .toggleColumn (users.column "country"),
  .addTable userOrders,
  .addJoin byUser,
  .updateJoin "j" [("to_column", .str "name")],
  .setAggregate (userOrders.column "id") .count,
  .removeTable users,
  .applyFragment [("limit", .int 5)] (some .shop)]

theorem shopping_runsWithin :
    Draft.RunsWithin .shop newIds 0 (.blank usualLimit) shopping := by
  refine .cons rfl rfl (.cons rfl rfl (.cons ⟨rfl, rfl⟩ rfl (.cons ?_ rfl (.cons rfl rfl
    (.cons trivial rfl (.cons rfl rfl trivial))))))
  intro j hj _ k hread
  have hone : j = byUser := List.mem_singleton.1 hj
  subst hone
  cases hread
  exact ⟨rfl, rfl⟩

theorem valid_runs_shopping :
    Draft.RunsWithin .shop newIds 0 (.blank usualLimit) shopping ∧
    (Draft.after newIds 0 (.blank usualLimit) shopping).referenceFaults .shop = [] :=
  ⟨shopping_runsWithin, ((Draft.valid_runs .shop).2 newIds usualLimit shopping shopping_runsWithin).1⟩

def joined : Draft where
  tables := [users, userOrders, orderItems]
  joins := [byUser]

/-- A change that names a table of the catalog only leaves a join with a column that the table does
not have. -/
theorem valid_runs_halfChanged : joined.referenceFaults .shop = [] ∧
    TableId.parse? "order_items" = some orderItems ∧ Catalog.shop.hasTable orderItems = true ∧
    ((Edit.updateJoin "j" [("from_table", .str "order_items")]).run newIds joined).toOption.map
        (Draft.referenceFaults .shop) =
      some [.unknownColumn .join (orderItems.column "user_id")] :=
  ⟨rfl, rfl, rfl, rfl⟩

end Sample

end QueryDraft
