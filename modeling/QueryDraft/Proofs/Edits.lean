import Mathlib
import QueryDraft.Proofs.PartReading
import QueryDraft.Starter

/-!
# Runs of edits

`Edit`: the edits of a draft with their arguments, which may be any identifiers, parts and
documents. An edit gives a draft or fails (`Edit.run`), and a run goes on with the old draft after a
failure (`Draft.after`); `after_keeps` carries what every edit keeps through a run. The edits that
can fail are opened here, each by a lemma that says all it did if it did not.
-/

namespace QueryDraft

inductive Edit where
  | addTable (t : TableId)
  | removeTable (t : TableId)
  | toggleTable (t : TableId)
  | clear
  | toggleColumn (c : ColumnId)
  | selectColumns (t : TableId) (names : List String)
  | deselectColumns (t : TableId) (names : List String)
  | setAggregate (c : ColumnId) (a : Aggregate)
  | addJoin (j : Join)
  | updateJoin (id : String) (changes : List (String × Json))
  | removeJoin (id : String)
  | addFilter (f : Filter)
  | updateFilter (id : String) (changes : List (String × Json))
  | removeFilter (id : String)
  | toggleGroupBy (c : ColumnId)
  | addSort (s : SortKey)
  | updateSort (id : String) (changes : List (String × Json))
  | removeSort (id : String)
  | addFormula (f : Formula)
  | removeFormula (id : String)
  | setLimit (limit : Int)
  | applyFragment (fragment : List (String × Json)) (catalog? : Option Catalog)
  | applyStarter (starter : Starter) (catalog? : Option Catalog)

/-- The draft after an edit. A filter, sort key or formula with an empty id gets a fresh one. -/
def Edit.run (ids : IdSupply) (d : Draft) : Edit → Except Failure Draft
  | addTable t => .ok (d.addTable t)
  | removeTable t => .ok (d.removeTable t)
  | toggleTable t => .ok (d.toggleTable t)
  | clear => .ok d.clear
  | toggleColumn c => .ok (d.toggleColumn c)
  | selectColumns t names => .ok (d.selectColumns t names)
  | deselectColumns t names => .ok (d.deselectColumns t names)
  | setAggregate c a => .ok (d.setAggregate c a)
  | addJoin j => (d.addJoin j).mapError .fault
  | updateJoin id changes => d.updateJoin id changes
  | removeJoin id => .ok (d.removeJoin id)
  | addFilter f => (d.addFilter { f with id := Draft.idOr ids.id f.id }).mapError .fault
  | updateFilter id changes => d.updateFilter id changes
  | removeFilter id => .ok (d.removeFilter id)
  | toggleGroupBy c => (d.toggleGroupBy c).mapError .fault
  | addSort s => (d.addSort { s with id := Draft.idOr ids.id s.id }).mapError .fault
  | updateSort id changes => d.updateSort id changes
  | removeSort id => .ok (d.removeSort id)
  | addFormula f => (d.addFormula { f with id := Draft.idOr ids.id f.id }).mapError .fault
  | removeFormula id => .ok (d.removeFormula id)
  | setLimit limit => .ok (d.setLimit limit)
  | applyFragment fragment catalog? => Replay.draft <$> d.applyFragment fragment catalog? ids
  | applyStarter starter catalog? => Replay.draft <$> starter.apply d catalog? ids

/-- The draft after some edits, the supply having a branch for each. An edit that fails leaves the
draft as it is. -/
def Draft.after (ids : IdSupply) : (i : Nat) → Draft → List Edit → Draft
  | _, d, [] => d
  | i, d, e :: es =>
    match e.run (ids.branch i) d with
    | .ok d' => after ids (i + 1) d' es
    | .error _ => after ids (i + 1) d es

section run

variable {ids : IdSupply} {i : Nat} {d d' : Draft} {e : Edit} {es : List Edit}

theorem Draft.after_cons_of_ok (hrun : e.run (ids.branch i) d = .ok d') :
    after ids i d (e :: es) = after ids (i + 1) d' es := by rw [after, hrun]

theorem Draft.after_cons_of_error {fault : Failure}
    (hrun : e.run (ids.branch i) d = .error fault) :
    after ids i d (e :: es) = after ids (i + 1) d es := by rw [after, hrun]

end run

/-- What every edit of a run keeps is kept by the run. -/
theorem Draft.after_keeps {P : Draft → Prop} {ids : IdSupply} {es : List Edit}
    (hstep : ∀ e ∈ es, ∀ i d d', P d → e.run (ids.branch i) d = .ok d' → P d') (i : Nat) {d : Draft}
    (hd : P d) : P (after ids i d es) := by
  induction es generalizing i d with
  | nil => exact hd
  | cons e es ih =>
    rw [List.forall_mem_cons] at hstep
    unfold after
    split
    · rename_i d' he
      exact ih hstep.2 (i + 1) (hstep.1 i d d' hd he)
    · exact ih hstep.2 (i + 1) hd

/-! ### Results -/

section results

variable {α β ε ε' : Type}

theorem bind_eq_ok_iff {x : Except ε α} {f : α → Except ε β} {b : β} :
    x >>= f = .ok b ↔ ∃ a, x = .ok a ∧ f a = .ok b := by
  cases x <;> simp [bind, Except.bind]

theorem map_eq_ok_iff {x : Except ε α} {f : α → β} {b : β} :
    f <$> x = .ok b ↔ ∃ a, x = .ok a ∧ f a = b := by
  cases x <;> simp [Functor.map, Except.map]

theorem mapError_eq_ok_iff {x : Except ε α} {f : ε → ε'} {a : α} :
    x.mapError f = .ok a ↔ x = .ok a := by
  cases x <;> simp [Except.mapError]

theorem pure_eq_ok_iff {a b : α} : (pure a : Except ε α) = .ok b ↔ b = a := by
  simp [pure, Except.pure, eq_comm]

theorem Reading.orFail_eq_ok_iff {r : Reading α} {a : α} : r.orFail = .ok a ↔ r = .value a := by
  cases r <;> simp [orFail]

theorem acceptOrFail_eq_ok_iff {x : Except BadValue α} {a : α} :
    acceptOrFail x = .ok a ↔ x = .ok a := by
  cases x <;> simp [acceptOrFail]

end results

/-! ### Lists with a value added, left out or replaced -/

section lists

variable {α : Type}

theorem forall_insertLast [DecidableEq α] {p : α → Prop} {as : List α} {a : α}
    (has : ∀ x ∈ as, p x) (ha : p a) : ∀ x ∈ insertLast as a, p x := by
  intro x hx
  rcases mem_insertLast.1 hx with hx | rfl
  · exact has x hx
  · exact ha

theorem forall_append_singleton {p : α → Prop} {as : List α} {a : α}
    (has : ∀ x ∈ as, p x) (ha : p a) : ∀ x ∈ as ++ [a], p x := by
  intro x hx
  rcases List.mem_append.1 hx with hx | hx
  · exact has x hx
  · exact List.mem_singleton.1 hx ▸ ha

theorem forall_filter {p : α → Prop} {as : List α} (has : ∀ x ∈ as, p x) (q : α → Bool) :
    ∀ x ∈ as.filter q, p x := fun x hx => has x (List.mem_filter.1 hx).1

theorem forall_replaced {p : α → Prop} {as before after : List α} {a b : α}
    (has : ∀ x ∈ as, p x) (h : as = before ++ a :: after) (hb : p a → p b) :
    ∀ x ∈ before ++ b :: after, p x := by
  subst h
  simp only [List.forall_mem_append, List.forall_mem_cons] at has ⊢
  exact ⟨has.1, hb has.2.1, has.2.2⟩

theorem nodup_append_singleton {as : List α} {a : α} (has : as.Nodup) (ha : a ∉ as) :
    (as ++ [a]).Nodup := by
  rw [← List.concat_eq_append]
  exact has.concat ha

theorem not_mem_of_nodup_append {as before after : List α} {a : α} (has : as.Nodup)
    (h : as = before ++ a :: after) : a ∉ before := by
  rw [h, List.nodup_append] at has
  exact fun ha => has.2.2 a ha a (List.mem_cons_self ..) rfl

variable [DecidableEq α]

theorem mem_foldl_insertLast {as xs : List α} {b : α} :
    b ∈ as.foldl insertLast xs ↔ b ∈ xs ∨ b ∈ as := by
  induction as generalizing xs with
  | nil => simp
  | cons a as ih => rw [List.foldl_cons, ih, mem_insertLast, List.mem_cons, or_assoc]

theorem nodup_foldl_insertLast {as xs : List α} (h : xs.Nodup) : (as.foldl insertLast xs).Nodup := by
  induction as generalizing xs with
  | nil => exact h
  | cons a as ih => exact ih (nodup_insertLast h a)

theorem foldl_insertLast_of_nodup {as xs : List α} (h : (xs ++ as).Nodup) :
    as.foldl insertLast xs = xs ++ as := by
  induction as generalizing xs with
  | nil => rw [List.append_nil]; rfl
  | cons a as ih =>
    have hsplit : xs ++ a :: as = (xs ++ [a]) ++ as := by simp
    have ha : a ∉ xs := fun hmem => (List.nodup_append.1 h).2.2 a hmem a (List.mem_cons_self ..) rfl
    rw [List.foldl_cons, insertLast, if_neg ha, hsplit]
    exact ih (hsplit ▸ h)

theorem mem_distinct {as : List α} {b : α} : b ∈ distinct as ↔ b ∈ as := by
  simp [distinct, mem_foldl_insertLast]

theorem nodup_distinct (as : List α) : (distinct as).Nodup := nodup_foldl_insertLast .nil

theorem distinct_of_nodup {as : List α} (h : as.Nodup) : distinct as = as := by
  have hnil : ([] ++ as).Nodup := h
  exact foldl_insertLast_of_nodup hnil

end lists

namespace Draft

variable {d d' : Draft}

/-! ### Edits that can fail -/

theorem requireTable_eq_ok_iff {role : Role} {t : TableId} {u : Unit} :
    d.requireTable role t = .ok u ↔ t ∈ d.tables := by
  unfold requireTable
  split_ifs with h <;> simp [h]

theorem checkJoin_eq_ok_iff {j : Join} {u : Unit} : d.checkJoin j = .ok u ↔
    j.source.table ≠ j.target.table ∧ j.source.table ∈ d.tables ∧ j.target.table ∈ d.tables := by
  unfold checkJoin
  split_ifs with h
  · simp [h]
  · simp [h, bind_eq_ok_iff, requireTable_eq_ok_iff]

theorem addJoin_eq_ok_iff {j : Join} : d.addJoin j = .ok d' ↔
    (j.id ∈ d.joins.map Join.id ∧ d' = d) ∨
      (j.id ∉ d.joins.map Join.id ∧ j.source.table ≠ j.target.table ∧ j.source.table ∈ d.tables ∧
        j.target.table ∈ d.tables ∧ d' = { d with joins := d.joins ++ [j] }) := by
  have hany : d.joins.any (·.id == j.id) = true ↔ j.id ∈ d.joins.map Join.id := by simp
  unfold addJoin
  split_ifs with h
  · simp [hany.1 h, eq_comm]
  · rw [hany] at h
    simp only [bind_eq_ok_iff, checkJoin_eq_ok_iff, pure_eq_ok_iff, exists_const, and_assoc, h,
      false_and, false_or, not_false_eq_true, true_and]

theorem addFilter_eq_ok_iff {f : Filter} : d.addFilter f = .ok d' ↔
    f.column.table ∈ d.tables ∧ d' = { d with filters := d.filters ++ [f] } := by
  simp only [addFilter, bind_eq_ok_iff, requireTable_eq_ok_iff, pure_eq_ok_iff, exists_const]

theorem addSort_eq_ok_iff {s : SortKey} : d.addSort s = .ok d' ↔
    s.column.table ∈ d.tables ∧ d' = { d with orderBy := d.orderBy ++ [s] } := by
  simp only [addSort, bind_eq_ok_iff, requireTable_eq_ok_iff, pure_eq_ok_iff, exists_const]

theorem toggleGroupBy_eq_ok_iff {c : ColumnId} : d.toggleGroupBy c = .ok d' ↔
    (c ∈ d.groupBy ∧ d' = { d with groupBy := d.groupBy.filter (· ≠ c) }) ∨
      (c ∉ d.groupBy ∧ c.table ∈ d.tables ∧ d' = { d with groupBy := d.groupBy ++ [c] }) := by
  unfold toggleGroupBy
  split_ifs with h
  · simp [h, eq_comm]
  · simp only [bind_eq_ok_iff, requireTable_eq_ok_iff, pure_eq_ok_iff, exists_const, h, false_and,
      false_or, not_false_eq_true, true_and]

theorem formulaFault?_eq_none_iff {name expression : String} :
    formulaFault? name expression = none ↔ Text.isBlankText name = false ∧
      Text.isBlankText expression = false ∧
      expression.toList.count '(' = expression.toList.count ')' := by
  unfold formulaFault?
  split_ifs <;> simp_all

theorem addFormula_eq_ok_iff {f : Formula} : d.addFormula f = .ok d' ↔
    formulaFault? f.name f.expression = none ∧
      Text.sanitizeAlias f.name ∉ d.formulas.map Formula.name ∧
      d' = { d with formulas := d.formulas ++
        [{ f with name := Text.sanitizeAlias f.name, expression := Text.strip f.expression }] } := by
  unfold addFormula
  cases formulaFault? f.name f.expression with
  | some fault => simp
  | none =>
    have hany : d.formulas.any (·.name == Text.sanitizeAlias f.name) = true ↔
        Text.sanitizeAlias f.name ∈ d.formulas.map Formula.name := by simp
    simp only [hany, true_and]
    split_ifs with h
    · simp [h]
    · simp [h, eq_comm]

/-! ### Changed entries -/

theorem exists_of_replaceFirst {α : Type} {p : α → Bool} {f : α → Except Failure α}
    {as bs : List α} (h : replaceFirst p f as = .ok (some bs)) :
    ∃ before a after b, as = before ++ a :: after ∧ (∀ x ∈ before, p x = false) ∧ p a = true ∧
      f a = .ok b ∧ bs = before ++ b :: after := by
  induction as generalizing bs with
  | nil => cases h
  | cons a as ih =>
    unfold replaceFirst at h
    split_ifs at h with hp
    · obtain ⟨b, hb, hbs⟩ := map_eq_ok_iff.1 h
      cases hbs
      exact ⟨[], a, as, b, rfl, by simp, hp, hb, rfl⟩
    · obtain ⟨found, hfound, hbs⟩ := map_eq_ok_iff.1 h
      obtain ⟨cs, rfl, rfl⟩ := Option.map_eq_some_iff.1 hbs
      obtain ⟨before, a', after, b, rfl, hbefore, ha', hb, rfl⟩ := ih hfound
      refine ⟨a :: before, a', after, b, rfl, ?_, ha', hb, rfl⟩
      exact List.forall_mem_cons.2 ⟨by simpa using hp, hbefore⟩

theorem orUnknown_eq_ok_iff {α : Type} {id : String} {found : Option α} {a : α} :
    orUnknown id found = .ok a ↔ found = some a := by
  cases found <;> simp [orUnknown]

/-- A changed entry has its id, else the changes, else what it had. -/
theorem last?_changed {fields : List (String × Json)} (h : (fields.map Prod.fst).Nodup)
    (changes : List (String × Json)) (id k : String) :
    Entries.last? (changed fields changes id) k =
      if k = "id" then some (.str id)
      else (Entries.last? changes k).or (Entries.last? fields k) := by
  rw [changed, Entries.last?_eq_first? (Entries.nodup_put (Entries.nodup_putAll h changes) _ _),
    Entries.first?_put, Entries.first?_putAll, Entries.last?_eq_first? h]

theorem field_id_changed {fields changes : List (String × Json)} {id id' : String}
    (h : (fields.map Prod.fst).Nodup) (fresh : String)
    (hread : Reading.field ⟨"id", "id"⟩ (some fresh) Reading.text (changed fields changes id) =
      .value id') : id' = id := by
  have hentry : Reading.FieldName.entry? ⟨"id", "id"⟩ (changed fields changes id) = some (.str id) := by
    simp [Reading.FieldName.entry?, last?_changed h]
  rcases Reading.field_eq_value.1 hread with ⟨v, hv, hid⟩ | ⟨hnone, _⟩
  · rw [hentry] at hv
    cases hv
    cases hid
    rfl
  · rw [hentry] at hnone
    cases hnone

theorem nodup_plainEntries (j : Join) : (j.plainEntries.map Prod.fst).Nodup := by
  show ["id", "from_table", "from_column", "type", "to_table", "to_column"].Nodup
  decide

theorem nodup_filterEntries (f : Filter) : (f.entries.map Prod.fst).Nodup := by
  show ["id", "column", "operator", "value"].Nodup
  decide

theorem nodup_sortEntries (s : SortKey) : (s.entries.map Prod.fst).Nodup := by
  show ["id", "column", "direction"].Nodup
  decide

variable {id : String} {changes : List (String × Json)}

theorem exists_of_updateJoin (h : d.updateJoin id changes = .ok d') :
    ∃ before j after k, d.joins = before ++ j :: after ∧ j.id = id ∧
      Join.ofEntries id (changed j.plainEntries changes id) = .value k ∧ k.id = id ∧
      k.source.table ≠ k.target.table ∧ k.source.table ∈ d.tables ∧ k.target.table ∈ d.tables ∧
      d' = { d with joins := before ++ k :: after } := by
  simp only [updateJoin, bind_eq_ok_iff, pure_eq_ok_iff, orUnknown_eq_ok_iff] at h
  obtain ⟨found, hfound, joins, rfl, rfl⟩ := h
  obtain ⟨before, j, after, k, hjoins, _, hj, hk, rfl⟩ := exists_of_replaceFirst hfound
  simp only [bind_eq_ok_iff, pure_eq_ok_iff, mapError_eq_ok_iff, Reading.orFail_eq_ok_iff,
    checkJoin_eq_ok_iff] at hk
  obtain ⟨_, hread, _, ⟨hne, hs, ht⟩, rfl⟩ := hk
  refine ⟨before, j, after, k, hjoins, by simpa using hj, hread, ?_, hne, hs, ht, rfl⟩
  exact field_id_changed (nodup_plainEntries j) id (Join.ofEntries_eq_value.1 hread).1

theorem exists_of_updateFilter (h : d.updateFilter id changes = .ok d') :
    ∃ before f after g, d.filters = before ++ f :: after ∧ f.id = id ∧
      Filter.ofEntries id (changed f.entries changes id) = .value g ∧ g.id = id ∧
      g.column.table ∈ d.tables ∧ d' = { d with filters := before ++ g :: after } := by
  simp only [updateFilter, bind_eq_ok_iff, pure_eq_ok_iff, orUnknown_eq_ok_iff] at h
  obtain ⟨found, hfound, filters, rfl, rfl⟩ := h
  obtain ⟨before, f, after, g, hfilters, _, hf, hg, rfl⟩ := exists_of_replaceFirst hfound
  simp only [bind_eq_ok_iff, pure_eq_ok_iff, mapError_eq_ok_iff, Reading.orFail_eq_ok_iff,
    requireTable_eq_ok_iff] at hg
  obtain ⟨_, hread, _, ht, rfl⟩ := hg
  refine ⟨before, f, after, g, hfilters, by simpa using hf, hread, ?_, ht, rfl⟩
  exact field_id_changed (nodup_filterEntries f) id (Filter.ofEntries_eq_value.1 hread).1

theorem exists_of_updateSort (h : d.updateSort id changes = .ok d') :
    ∃ before s after r, d.orderBy = before ++ s :: after ∧ s.id = id ∧
      SortKey.ofEntries id (changed s.entries changes id) = .value r ∧ r.id = id ∧
      r.column.table ∈ d.tables ∧ d' = { d with orderBy := before ++ r :: after } := by
  simp only [updateSort, bind_eq_ok_iff, pure_eq_ok_iff, orUnknown_eq_ok_iff] at h
  obtain ⟨found, hfound, orderBy, rfl, rfl⟩ := h
  obtain ⟨before, s, after, r, hsorts, _, hs, hr, rfl⟩ := exists_of_replaceFirst hfound
  simp only [bind_eq_ok_iff, pure_eq_ok_iff, mapError_eq_ok_iff, Reading.orFail_eq_ok_iff,
    requireTable_eq_ok_iff] at hr
  obtain ⟨_, hread, _, ht, rfl⟩ := hr
  refine ⟨before, s, after, r, hsorts, by simpa using hs, hread, ?_, ht, rfl⟩
  exact field_id_changed (nodup_sortEntries s) id (SortKey.ofEntries_eq_value.1 hread).1

end Draft

end QueryDraft
