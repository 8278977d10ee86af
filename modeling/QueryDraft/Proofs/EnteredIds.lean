import Mathlib
import QueryDraft.Proofs.FragmentTwice

/-!
# The ids that entries come in under

Filters, sort keys and formulas come in under the id that they carry, or else under one from the
supply, and no list is looked through for it. `enteredIds` are the ids for the records of a section;
what a fragment makes of the section has some of them, in order (`idsIn_of_applyFragment`). An edit
of one part takes ids away or appends one (`idsIn_of_run`).
-/

namespace QueryDraft

open Reading (field)

/-! ### Explicit ids -/

/-- An id that is given; an empty one is none. -/
def givenId? (id : String) : Option String := if id.isEmpty then none else some id

/-- The id that a record carries. -/
def explicitId? (v : Json) : Option String :=
  match v.entries?.bind (Entries.last? · "id") with
  | some (.str id) => givenId? id
  | _ => none

theorem Draft.idOr_eq_getD (fresh id : String) : idOr fresh id = (givenId? id).getD fresh := by
  unfold idOr givenId?
  split_ifs <;> rfl

theorem givenId?_of_ne_empty {id : String} (h : id ≠ "") : givenId? id = some id :=
  if_neg fun hempty => h (String.isEmpty_iff.1 hempty)

theorem ne_empty_of_givenId? {id s : String} (h : givenId? id = some s) : s ≠ "" := by
  unfold givenId? at h
  split_ifs at h with hid
  cases h
  exact fun hempty => hid (String.isEmpty_iff.2 hempty)

theorem ne_empty_of_explicitId? {v : Json} {s : String} (h : explicitId? v = some s) : s ≠ "" := by
  unfold explicitId? at h
  split at h
  · exact ne_empty_of_givenId? h
  · cases h

/-- What is read from a record comes in under the id that the record carries, else the fresh one. -/
theorem idOr_of_read {α : Type} (idOf : α → String) {v : Json} {fresh : String} {a : α}
    {ofEntries : String → List (String × Json) → Reading α}
    (hid : ∀ fields a, ofEntries fresh fields = .value a →
      field ⟨"id", "id"⟩ (some fresh) Reading.text fields = .value (idOf a))
    (h : (Reading.record v).andThen (ofEntries fresh) = .value a) :
    Draft.idOr fresh (idOf a) = (explicitId? v).getD fresh := by
  obtain ⟨fields, hfields, ha⟩ := Reading.andThen_eq_value.1 h
  have hv := Reading.record_eq_value.1 hfields
  rcases Reading.field_eq_value.1 (hid fields a ha) with ⟨w, hw, htext⟩ | ⟨hnone, hfresh⟩
  · obtain rfl := Reading.text_eq_value_iff.1 htext
    have hexplicit : explicitId? v = givenId? (idOf a) := by
      rw [Reading.FieldName.entry?, Option.or_self] at hw
      simp [explicitId?, hv, hw]
    rw [hexplicit, Draft.idOr_eq_getD]
  · have hexplicit : explicitId? v = none := by
      rw [Reading.FieldName.entry?, Option.or_self] at hnone
      simp [explicitId?, hv, hnone]
    rw [hexplicit, ← Option.some.inj hfresh, Option.getD_none, Draft.idOr, ite_self]

/-! ### Records of a section -/

/-- The ids for the records of a section, the supply having a branch for each. -/
def enteredIds (ids : IdSupply) : Nat → List Json → List String
  | _, [] => []
  | i, v :: vs => (explicitId? v).getD (ids.branch i).id :: enteredIds ids (i + 1) vs

section entered

variable {ids : IdSupply} {i : Nat} {vs : List Json} {s : String}

theorem mem_filterMap_cons {v : Json} (h : s ∈ vs.filterMap explicitId?) :
    s ∈ (v :: vs).filterMap explicitId? := by
  obtain ⟨w, hw, hs⟩ := List.mem_filterMap.1 h
  exact List.mem_filterMap.2 ⟨w, List.mem_cons_of_mem v hw, hs⟩

theorem mem_enteredIds (h : s ∈ enteredIds ids i vs) :
    s ∈ vs.filterMap explicitId? ∨ ∃ n, i ≤ n ∧ s = (ids.branch n).id := by
  induction vs generalizing i with
  | nil => cases h
  | cons v vs ih =>
    rcases List.mem_cons.1 h with h | h
    · cases hv : explicitId? v with
      | none =>
        rw [hv, Option.getD_none] at h
        exact .inr ⟨i, Nat.le_refl i, h⟩
      | some id =>
        rw [hv, Option.getD_some] at h
        exact .inl (by simp [hv, h])
    · rcases ih h with h | ⟨n, hn, h⟩
      · exact .inl (mem_filterMap_cons h)
      · exact .inr ⟨n, by omega, h⟩

/-- The ids are distinct if the explicit ones are and the supply has neither these nor any twice. -/
theorem nodup_enteredIds (hsupply : ∀ m n, (ids.branch m).id = (ids.branch n).id → m = n)
    (hapart : ∀ s ∈ vs.filterMap explicitId?, ∀ n, (ids.branch n).id ≠ s)
    (hnodup : (vs.filterMap explicitId?).Nodup) : (enteredIds ids i vs).Nodup := by
  induction vs generalizing i with
  | nil => exact .nil
  | cons v vs ih =>
    refine List.nodup_cons.2 ⟨fun hmem => ?_, ?_⟩
    · cases hv : explicitId? v with
      | none =>
        rw [hv, Option.getD_none] at hmem
        rcases mem_enteredIds hmem with h | ⟨n, hn, h⟩
        · exact hapart _ (mem_filterMap_cons h) i rfl
        · exact absurd (hsupply i n h) (by omega)
      | some id =>
        rw [hv, Option.getD_some] at hmem
        have hid : id ∈ (v :: vs).filterMap explicitId? := by simp [hv]
        rcases mem_enteredIds hmem with h | ⟨n, _, h⟩
        · rw [List.filterMap_cons_some hv] at hnodup
          exact (List.nodup_cons.1 hnodup).1 h
        · exact hapart id hid n h.symm
    · refine ih (fun s hs => hapart s (mem_filterMap_cons hs)) ?_
      cases hv : explicitId? v with
      | none => rwa [List.filterMap_cons_none hv] at hnodup
      | some id =>
        rw [List.filterMap_cons_some hv] at hnodup
        exact (List.nodup_cons.1 hnodup).2

/-- The documents of parts with ids of their own come in under these. -/
theorem enteredIds_map {α : Type} {document : α → Json} {idOf : α → String} {as : List α}
    (h : ∀ a ∈ as, explicitId? (document a) = some (idOf a)) :
    enteredIds ids i (as.map document) = as.map idOf := by
  induction as generalizing i with
  | nil => rfl
  | cons a as ih =>
    rw [List.forall_mem_cons] at h
    rw [List.map_cons, enteredIds, h.1, Option.getD_some, ih h.2, List.map_cons]

end entered

/-! ### Lists with ids -/

/-- The lists of a draft that are not looked through for the id of a new entry. -/
inductive Listed where
  | filters | sorts | formulas
deriving DecidableEq, Repr

/-- The section of a document that holds the list. -/
def Listed.name : Listed → String
  | filters => "filters"
  | sorts => "orderBy"
  | formulas => "calculatedColumns"

/-- The branch of the supply that the list is replayed with. -/
def Listed.branch : Listed → Nat
  | filters => 1
  | sorts => 2
  | formulas => 3

namespace Draft

variable {catalog? : Option Catalog} {ids : IdSupply} {d d' : Draft}
  {fragment : List (String × Json)}

def idsIn (d : Draft) : Listed → List String
  | .filters => d.filters.map Filter.id
  | .sorts => d.orderBy.map SortKey.id
  | .formulas => d.formulas.map Formula.id

/-- Entries with ids come in from a draft's own document under these. -/
theorem enteredIds_entries {l : Listed} {vs : List Json} {i : Nat}
    (hvs : sectionItems d.entries l.name = .ok vs) (hne : ∀ s ∈ d.idsIn l, s ≠ "") :
    enteredIds ids i vs = d.idsIn l := by
  cases l with
  | filters =>
    cases (sectionItems_filters d).symm.trans hvs
    exact enteredIds_map fun f hf => givenId?_of_ne_empty (hne _ (List.mem_map_of_mem hf))
  | sorts =>
    cases (sectionItems_orderBy d).symm.trans hvs
    exact enteredIds_map fun s hs => givenId?_of_ne_empty (hne _ (List.mem_map_of_mem hs))
  | formulas =>
    cases (sectionItems_formulas d).symm.trans hvs
    exact enteredIds_map fun f hf => givenId?_of_ne_empty (hne _ (List.mem_map_of_mem hf))

/-! ### Fragments -/

/-- The step appends an entry under the id that the record carries, else the fresh one. -/
def Appends (l : Listed) (step : String → Json → Draft → Except Failure Draft) : Prop :=
  ∀ fresh v d d', step fresh v d = .ok d' → d'.idsIn l = d.idsIn l ++ [(explicitId? v).getD fresh]

theorem appends_filter : Appends .filters (replayFilter catalog?) := by
  intro fresh v d d' h
  obtain ⟨f, hf, h⟩ := bind_eq_ok_iff.1 h
  split_ifs at h
  obtain ⟨_, rfl⟩ := addFilter_eq_ok_iff.1 (mapError_eq_ok_iff.1 h)
  have hid := idOr_of_read Filter.id (fun _ _ h => (Filter.ofEntries_eq_value.1 h).1)
    (Reading.orFail_eq_ok_iff.1 hf)
  simp [idsIn, hid]

theorem appends_sort : Appends .sorts (replaySort catalog?) := by
  intro fresh v d d' h
  obtain ⟨s, hs, h⟩ := bind_eq_ok_iff.1 h
  split_ifs at h
  obtain ⟨_, rfl⟩ := addSort_eq_ok_iff.1 (mapError_eq_ok_iff.1 h)
  have hid := idOr_of_read SortKey.id (fun _ _ h => (SortKey.ofEntries_eq_value.1 h).1)
    (Reading.orFail_eq_ok_iff.1 hs)
  simp [idsIn, hid]

theorem appends_formula : Appends .formulas replayFormula := by
  intro fresh v d d' h
  obtain ⟨f, hf, h⟩ := bind_eq_ok_iff.1 h
  obtain ⟨_, _, rfl⟩ := addFormula_eq_ok_iff.1 (mapError_eq_ok_iff.1 h)
  have hid := idOr_of_read Formula.id (fun _ _ h => (Formula.ofEntries_eq_value.1 h).1)
    (Reading.orFail_eq_ok_iff.1 hf)
  simp [idsIn, hid]

/-- Some entries are dropped; the others come in under their ids. -/
theorem replayEach_ids {l : Listed} {kind : EntryKind} {shown : Json → Json}
    {step : String → Json → Draft → Except Failure Draft} (hstep : Appends l step) {vs : List Json}
    {i : Nat} {r r' : Replay} (h : replayEach kind shown step ids i vs r = .ok r') :
    ∃ new, r'.draft.idsIn l = r.draft.idsIn l ++ new ∧ new.Sublist (enteredIds ids i vs) := by
  induction vs generalizing i r with
  | nil =>
    cases h
    exact ⟨[], (List.append_nil _).symm, .slnil⟩
  | cons v vs ih =>
    rcases replayEach_cons_eq_ok_iff.1 h with ⟨d, hd, h⟩ | ⟨_, _, _, _, h⟩
    · obtain ⟨new, hnew, hsub⟩ := ih h
      refine ⟨(explicitId? v).getD (ids.branch i).id :: new, ?_, hsub.cons_cons _⟩
      rw [hnew, hstep _ _ _ _ hd, List.append_assoc, List.singleton_append]
    · obtain ⟨new, hnew, hsub⟩ := ih h
      exact ⟨new, hnew, hsub.cons _⟩

/-- A section that is replayed from nothing has ids of its records, in order. -/
theorem replaySection_ids {l : Listed} {kind : EntryKind} {es : List (String × Json)}
    {step : String → Json → Draft → Except Failure Draft} (hstep : Appends l step) {r r' : Replay}
    (h : replaySection es l.name kind ids step r = .ok r') (hblank : r.draft.idsIn l = []) :
    ∃ vs, sectionItems es l.name = .ok vs ∧ (r'.draft.idsIn l).Sublist (enteredIds ids 0 vs) := by
  obtain ⟨vs, hvs, h⟩ := bind_eq_ok_iff.1 h
  obtain ⟨new, hnew, hsub⟩ := replayEach_ids hstep h
  refine ⟨vs, hvs, ?_⟩
  rwa [hnew, hblank, List.nil_append]

theorem idsIn_of_applyFragment {r : Replay} (h : d.applyFragment fragment catalog? ids = .ok r)
    (l : Listed) : ∃ vs, sectionItems (Entries.putAll d.entries fragment) l.name = .ok vs ∧
      (r.draft.idsIn l).Sublist (enteredIds (ids.branch l.branch) 0 vs) := by
  obtain ⟨⟨d₃, x₃⟩, h₃, ⟨d₄, x₄⟩, h₄, ⟨d₅, x₅⟩, h₅, ⟨d₆, x₆⟩, h₆, ⟨d₇, x₇⟩, h₇, ⟨d₈, x₈⟩, h₈, hr⟩ :=
    applyFragment_eq_ok_iff.1 h
  obtain ⟨_, hfilters, _, horderBy, hformulas⟩ := blank_of_selectsFrom h₃
  have hlimit : r.draft.idsIn l = d₈.idsIn l := by
    rw [hr]
    split <;> cases l <;> rfl
  obtain ⟨_, rfl⟩ := exists_joins h₄
  rw [hlimit]
  -- the section is replayed from an empty list, and later ones leave its list alone
  cases l with
  | filters =>
    have hids := replaySection_ids (l := .filters) appends_filter h₅ (by simp [idsIn, hfilters])
    obtain ⟨_, rfl⟩ := exists_filters h₅
    obtain ⟨_, rfl⟩ := exists_groupBy h₆
    obtain ⟨_, rfl⟩ := exists_orderBy h₇
    obtain ⟨_, rfl⟩ := exists_formulas h₈
    exact hids
  | sorts =>
    obtain ⟨_, rfl⟩ := exists_filters h₅
    obtain ⟨_, rfl⟩ := exists_groupBy h₆
    have hids := replaySection_ids (l := .sorts) appends_sort h₇ (by simp [idsIn, horderBy])
    obtain ⟨_, rfl⟩ := exists_orderBy h₇
    obtain ⟨_, rfl⟩ := exists_formulas h₈
    exact hids
  | formulas =>
    obtain ⟨_, rfl⟩ := exists_filters h₅
    obtain ⟨_, rfl⟩ := exists_groupBy h₆
    obtain ⟨_, rfl⟩ := exists_orderBy h₇
    exact replaySection_ids (l := .formulas) appends_formula h₈ (by simp [idsIn, hformulas])

end Draft

/-! ### Edits -/

/-- The list that an edit appends to, and the id of the new entry. -/
def Edit.enters? (fresh : String) : Edit → Option (Listed × String)
  | addFilter f => some (.filters, Draft.idOr fresh f.id)
  | addSort s => some (.sorts, Draft.idOr fresh s.id)
  | addFormula f => some (.formulas, Draft.idOr fresh f.id)
  | _ => none

namespace Draft

variable {ids : IdSupply} {d d' : Draft}

theorem idsIn_removeTable (d : Draft) (t : TableId) (l : Listed) :
    ((d.removeTable t).idsIn l).Sublist (d.idsIn l) := by
  unfold removeTable
  split_ifs
  · cases l with
    | filters => exact List.filter_sublist.map _
    | sorts => exact List.filter_sublist.map _
    | formulas => exact .refl _
  · exact .refl _

/-- Lists that an edit leaves alone keep their ids. -/
theorem idsIn_sublist_of_eq (hfilters : d'.filters = d.filters) (horderBy : d'.orderBy = d.orderBy)
    (hformulas : d'.formulas = d.formulas) (l : Listed) : (d'.idsIn l).Sublist (d.idsIn l) := by
  cases l <;> simp only [idsIn, hfilters, horderBy, hformulas, List.Sublist.refl]

theorem idsIn_addFilter {f : Filter} (h : d.addFilter f = .ok d') (l : Listed) :
    (d'.idsIn l).Sublist (d.idsIn l) ∨ l = .filters ∧ d'.idsIn l = d.idsIn l ++ [f.id] := by
  obtain ⟨_, rfl⟩ := addFilter_eq_ok_iff.1 h
  cases l with
  | filters => exact .inr ⟨rfl, by simp [idsIn]⟩
  | sorts => exact .inl (.refl _)
  | formulas => exact .inl (.refl _)

theorem idsIn_addSort {s : SortKey} (h : d.addSort s = .ok d') (l : Listed) :
    (d'.idsIn l).Sublist (d.idsIn l) ∨ l = .sorts ∧ d'.idsIn l = d.idsIn l ++ [s.id] := by
  obtain ⟨_, rfl⟩ := addSort_eq_ok_iff.1 h
  cases l with
  | filters => exact .inl (.refl _)
  | sorts => exact .inr ⟨rfl, by simp [idsIn]⟩
  | formulas => exact .inl (.refl _)

theorem idsIn_addFormula {f : Formula} (h : d.addFormula f = .ok d') (l : Listed) :
    (d'.idsIn l).Sublist (d.idsIn l) ∨ l = .formulas ∧ d'.idsIn l = d.idsIn l ++ [f.id] := by
  obtain ⟨_, _, rfl⟩ := addFormula_eq_ok_iff.1 h
  cases l with
  | filters => exact .inl (.refl _)
  | sorts => exact .inl (.refl _)
  | formulas => exact .inr ⟨rfl, by simp [idsIn]⟩

/-- A changed entry keeps its id. -/
theorem idsIn_updateFilter {id : String} {changes : List (String × Json)}
    (h : d.updateFilter id changes = .ok d') (l : Listed) : d'.idsIn l = d.idsIn l := by
  obtain ⟨before, f, after, g, hfilters, hf, _, hg, _, rfl⟩ := exists_of_updateFilter h
  cases l with
  | filters => simp [idsIn, hfilters, hf, hg]
  | sorts => rfl
  | formulas => rfl

theorem idsIn_updateSort {id : String} {changes : List (String × Json)}
    (h : d.updateSort id changes = .ok d') (l : Listed) : d'.idsIn l = d.idsIn l := by
  obtain ⟨before, s, after, r, hsorts, hs, _, hr, _, rfl⟩ := exists_of_updateSort h
  cases l with
  | filters => rfl
  | sorts => simp [idsIn, hsorts, hs, hr]
  | formulas => rfl

theorem idsIn_removed (d : Draft) (id : String) (l : Listed) :
    ((d.removeFilter id).idsIn l).Sublist (d.idsIn l) ∧
      ((d.removeSort id).idsIn l).Sublist (d.idsIn l) ∧
      ((d.removeFormula id).idsIn l).Sublist (d.idsIn l) := by
  cases l with
  | filters => exact ⟨List.filter_sublist.map _, .refl _, .refl _⟩
  | sorts => exact ⟨.refl _, List.filter_sublist.map _, .refl _⟩
  | formulas => exact ⟨.refl _, .refl _, List.filter_sublist.map _⟩

/-- An edit of one part takes ids away, or it appends one. -/
theorem idsIn_of_run {e : Edit} (he : e.IsSingle) (hrun : e.run ids d = .ok d') (l : Listed) :
    (d'.idsIn l).Sublist (d.idsIn l) ∨
      ∃ s, e.enters? ids.id = some (l, s) ∧ d'.idsIn l = d.idsIn l ++ [s] := by
  cases e with
  | removeTable t => cases hrun; exact .inl (idsIn_removeTable d t l)
  | toggleTable t =>
    cases hrun
    unfold toggleTable
    split_ifs
    · exact .inl (idsIn_removeTable d t l)
    · exact .inl (idsIn_sublist_of_eq rfl rfl rfl l)
  | clear => cases hrun; cases l <;> exact .inl (List.nil_sublist _)
  | toggleColumn c =>
    cases hrun
    unfold toggleColumn
    split_ifs <;> exact .inl (idsIn_sublist_of_eq rfl rfl rfl l)
  | setAggregate c a =>
    cases hrun
    unfold setAggregate
    split_ifs <;> exact .inl (idsIn_sublist_of_eq rfl rfl rfl l)
  | addJoin j =>
    obtain ⟨_, rfl⟩ | ⟨_, _, _, _, rfl⟩ := addJoin_eq_ok_iff.1 (mapError_eq_ok_iff.1 hrun)
    · exact .inl (.refl _)
    · exact .inl (idsIn_sublist_of_eq rfl rfl rfl l)
  | updateJoin id changes =>
    obtain ⟨_, _, _, _, _, _, _, _, _, _, _, rfl⟩ := exists_of_updateJoin hrun
    exact .inl (idsIn_sublist_of_eq rfl rfl rfl l)
  | addFilter f =>
    refine (idsIn_addFilter (mapError_eq_ok_iff.1 hrun) l).imp_right ?_
    rintro ⟨rfl, h⟩
    exact ⟨_, rfl, h⟩
  | updateFilter id changes => exact .inl (idsIn_updateFilter hrun l ▸ .refl _)
  | removeFilter id => cases hrun; exact .inl (idsIn_removed d id l).1
  | toggleGroupBy c =>
    obtain ⟨_, rfl⟩ | ⟨_, _, rfl⟩ := toggleGroupBy_eq_ok_iff.1 (mapError_eq_ok_iff.1 hrun)
    · exact .inl (idsIn_sublist_of_eq rfl rfl rfl l)
    · exact .inl (idsIn_sublist_of_eq rfl rfl rfl l)
  | addSort s =>
    refine (idsIn_addSort (mapError_eq_ok_iff.1 hrun) l).imp_right ?_
    rintro ⟨rfl, h⟩
    exact ⟨_, rfl, h⟩
  | updateSort id changes => exact .inl (idsIn_updateSort hrun l ▸ .refl _)
  | removeSort id => cases hrun; exact .inl (idsIn_removed d id l).2.1
  | addFormula f =>
    refine (idsIn_addFormula (mapError_eq_ok_iff.1 hrun) l).imp_right ?_
    rintro ⟨rfl, h⟩
    exact ⟨_, rfl, h⟩
  | removeFormula id => cases hrun; exact .inl (idsIn_removed d id l).2.2
  | applyFragment fragment catalog? => exact he.elim
  | applyStarter starter catalog? => exact he.elim
  | _ => cases hrun; exact .inl (idsIn_sublist_of_eq rfl rfl rfl l)

end Draft

end QueryDraft
