import Mathlib
import QueryDraft.Proofs.EnteredIds

/-!
# Ids tell entries apart

Where ids are distinct, an id stands for one entry: removing it leaves out this entry, and changing
it replaces this entry (`removesOne_of_nodup`, `changesOne_of_nodup`). Joins always have distinct
ids, since a join under an id that is in use is not added. The other lists are not looked through:
their ids are distinct after a run whose generated ids are new and whose explicit ids are not in use
where they come in (`ids_identify`), and repeated after one that gives an id twice
(`ids_identify_twice`).
-/

namespace QueryDraft

/-! ### The one entry with an id -/

section one

variable {α : Type} {idOf : α → String} {as before after : List α} {a : α} {set : List α → Draft}

/-- The id of an entry removes this entry and no other. -/
def RemovesOne (idOf : α → String) (as : List α) (set : List α → Draft) (remove : String → Draft) :
    Prop :=
  ∀ before a after, as = before ++ a :: after → remove (idOf a) = set (before ++ after)

/-- The id of an entry changes this entry and no other. It is read again from its fields with the
changes in place, must be allowed and keeps its id. -/
def ChangesOne (idOf : α → String) (as : List α) (set : List α → Draft)
    (entries : α → List (String × Json)) (ofEntries : String → List (String × Json) → Reading α)
    (Allowed : α → Prop) (change : String → List (String × Json) → Except Failure Draft) : Prop :=
  ∀ before a after, as = before ++ a :: after → ∀ changes d', change (idOf a) changes = .ok d' ↔
    ∃ b, ofEntries (idOf a) (Draft.changed (entries a) changes (idOf a)) = .value b ∧
      idOf b = idOf a ∧ Allowed b ∧ d' = set (before ++ b :: after)

theorem ne_of_nodup_ids (h : ((before ++ a :: after).map idOf).Nodup) :
    (∀ x ∈ before, idOf x ≠ idOf a) ∧ ∀ x ∈ after, idOf x ≠ idOf a := by
  rw [List.map_append, List.map_cons, List.nodup_middle, List.nodup_cons, List.mem_append,
    not_or] at h
  refine ⟨fun x hx heq => h.1.1 ?_, fun x hx heq => h.1.2 ?_⟩
  · exact heq ▸ List.mem_map_of_mem hx
  · exact heq ▸ List.mem_map_of_mem hx

theorem removesOne_of_nodup (h : (as.map idOf).Nodup) :
    RemovesOne idOf as set fun id => set (as.filter (idOf · ≠ id)) := by
  rintro before a after rfl
  obtain ⟨hbefore, hafter⟩ := ne_of_nodup_ids h
  have hkeepBefore : before.filter (idOf · ≠ idOf a) = before :=
    List.filter_eq_self.2 fun x hx => by simpa using hbefore x hx
  have hkeepAfter : after.filter (idOf · ≠ idOf a) = after :=
    List.filter_eq_self.2 fun x hx => by simpa using hafter x hx
  show set ((before ++ a :: after).filter (idOf · ≠ idOf a)) = _
  rw [List.filter_append, hkeepBefore, List.filter_cons_of_neg (by simp), hkeepAfter]

theorem replaceFirst_append (hbefore : ∀ x ∈ before, idOf x ≠ idOf a)
    (f : α → Except Failure α) :
    Draft.replaceFirst (idOf · == idOf a) f (before ++ a :: after) =
      (f a).map fun b => some (before ++ b :: after) := by
  induction before with
  | nil =>
    rw [List.nil_append, Draft.replaceFirst, if_pos (beq_self_eq_true _)]
    rfl
  | cons x before ih =>
    rw [List.forall_mem_cons] at hbefore
    rw [List.cons_append, Draft.replaceFirst, if_neg (by simpa using hbefore.1), ih hbefore.2]
    cases f a <;> rfl

theorem changesOne_of_nodup {entries : α → List (String × Json)}
    {ofEntries : String → List (String × Json) → Reading α} {check : α → Except Fault Unit}
    {Allowed : α → Prop} (hcheck : ∀ a u, check a = .ok u ↔ Allowed a)
    (hentries : ∀ a, ((entries a).map Prod.fst).Nodup)
    (hid : ∀ fresh fields a, ofEntries fresh fields = .value a →
      Reading.field ⟨"id", "id"⟩ (some fresh) Reading.text fields = .value (idOf a))
    (h : (as.map idOf).Nodup) :
    ChangesOne idOf as set entries ofEntries Allowed fun id changes => do
      let amend (a : α) : Except Failure α := do
        let b ← (ofEntries id (Draft.changed (entries a) changes id)).orFail
        (check b).mapError .fault
        return b
      let found ← Draft.replaceFirst (idOf · == id) amend as
      return set (← Draft.orUnknown id found) := by
  rintro before a after rfl changes d'
  dsimp only
  rw [replaceFirst_append (ne_of_nodup_ids h).1]
  simp only [bind_eq_ok_iff, pure_eq_ok_iff, Draft.orUnknown_eq_ok_iff]
  constructor
  · rintro ⟨found, hfound, bs, rfl, rfl⟩
    obtain ⟨b, hb, hbs⟩ := map_eq_ok_iff.1 hfound
    cases hbs
    simp only [bind_eq_ok_iff, pure_eq_ok_iff, mapError_eq_ok_iff, Reading.orFail_eq_ok_iff,
      hcheck] at hb
    obtain ⟨_, hread, _, hallowed, rfl⟩ := hb
    have hkept : idOf b = idOf a := Draft.field_id_changed (hentries a) _ (hid _ _ _ hread)
    exact ⟨b, hread, hkept, hallowed, rfl⟩
  · rintro ⟨b, hread, _, hallowed, rfl⟩
    refine ⟨_, map_eq_ok_iff.2 ⟨b, ?_, rfl⟩, _, rfl, rfl⟩
    simp only [bind_eq_ok_iff, pure_eq_ok_iff, mapError_eq_ok_iff, Reading.orFail_eq_ok_iff, hcheck]
    exact ⟨b, hread, (), hallowed, rfl⟩

end one

namespace Draft

variable {d d' : Draft}

/-! ### Drafts -/

/-- The joins have distinct ids, each of which stands for one join. -/
structure JoinIdsIdentify (d : Draft) : Prop where
  nodup_joins : (d.joins.map Join.id).Nodup
  removeJoin : RemovesOne Join.id d.joins (fun joins => { d with joins }) d.removeJoin
  updateJoin : ChangesOne Join.id d.joins (fun joins => { d with joins }) Join.plainEntries
    Join.ofEntries (fun j => j.source.table ≠ j.target.table ∧ j.source.table ∈ d.tables ∧
      j.target.table ∈ d.tables) d.updateJoin

/-- The ids of each list are distinct, and each id stands for one entry. -/
structure IdsIdentify (d : Draft) : Prop extends JoinIdsIdentify d where
  nodup_ids : ∀ l, (d.idsIn l).Nodup
  removeFilter : RemovesOne Filter.id d.filters (fun filters => { d with filters }) d.removeFilter
  updateFilter : ChangesOne Filter.id d.filters (fun filters => { d with filters }) Filter.entries
    Filter.ofEntries (·.column.table ∈ d.tables) d.updateFilter
  removeSort : RemovesOne SortKey.id d.orderBy (fun orderBy => { d with orderBy }) d.removeSort
  updateSort : ChangesOne SortKey.id d.orderBy (fun orderBy => { d with orderBy }) SortKey.entries
    SortKey.ofEntries (·.column.table ∈ d.tables) d.updateSort
  removeFormula :
    RemovesOne Formula.id d.formulas (fun formulas => { d with formulas }) d.removeFormula

theorem joinIdsIdentify (h : (d.joins.map Join.id).Nodup) : d.JoinIdsIdentify where
  nodup_joins := h
  removeJoin := removesOne_of_nodup h
  updateJoin := changesOne_of_nodup (fun _ _ => checkJoin_eq_ok_iff) nodup_plainEntries
    (fun _ _ _ hread => (Join.ofEntries_eq_value.1 hread).1) h

theorem idsIdentify (hjoins : (d.joins.map Join.id).Nodup) (h : ∀ l, (d.idsIn l).Nodup) :
    d.IdsIdentify where
  toJoinIdsIdentify := joinIdsIdentify hjoins
  nodup_ids := h
  removeFilter := removesOne_of_nodup (h .filters)
  updateFilter := changesOne_of_nodup (fun _ _ => requireTable_eq_ok_iff) nodup_filterEntries
    (fun _ _ _ hread => (Filter.ofEntries_eq_value.1 hread).1) (h .filters)
  removeSort := removesOne_of_nodup (h .sorts)
  updateSort := changesOne_of_nodup (fun _ _ => requireTable_eq_ok_iff) nodup_sortEntries
    (fun _ _ _ hread => (SortKey.ofEntries_eq_value.1 hread).1) (h .sorts)
  removeFormula := removesOne_of_nodup (h .formulas)

end Draft

/-! ### Ids that are given -/

/-- The ids that a fragment carries for the entries of a list. -/
def carriedIds (l : Listed) (fragment : List (String × Json)) : List String :=
  match Draft.sectionItems fragment l.name with
  | .ok vs => vs.filterMap explicitId?
  | .error _ => []

/-- An edit brings the id along for an entry. -/
def Edit.Gives (id : String) : Edit → Prop
  | addFilter f => id = f.id
  | addSort s => id = s.id
  | addFormula f => id = f.id
  | applyFragment fragment _ => ∃ l, id ∈ carriedIds l fragment
  | applyStarter starter _ => ∃ l, id ∈ carriedIds l starter.fragment
  | _ => False

/-- No id that the edit brings along is in use in its list, and none comes twice. What a section of
a fragment replaces does not count. -/
def Edit.IsApart (d : Draft) : Edit → Prop
  | addFilter f => f.id ≠ "" → f.id ∉ d.idsIn .filters
  | addSort s => s.id ≠ "" → s.id ∉ d.idsIn .sorts
  | addFormula f => f.id ≠ "" → f.id ∉ d.idsIn .formulas
  | applyFragment fragment _ => ∀ l, (carriedIds l fragment).Nodup
  | applyStarter starter _ => ∀ l, (carriedIds l starter.fragment).Nodup
  | _ => True

namespace IdSupply

/-- The supply has the id for an edit with this number or a later one. -/
def Ahead (ids : IdSupply) (i : Nat) (id : String) : Prop :=
  ∃ k path, i ≤ k ∧ ids.label (k :: path) = id

/-- No id comes twice from the supply. -/
structure IsFresh (ids : IdSupply) : Prop where
  injective : Function.Injective ids.label
  ne_empty : ∀ path, ids.label path ≠ ""

/-- The supply has no id that was given up to the edit that it has it for. -/
structure FreshFor (ids : IdSupply) (edits : List Edit) : Prop extends IsFresh ids where
  given : ∀ n e, edits[n]? = some e → ∀ id, e.Gives id → ¬ ids.Ahead n id

/-- Ids that are distinct, not empty and not ahead in the supply. -/
structure Numbers (ids : IdSupply) (i : Nat) (used : List String) : Prop where
  nodup : used.Nodup
  ne_empty : ∀ id ∈ used, id ≠ ""
  not_ahead : ∀ id ∈ used, ¬ ids.Ahead i id

variable {ids : IdSupply} {i : Nat} {id : String} {used used' : List String}

theorem Ahead.of_succ (h : ids.Ahead (i + 1) id) : ids.Ahead i id := by
  obtain ⟨k, path, hk, hid⟩ := h
  exact ⟨k, path, by omega, hid⟩

theorem ahead_label (path : List Nat) : ids.Ahead i (ids.label (i :: path)) :=
  ⟨i, path, Nat.le_refl i, rfl⟩

theorem IsFresh.not_ahead_label (h : ids.IsFresh) (path : List Nat) :
    ¬ ids.Ahead (i + 1) (ids.label (i :: path)) := by
  rintro ⟨k, path', hk, heq⟩
  obtain ⟨rfl, _⟩ := List.cons.inj (h.injective heq)
  omega

theorem Numbers.sublist (h : ids.Numbers i used) (hsub : used'.Sublist used) :
    ids.Numbers i used' where
  nodup := h.nodup.sublist hsub
  ne_empty := fun id hid => h.ne_empty id (hsub.subset hid)
  not_ahead := fun id hid => h.not_ahead id (hsub.subset hid)

theorem Numbers.succ (h : ids.Numbers i used) : ids.Numbers (i + 1) used where
  nodup := h.nodup
  ne_empty := h.ne_empty
  not_ahead := fun id hid hahead => h.not_ahead id hid hahead.of_succ

theorem Numbers.append (h : ids.Numbers i used) (hnew : id ∉ used) (hne : id ≠ "")
    (hahead : ¬ ids.Ahead i id) : ids.Numbers i (used ++ [id]) where
  nodup := nodup_append_singleton h.nodup hnew
  ne_empty := forall_append_singleton h.ne_empty hne
  not_ahead := forall_append_singleton h.not_ahead hahead

end IdSupply

namespace Draft

variable {ids : IdSupply} {i : Nat} {d d' : Draft} {e : Edit} {edits : List Edit}

/-- The fragment of a starter carries what the starter gives it. -/
theorem carriedIds_starter (l : Listed) (limit : Json) (fragment : List (String × Json)) :
    carriedIds l (Entries.putAll [("limit", limit)] fragment) = carriedIds l fragment := by
  have hnodup : ([("limit", limit)].map Prod.fst).Nodup := List.nodup_singleton _
  unfold carriedIds
  cases hlast : Entries.last? fragment l.name with
  | some v => rw [sectionItems_putAll_of_some hnodup hlast]
  | none =>
    have hname : Entries.last? [("limit", limit)] l.name = none := by cases l <;> rfl
    rw [sectionItems_putAll_of_none hnodup hlast, sectionItems, sectionItems, hname, hlast]

/-! ### Runs -/

def Numbered (ids : IdSupply) (i : Nat) (d : Draft) : Prop := ∀ l, ids.Numbers i (d.idsIn l)

theorem numbered_blank (limit : Int) : (blank limit).Numbered ids 0 := by
  intro l
  cases l <;> exact ⟨.nil, nofun, nofun⟩

/-- An id that is given else taken from the supply is new if the given one is. -/
theorem Numbered.append_idOr (h : d.Numbered ids i) (hids : ids.IsFresh) {l : Listed} {id : String}
    (hunused : id ≠ "" → id ∉ d.idsIn l) (hahead : ¬ ids.Ahead i id) :
    ids.Numbers (i + 1) (d.idsIn l ++ [idOr (ids.branch i).id id]) := by
  unfold idOr
  split_ifs with hempty
  · refine (h l).succ.append (fun hmem => ?_) (hids.ne_empty _) (hids.not_ahead_label [])
    exact (h l).not_ahead _ hmem (IdSupply.ahead_label [])
  · have hne : id ≠ "" := fun hid => hempty (String.isEmpty_iff.2 hid)
    exact (h l).succ.append (hunused hne) hne fun hlater => hahead hlater.of_succ

theorem Numbered.run_single (h : d.Numbered ids i) (hids : ids.IsFresh) (he : e.IsSingle)
    (hapart : e.IsApart d) (hgiven : ∀ id, e.Gives id → ¬ ids.Ahead i id)
    (hrun : e.run (ids.branch i) d = .ok d') : d'.Numbered ids (i + 1) := by
  intro l
  rcases idsIn_of_run he hrun l with hsub | ⟨s, hs, hids'⟩
  · exact (h l).succ.sublist hsub
  · rw [hids']
    cases e with
    | addFilter f => cases hs; exact h.append_idOr hids hapart (hgiven _ rfl)
    | addSort s => cases hs; exact h.append_idOr hids hapart (hgiven _ rfl)
    | addFormula f => cases hs; exact h.append_idOr hids hapart (hgiven _ rfl)
    | _ => cases hs

/-- A fragment keeps ids that the draft has, or gives distinct ones from its own and the supply. -/
theorem Numbered.applyFragment (h : d.Numbered ids i) (hids : ids.IsFresh)
    {fragment : List (String × Json)} {catalog? : Option Catalog} {r : Replay}
    (hnodup : ∀ l, (carriedIds l fragment).Nodup)
    (hgiven : ∀ l, ∀ id ∈ carriedIds l fragment, ¬ ids.Ahead i id)
    (hr : d.applyFragment fragment catalog? (ids.branch i) = .ok r) :
    r.draft.Numbered ids (i + 1) := by
  intro l
  obtain ⟨vs, hvs, hsub⟩ := idsIn_of_applyFragment hr l
  refine IdSupply.Numbers.sublist ?_ hsub
  cases hlast : Entries.last? fragment l.name with
  | none =>
    rw [sectionItems_putAll_of_none (nodup_entries d) hlast] at hvs
    rw [enteredIds_entries hvs (h l).ne_empty]
    exact (h l).succ
  | some v =>
    rw [sectionItems_putAll_of_some (nodup_entries d) hlast] at hvs
    have hcarried : carriedIds l fragment = vs.filterMap explicitId? := by rw [carriedIds, hvs]
    have hapart : ∀ s ∈ vs.filterMap explicitId?, ¬ ids.Ahead i s := hcarried ▸ hgiven l
    refine ⟨nodup_enteredIds ?_ ?_ (hcarried ▸ hnodup l), fun s hs => ?_, fun s hs => ?_⟩
    · intro m n heq
      simpa using hids.injective heq
    · intro s hs n heq
      exact hapart s hs ⟨i, [l.branch, n], Nat.le_refl i, heq⟩
    · rcases mem_enteredIds hs with hs | ⟨n, _, rfl⟩
      · obtain ⟨v, _, hv⟩ := List.mem_filterMap.1 hs
        exact ne_empty_of_explicitId? hv
      · exact hids.ne_empty _
    · rcases mem_enteredIds hs with hs | ⟨n, _, rfl⟩
      · exact fun hlater => hapart s hs hlater.of_succ
      · exact hids.not_ahead_label [l.branch, n]

theorem Numbered.run (h : d.Numbered ids i) (hids : ids.IsFresh) (hapart : e.IsApart d)
    (hgiven : ∀ id, e.Gives id → ¬ ids.Ahead i id) (hrun : e.run (ids.branch i) d = .ok d') :
    d'.Numbered ids (i + 1) := by
  cases e with
  | applyFragment fragment catalog? =>
    obtain ⟨r, hr, rfl⟩ := map_eq_ok_iff.1 hrun
    exact h.applyFragment hids hapart (fun l id hid => hgiven id ⟨l, hid⟩) hr
  | applyStarter starter catalog? =>
    obtain ⟨r, hr, rfl⟩ := map_eq_ok_iff.1 hrun
    have hclear : d.clear.Numbered ids i := by
      intro l
      refine (h l).sublist ?_
      cases l <;> exact List.nil_sublist _
    refine hclear.applyFragment hids (fun l => ?_) (fun l id hid => ?_) hr
    · rw [carriedIds_starter]
      exact hapart l
    · rw [carriedIds_starter] at hid
      exact hgiven id ⟨l, hid⟩
  | _ => exact h.run_single hids (by trivial) hapart hgiven hrun

/-- Every edit of a run brings along no id that is in use. -/
def RunsApart (ids : IdSupply) : (i : Nat) → Draft → List Edit → Prop
  | _, _, [] => True
  | i, d, e :: es => e.IsApart d ∧
      match e.run (ids.branch i) d with
      | .ok d' => RunsApart ids (i + 1) d' es
      | .error _ => RunsApart ids (i + 1) d es

theorem RunsApart.cons {es : List Edit} (he : e.IsApart d)
    (hrun : e.run (ids.branch i) d = .ok d') (hes : RunsApart ids (i + 1) d' es) :
    RunsApart ids i d (e :: es) := by
  unfold RunsApart
  rw [hrun]
  exact ⟨he, hes⟩

theorem Numbered.after (h : d.Numbered ids i) (hids : ids.IsFresh)
    (hgiven : ∀ n e, edits[n]? = some e → ∀ id, e.Gives id → ¬ ids.Ahead (i + n) id)
    (hedits : RunsApart ids i d edits) : ∃ j, (after ids i d edits).Numbered ids j := by
  induction edits generalizing i d with
  | nil => exact ⟨i, h⟩
  | cons e es ih =>
    obtain ⟨he, hes⟩ := hedits
    have hgivenLater : ∀ n e, es[n]? = some e → ∀ id, e.Gives id →
        ¬ ids.Ahead (i + 1 + n) id := by
      intro n e' he'
      rw [Nat.add_assoc, Nat.add_comm 1]
      exact hgiven (n + 1) e' he'
    cases hrun : e.run (ids.branch i) d with
    | ok d' =>
      rw [hrun] at hes
      rw [after_cons_of_ok hrun]
      exact ih (h.run hids he (hgiven 0 e rfl) hrun) hgivenLater hes
    | error fault =>
      rw [hrun] at hes
      rw [after_cons_of_error hrun]
      exact ih (fun l => (h l).succ) hgivenLater hes

/-- Ids identify entries. After any run the joins have distinct ids. The other lists have distinct
ids too if the ids that are generated are new, and no id that is brought along is in use in its
list: then an id that is there stands for one entry, and this entry alone is removed or changed. -/
theorem ids_identify (ids : IdSupply) (limit : Int) (edits : List Edit) :
    (after ids 0 (blank limit) edits).JoinIdsIdentify ∧
      (ids.FreshFor edits → RunsApart ids 0 (blank limit) edits →
        (after ids 0 (blank limit) edits).IdsIdentify) := by
  have hjoins : ((after ids 0 (blank limit) edits).joins.map Join.id).Nodup :=
    (coherent_after 0 (coherent_blank limit) edits).nodup_joins
  refine ⟨joinIdsIdentify hjoins, fun hids hedits => ?_⟩
  obtain ⟨j, hnumbered⟩ := (numbered_blank limit).after hids.toIsFresh
    (fun n e he id hid => (Nat.zero_add n).symm ▸ hids.given n e he id hid) hedits
  exact idsIdentify hjoins fun l => (hnumbered l).nodup

end Draft

namespace Sample

/-- A supply that counts its paths. -/
def counted : IdSupply := ⟨fun path => "#" ++ (Encodable.encode path).repr⟩

theorem counted_isFresh : counted.IsFresh where
  injective := by
    intro path path' heq
    have hrepr := String.append_right_inj "#" |>.1 heq
    exact Encodable.encode_injective (Nat.repr_injective hrepr)
  ne_empty := by
    intro path heq
    have hlist := congrArg String.toList heq
    simp [counted] at hlist

/-- Filters with and without an id of their own, one of which is taken away and put back, and sort
keys from a fragment. -/
def filtering : List Edit := [
  .addTable users,
  .addFilter ⟨"", users.column "id", .greater, "1"⟩,
  .addFilter ⟨"f", users.column "country", .equal, "US"⟩,
  .removeFilter "#3",
  .addFilter ⟨"#3", users.column "id", .greater, "2"⟩,
  .updateFilter "f" [("value", .str "CA")],
  .applyFragment [("orderBy", .arr [
    .obj [("id", .str "s"), ("column", .str "users.country")],
    .obj [("column", .str "users.id")]])] none]

theorem counted_not_ahead {i : Nat} {id : String} (h : id.toList.head? ≠ some '#') :
    ¬ counted.Ahead i id := by
  rintro ⟨k, path, _, rfl⟩
  exact h (by simp [counted])

theorem filtering_freshFor : counted.FreshFor filtering where
  toIsFresh := counted_isFresh
  given := by
    rintro (_ | _ | _ | _ | _ | _ | _ | n) e he id hid <;> cases he
    · cases hid
    · cases hid
      exact counted_not_ahead (by decide)
    · cases hid
      exact counted_not_ahead (by decide)
    · cases hid
    · cases hid
      -- by now the id that the second edit got is behind
      have hbehind : ¬ counted.Ahead 2 (counted.label [1]) := counted_isFresh.not_ahead_label []
      exact fun hahead => hbehind hahead.of_succ.of_succ
    · cases hid
    · obtain ⟨l, hl⟩ := hid
      cases l with
      | filters => cases hl
      | sorts =>
        cases List.mem_singleton.1 hl
        exact counted_not_ahead (by decide)
      | formulas => cases hl

theorem filtering_runsApart : Draft.RunsApart counted 0 (.blank usualLimit) filtering := by
  refine .cons trivial rfl (.cons (fun h => absurd rfl h) rfl (.cons (fun _ => by decide) rfl
    (.cons trivial rfl (.cons (fun _ => by decide) rfl (.cons trivial rfl
      (.cons (fun l => ?_) rfl trivial))))))
  cases l <;> decide

theorem ids_identify_filtering :
    counted.FreshFor filtering ∧ Draft.RunsApart counted 0 (.blank usualLimit) filtering ∧
      (Draft.after counted 0 (.blank usualLimit) filtering).idsIn .filters = ["f", "#3"] ∧
      (Draft.after counted 0 (.blank usualLimit) filtering).IdsIdentify :=
  ⟨filtering_freshFor, filtering_runsApart, rfl,
    (Draft.ids_identify counted usualLimit filtering).2 filtering_freshFor filtering_runsApart⟩

/-- Two filters under one id. -/
def filteringTwice : List Edit := [
  .addTable users,
  .addFilter ⟨"f", users.column "id", .equal, "1"⟩,
  .addFilter ⟨"f", users.column "name", .equal, "x"⟩]

/-- An id that is given twice is there twice, and removing it takes away both filters. -/
theorem ids_identify_twice :
    counted.FreshFor filteringTwice ∧
      (Draft.after counted 0 (.blank usualLimit) filteringTwice).idsIn .filters = ["f", "f"] ∧
      ((Draft.after counted 0 (.blank usualLimit) filteringTwice).removeFilter "f").idsIn .filters =
        [] := by
  refine ⟨⟨counted_isFresh, ?_⟩, rfl, rfl⟩
  rintro (_ | _ | _ | n) e he id hid <;> cases he
  · cases hid
  · cases hid
    exact counted_not_ahead (by decide)
  · cases hid
    exact counted_not_ahead (by decide)

end Sample

end QueryDraft
