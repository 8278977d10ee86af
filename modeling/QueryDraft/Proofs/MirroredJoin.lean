import Mathlib
import QueryDraft.Proofs.Components
import QueryDraft.Proofs.Lockstep

/-!
# Writing a join from its other side

`groups_mirrored`: if one join of a draft is written from its other side, one group changes. A
condition of it has its sides exchanged; if it was the join that opened the group, the root and the
first clause's table trade places as well. The warnings are about the same joins.
-/

namespace QueryDraft.Sql

variable {g g' h : Group} {gs gs' : List Group} {j k : Join} {js js' : List Join} {e : Equality}
  {base t u : TableId} {ts : List TableId}

/-! ### Notes -/

theorem Clause.notes_eq_nil_iff {c : Clause} : c.notes k = [] ↔ Group.kindFor k c.table = c.kind := by
  simp [Clause.notes]

namespace Group

/-- A join has the mirrored kind for its other table. -/
theorem kindFor_other (hk : ¬ k.IsLoop) (hl : k.Links t u) : kindFor k u = (kindFor k t).mirrored := by
  rcases hl with ⟨rfl, rfl⟩ | ⟨rfl, rfl⟩
  · rw [kindFor_target, kindFor_source hk, JoinKind.mirrored_mirrored]
  · rw [kindFor_target, kindFor_source hk]

theorem notes_mirrored_eq_nil_iff (hk : ¬ k.IsLoop) : g.notes k.mirrored = [] ↔ g.notes k = [] := by
  have hclause : g.clauseOf? k.mirrored = g.clauseOf? k := by simp [clauseOf?]
  rw [notes, notes, hclause]
  cases hc : g.clauseOf? k with
  | none => rfl
  | some c =>
    have hm : k.mentions c.table = true := List.find?_some (p := fun c : Clause => k.mentions c.table) hc
    rw [Option.elim_some, Option.elim_some, Clause.notes_eq_nil_iff, Clause.notes_eq_nil_iff,
      kindFor_mirrored hk hm]

theorem Turned.notes_eq (h : Turned e g g') (k : Join) : g.notes k = g'.notes k :=
  notes_congr (h.clauses.map_eq fun _ _ h => by rw [h.table, h.kind]) k

theorem Reopened.notes_eq_nil_iff (h : Reopened j g g') (hk : ¬ k.IsLoop)
    (hs : k.source.table ∈ g.tables) (ht : k.target.table ∈ g.tables) :
    g.notes k = [] ↔ g'.notes k = [] := by
  obtain ⟨es, cs, hg, hg'⟩ := h
  rcases hg.later_or_links hk hs ht with ⟨before, c, after, rfl, hm, hafter⟩ | ⟨hl, hcs⟩
  · have hn := notes_eq (show g.clauses = (_ :: before) ++ c :: after from hg.clauses) hm hafter
    have hn' := notes_eq (show g'.clauses = (_ :: before) ++ c :: after from hg'.clauses) hm hafter
    rw [hn, hn']
  · have hn := notes_eq (show g.clauses = [] ++ _ :: cs from hg.clauses) hl.symm.mentions hcs
    have hn' := notes_eq (show g'.clauses = [] ++ _ :: cs from hg'.clauses) hl.mentions hcs
    rw [hn, hn', Clause.notes_eq_nil_iff, Clause.notes_eq_nil_iff]
    show kindFor k j.target.table = j.kind ↔ kindFor k j.source.table = j.kind.mirrored
    rw [kindFor_other hk hl.symm]
    exact (Function.Involutive.injective JoinKind.mirrored_mirrored).eq_iff.symm

end Group

/-! ### Warnings -/

/-- The joins that the groups warn about. -/
def warned (gs : List Group) : List Join := (gs.flatMap Group.disagreements).map Disagreement.join

/-- A join is noted by the group of its tables only. -/
theorem AllSound.flatMap_notes (hgs : AllSound gs js) (hg : g ∈ gs) (hs : k.source.table ∈ g.tables)
    (ht : k.target.table ∈ g.tables) : gs.flatMap (·.notes k) = g.notes k := by
  have other : ∀ h ∈ gs, h ≠ g → h.notes k = [] := fun h hh hne =>
    Group.notes_eq_nil_of_not_touches <| by
      rw [← Bool.not_eq_true, Group.touches_iff]
      rintro (hk | hk)
      exacts [hne (hgs.eq_of_mem hh hg hk hs), hne (hgs.eq_of_mem hh hg hk ht)]
  obtain ⟨before, after, rfl⟩ := List.append_of_mem hg
  have hnd := List.nodup_append.1 hgs.nodup
  have hbefore : before.flatMap (·.notes k) = [] := List.flatMap_eq_nil_iff.2 fun h hh =>
    other h (List.mem_append_left _ hh) (hnd.2.2 h hh g (List.mem_cons_self ..))
  have hafter : after.flatMap (·.notes k) = [] := List.flatMap_eq_nil_iff.2 fun h hh =>
    other h (by simp [hh]) fun heq => (List.nodup_cons.1 hnd.2.1).1 (heq ▸ hh)
  rw [List.flatMap_append, List.flatMap_cons, hbefore, hafter, List.append_nil, List.nil_append]

theorem Group.map_join_notes (g : Group) (k : Join) :
    (g.notes k).map Disagreement.join = if g.notes k = [] then [] else [k] := by
  rw [Group.notes]
  cases g.clauseOf? k with
  | none => rfl
  | some c =>
    simp only [Option.elim_some, Clause.notes]
    split <;> rfl

/-- Every join is warned about once at most, namely if it is not of the kind of its clause. -/
theorem AllSound.warned_perm (hgs : AllSound gs js) :
    (warned gs).Perm (js.filter fun k => gs.flatMap (·.notes k) ≠ []) := by
  refine (hgs.noted.map _).trans (List.Perm.of_eq ?_)
  rw [List.map_flatMap, ← List.filterMap_eq_filter, List.filterMap_eq_flatMap_toList]
  refine List.flatMap_congr fun k hk => ?_
  obtain ⟨g, hg, hs, ht⟩ := hgs.exists_group hk
  simp only [hgs.flatMap_notes hg hs ht, Group.map_join_notes, Option.guard]
  by_cases hn : g.notes k = [] <;> simp [hn]

theorem AllSound.mem_warned_iff (hgs : AllSound gs js) (hk : k ∈ js) :
    k ∈ warned gs ↔ ∃ g ∈ gs, g.notes k ≠ [] := by
  rw [hgs.warned_perm.mem_iff, List.mem_filter]
  simp [hk]

theorem AllSound.warned_perm_filter (hgs : AllSound gs js) :
    (warned gs).Perm (js.filter (· ∈ warned gs)) := by
  refine hgs.warned_perm.trans (List.Perm.of_eq (List.filter_congr fun k hk => ?_))
  simp [hgs.mem_warned_iff hk]

/-- The group that changes notes the same joins as before. -/
theorem AllSound.notes_changed (hgs : AllSound gs js) (hjs : ∀ k ∈ js, ¬ k.IsLoop) (hg : g ∈ gs)
    (h : Group.Turned e g g' ∨ Group.Reopened j g g') (hk : k ∈ js) :
    g.notes k = [] ↔ g'.notes k = [] := by
  rcases h with h | h
  · rw [h.notes_eq]
  · by_cases ht : g.touches k = true
    · obtain ⟨h', hh', hs, ht'⟩ := hgs.exists_group hk
      have hmem : g = h' := by
        rcases Group.touches_iff.1 ht with ht | ht
        exacts [hgs.eq_of_mem hg hh' ht hs, hgs.eq_of_mem hg hh' ht ht']
      subst hmem
      exact h.notes_eq_nil_iff (hjs k hk) hs ht'
    · have ht : g.touches k = false := by simpa using ht
      have ht' : g'.touches k = false := by rwa [← Group.touches_eq_of_perm h.tables_perm]
      rw [Group.notes_eq_nil_of_not_touches ht, Group.notes_eq_nil_of_not_touches ht']

/-! ### Roots -/

theorem Openers.getElem?_findIdx (ho : Openers js gs) (hg : g ∈ gs) :
    ∃ k, js[js.findIdx g.touches]? = some k ∧ g.root = k.source.table := by
  obtain ⟨k, hk, hroot⟩ := ho.root g hg
  rw [List.find?_eq_getElem?_findIdx] at hk
  exact ⟨k, hk, hroot⟩

/-- The root of a group depends on the side from which the join that opens it is written, and on no
other join. -/
theorem Openers.roots {i : Nat} (ho : Openers js gs) (ho' : Openers (js.modify i Join.mirrored) gs')
    (hj : js[i]? = some j) (hg : g ∈ gs) (hg' : g' ∈ gs') (ht : g.tables.Perm g'.tables) :
    if js.findIdx g.touches = i then g.root = j.source.table ∧ g'.root = j.target.table
    else g.root = g'.root := by
  have hidx : (js.modify i Join.mirrored).findIdx g'.touches = js.findIdx g.touches := by
    rw [← Group.touches_eq_of_perm ht]
    exact ((DifferOnce.of_modify Join.mirrored hj).findIdx_eq fun k k' h => by
      rw [h.2, Group.touches_mirrored]).symm
  obtain ⟨k, hk, hroot⟩ := ho.getElem?_findIdx hg
  obtain ⟨k', hk', hroot'⟩ := ho'.getElem?_findIdx hg'
  rw [hidx] at hk'
  split_ifs with hi
  · rw [hi, hj] at hk
    rw [hi, List.getElem?_modify_eq, hj] at hk'
    cases hk
    cases hk'
    exact ⟨hroot, hroot'⟩
  · rw [List.getElem?_modify_ne _ _ (Ne.symm hi), hk] at hk'
    cases hk'
    rw [hroot, hroot']

/-! ### All groups -/

/-- The groups `gs` of the joins `js`, and the groups `gs'` if the join `j`, at the place `i`, is
written from its other side. -/
structure Mirrors (js : List Join) (i : Nat) (j : Join) (gs gs' : List Group) : Prop where
  /-- One group changes: in a condition only, unless it was opened by `j`. -/
  groups : ∃ before g g' after, gs = before ++ g :: after ∧ gs' = before ++ g' :: after ∧
    g.tables.Perm g'.tables ∧
    if before ≠ [] ∧ js.findIdx g.touches = i then Group.Reopened j g g'
    else Group.Turned (.ofJoin j) g g'
  /-- Warnings are about joins, each warned about once at most. -/
  warned : (warned gs).Perm (js.filter (· ∈ warned gs)) ∧
    (Sql.warned gs').Perm ((js.modify i Join.mirrored).filter (· ∈ Sql.warned gs'))
  /-- At every place, both joins are warned about or neither is. -/
  agree : List.Forall₂ (fun k k' => k ∈ Sql.warned gs ↔ k' ∈ Sql.warned gs') js
    (js.modify i Join.mirrored)

/-- Which of its two forms the change of a group takes is seen from the roots. -/
theorem changed_of_roots {p : Prop} [Decidable p] (hj : ¬ j.IsLoop)
    (hroots : if p then g.root = j.source.table ∧ g'.root = j.target.table else g.root = g'.root)
    (h : Group.Turned (.ofJoin j) g g' ∨ Group.Reopened j g g') :
    if p then Group.Reopened j g g' else Group.Turned (.ofJoin j) g g' := by
  split_ifs with hp
  · rw [if_pos hp] at hroots
    refine h.resolve_left fun h => hj ?_
    exact hroots.1.symm.trans (h.root.trans hroots.2)
  · rw [if_neg hp] at hroots
    refine h.resolve_right fun ⟨es, cs, hg, hg'⟩ => hj ?_
    exact hg.root.symm.trans (hroots.trans hg'.root)

section Mirrored

variable {i : Nat} (base : TableId) (hjs : ∀ k ∈ js, ¬ k.IsLoop) (hj : js[i]? = some j)

include hjs

theorem noLoops_mirrored (i : Nat) : ∀ k ∈ js.modify i Join.mirrored, ¬ k.IsLoop := by
  intro k hk
  obtain ⟨n, hn, rfl⟩ := List.getElem_of_mem hk
  rw [List.length_modify] at hn
  have hloop := hjs js[n] (List.getElem_mem hn)
  rw [List.getElem_modify]
  split
  · rwa [Join.isLoop_mirrored]
  · exact hloop

include hj

theorem spread_mirrored : ∃ before g g' after,
    Group.spread { root := base } js = before ++ g :: after ∧
    Group.spread { root := base } (js.modify i Join.mirrored) = before ++ g' :: after ∧
    g.tables.Perm g'.tables ∧
    if before ≠ [] ∧ js.findIdx g.touches = i then Group.Reopened j g g'
    else Group.Turned (.ofJoin j) g g' := by
  have hloop : ¬ j.IsLoop := hjs j (List.mem_of_getElem? hj)
  obtain ⟨before, g, g', after, hs, hs', hcase⟩ :=
    Group.Abreast.spread hjs (.waiting (DifferOnce.of_modify Join.mirrored hj))
      (g := { root := base })
  have ht : g.tables.Perm g'.tables :=
    hcase.elim (fun h => List.Perm.of_eq h.tables_eq) fun h => h.2.tables_perm
  refine ⟨before, g, g', after, hs, hs', ht, ?_⟩
  cases before with
  | nil =>
    have hturned := hcase.resolve_right fun h => h.1 rfl
    simpa using hturned
  | cons b before =>
    obtain ⟨first, opened, hf, _, ho⟩ := spread_openers base hjs
    obtain ⟨first', opened', hf', _, ho'⟩ := spread_openers base (noLoops_mirrored hjs i)
    rw [hs] at hf
    rw [hs'] at hf'
    cases hf
    cases hf'
    have hg : g ∈ before ++ g :: after := by simp
    have hg' : g' ∈ before ++ g' :: after := by simp
    have hroots := ho.roots ho' hj hg hg' ht
    have := changed_of_roots hloop hroots (hcase.imp_right And.right)
    simpa using this

theorem mirrors_spread : Mirrors js i j (Group.spread { root := base } js)
    (Group.spread { root := base } (js.modify i Join.mirrored)) := by
  have hall := allSound_spread base hjs
  have hall' := allSound_spread base (noLoops_mirrored hjs i)
  have hchange := spread_mirrored base hjs hj
  refine ⟨hchange, ⟨hall.warned_perm_filter, hall'.warned_perm_filter⟩, ?_⟩
  refine (DifferOnce.of_modify Join.mirrored hj).forall₂ fun k hk k' hk' hkk' => ?_
  rw [hall.mem_warned_iff hk, hall'.mem_warned_iff hk']
  have same (h : Group) : h.notes k = [] ↔ h.notes k' = [] := by
    rcases hkk' with rfl | ⟨rfl, rfl⟩
    · rfl
    · exact (Group.notes_mirrored_eq_nil_iff (hjs k hk)).symm
  obtain ⟨before, g, g', after, hs, hs', _, hcase⟩ := hchange
  have hchanged : g.notes k' = [] ↔ g'.notes k' = [] := by
    rw [← same g, ← same g']
    refine hall.notes_changed hjs (by rw [hs]; simp) ?_ hk (e := .ofJoin j) (j := j)
    split_ifs at hcase
    exacts [.inr hcase, .inl hcase]
  rw [hs, hs']
  simp [or_and_right, exists_or, same, hchanged]

end Mirrored

/-- Groups of the same tables are followed by the same tables on their own. -/
theorem exists_addLoners (h : ∀ t, gs.any (t ∈ ·.tables) = gs'.any (t ∈ ·.tables))
    (ts : List TableId) : ∃ us : List TableId, addLoners gs ts = gs ++ us.map ({ root := · }) ∧
      addLoners gs' ts = gs' ++ us.map ({ root := · }) := by
  induction ts generalizing gs gs' with
  | nil => exact ⟨[], by simp [addLoners], by simp [addLoners]⟩
  | cons t ts ih =>
    rw [addLoners_cons, addLoners_cons, ← h]
    by_cases hany : gs.any (t ∈ ·.tables) = true
    · rw [if_pos hany, if_pos hany]
      exact ih h
    · rw [if_neg hany, if_neg hany]
      have hadd (u : TableId) : (gs ++ [({ root := t } : Group)]).any (u ∈ ·.tables) =
          (gs' ++ [({ root := t } : Group)]).any (u ∈ ·.tables) := by
        rw [List.any_append, List.any_append, h]
      obtain ⟨us, hus, hus'⟩ := ih hadd
      exact ⟨t :: us, by simp [hus], by simp [hus']⟩

theorem warned_append_loners (gs : List Group) (us : List TableId) :
    warned (gs ++ us.map ({ root := · })) = warned gs := by
  rw [warned, warned, flatMap_disagreements_loners]

theorem Mirrors.append_loners {i : Nat} (h : Mirrors js i j gs gs') (us : List TableId) :
    Mirrors js i j (gs ++ us.map ({ root := · })) (gs' ++ us.map ({ root := · })) := by
  obtain ⟨before, g, g', after, rfl, rfl, hchange⟩ := h.groups
  refine ⟨⟨before, g, g', after ++ us.map ({ root := · }), by simp, by simp, hchange⟩, ?_, ?_⟩
  · simpa only [warned_append_loners] using h.warned
  · simpa only [warned_append_loners] using h.agree

/-- Writing one join of a draft from its other side changes one group, and that only in how the
join is written; the warnings stay. -/
theorem groups_mirrored {catalog : Catalog} {d : Draft} {i : Nat} (base : TableId)
    (hvalid : d.referenceFaults catalog = []) (hj : d.joins[i]? = some j) :
    Mirrors d.joins i j (groups base d.tables d.joins)
      (groups base d.tables (d.joins.modify i Join.mirrored)) := by
  have hspread := mirrors_spread base (Draft.noLoops_of_valid hvalid) hj
  obtain ⟨before, g, g', after, hs, hs', ht, _⟩ := hspread.groups
  have hany (t : TableId) : (Group.spread { root := base } d.joins).any (t ∈ ·.tables) =
      (Group.spread { root := base } (d.joins.modify i Join.mirrored)).any (t ∈ ·.tables) := by
    rw [hs, hs']
    simp [ht.mem_iff]
  obtain ⟨us, hus, hus'⟩ := exists_addLoners hany d.tables
  rw [groups, groups, hus, hus']
  exact hspread.append_loners us

open Sample in
theorem groups_mirrored_archiveFirst :
    archiveFirst.referenceFaults .multiSchema = [] ∧
      archiveFirst.joins[0]? = some ⟨"a", refunds.column "order_id", .left, orders.column "id"⟩ ∧
      Mirrors archiveFirst.joins 0 ⟨"a", refunds.column "order_id", .left, orders.column "id"⟩
        (groups archived archiveFirst.tables archiveFirst.joins)
        (groups archived archiveFirst.tables (archiveFirst.joins.modify 0 Join.mirrored)) :=
  ⟨referenceFaults_archiveFirst, rfl, groups_mirrored archived referenceFaults_archiveFirst rfl⟩

end QueryDraft.Sql
