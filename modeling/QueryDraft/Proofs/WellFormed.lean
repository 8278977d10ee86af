import Mathlib
import QueryDraft.Proofs.GroupSound

/-!
# The groups of a query are well formed

`AllSound gs js`: the groups are sound, hold the joins `js` between them and share no table. Groups
that joins open one after the other are (`Opened.allSound`), and so are all groups of a query
(`allSound_groups`). `wellFormed_groups` says it of drafts.
-/

namespace QueryDraft.Sql

namespace Group

variable {g h : Group} {js left : List Join} {gs : List Group}

theorem Opened.mem_tables (ho : Opened js gs) (hjs : ∀ j ∈ js, ¬ j.IsLoop) :
    ∀ h ∈ gs, ∀ t ∈ h.tables, ∃ j ∈ js, j.mentions t = true := by
  induction ho with
  | nil => simp
  | @cons j js left h gs hg _ ih =>
    rw [List.forall_mem_cons]
    refine ⟨fun t ht => ?_, fun h' hh' t ht => ?_⟩
    · rcases hg.mem_tables hjs t ht with rfl | hm
      · exact ⟨j, by simp, Join.mentions_iff.2 (.inl rfl)⟩
      · exact hm
    · obtain ⟨k, hk, hm⟩ := ih (hg.noLoops hjs) h' hh' t ht
      exact ⟨k, hg.subset hk, hm⟩

/-- A grown group shares no table with the groups that the joins left over open. -/
theorem Grown.disjoint (hg : Grown g js h left) (hjs : ∀ j ∈ js, ¬ j.IsLoop) (ho : Opened left gs) :
    ∀ h' ∈ gs, h.tables.Disjoint h'.tables := by
  intro h' hh' t ht ht'
  obtain ⟨j, hj, hm⟩ := ho.mem_tables (hg.noLoops hjs) h' hh' t ht'
  simp [hg.not_mem_tables ht j hj] at hm

end Group

/-- The groups hold the joins `js` between them, each table in one group at most. -/
structure AllSound (gs : List Group) (js : List Join) : Prop where
  sound : ∀ g ∈ gs, ∃ done, g.Sound done ∧ done ⊆ js
  conditions : (gs.flatMap fun g => g.clauses.flatMap Clause.conditions).Perm
    (js.map Equality.ofJoin)
  disjoint : gs.Pairwise fun g h => g.tables.Disjoint h.tables
  noted : (gs.flatMap Group.disagreements).Perm (js.flatMap fun j => gs.flatMap (·.notes j))

/-- Tables on their own come with no notes. -/
theorem flatMap_disagreements_loners (gs : List Group) (us : List TableId) :
    (gs ++ us.map ({ root := · } : TableId → Group)).flatMap Group.disagreements =
      gs.flatMap Group.disagreements := by
  have hnone : (us.map ({ root := · } : TableId → Group)).flatMap Group.disagreements = [] := by
    simp [List.flatMap_eq_nil_iff]
  rw [List.flatMap_append, hnone, List.append_nil]

namespace AllSound

variable {g : Group} {gs : List Group} {js left : List Join}

/-- A join of the first group is noted by no other. -/
theorem flatMap_notes_of_mem {done : List Join} {j : Join} (hd : g.Sound done)
    (hdisj : ∀ h ∈ gs, g.tables.Disjoint h.tables) (hj : j ∈ done) :
    (g :: gs).flatMap (·.notes j) = g.notes j := by
  have hends := hd.ends_of_mem j hj
  have hnone : gs.flatMap (·.notes j) = [] := by
    rw [List.flatMap_eq_nil_iff]
    intro h hh
    refine Group.notes_eq_nil_of_not_touches ?_
    rw [← Bool.not_eq_true, Group.touches_iff]
    rintro (ht | ht)
    exacts [hdisj h hh hends.1 ht, hdisj h hh hends.2 ht]
  rw [List.flatMap_cons, hnone, List.append_nil]

/-- A join that is left over is not noted by the first group. -/
theorem flatMap_notes_of_left {g₀ : Group} {j : Join} (gs : List Group)
    (hg : Group.Grown g₀ js g left) (hj : j ∈ left) :
    (g :: gs).flatMap (·.notes j) = gs.flatMap (·.notes j) := by
  rw [hg.left_eq, List.mem_filter, Bool.not_eq_true'] at hj
  rw [List.flatMap_cons, Group.notes_eq_nil_of_not_touches hj.2, List.nil_append]

theorem cons {t : TableId} (hg : Group.Grown { root := t } js g left)
    (hjs : ∀ j ∈ js, ¬ j.IsLoop) (hgs : AllSound gs left)
    (hdisj : ∀ h ∈ gs, g.tables.Disjoint h.tables) : AllSound (g :: gs) js := by
  obtain ⟨done, hd, hp⟩ := hg.sound hjs
  refine ⟨List.forall_mem_cons.2 ⟨⟨done, hd, ?_⟩, fun h hh => ?_⟩, ?_, ?_, ?_⟩
  · exact fun j hj => hp.subset (List.mem_append_left _ hj)
  · obtain ⟨done', hd', hsub⟩ := hgs.sound h hh
    exact ⟨done', hd', List.Subset.trans hsub hg.subset⟩
  · rw [List.flatMap_cons]
    refine (hd.conditions.append hgs.conditions).trans ?_
    rw [← List.map_append]
    exact hp.map _
  · exact List.pairwise_cons.2 ⟨hdisj, hgs.disjoint⟩
  · have here : done.flatMap (fun j => (g :: gs).flatMap (·.notes j)) = done.flatMap g.notes :=
      List.flatMap_congr fun j hj => flatMap_notes_of_mem hd hdisj hj
    have there : left.flatMap (fun j => (g :: gs).flatMap (·.notes j)) =
        left.flatMap fun j => gs.flatMap (·.notes j) :=
      List.flatMap_congr fun j hj => flatMap_notes_of_left gs hg hj
    rw [List.flatMap_cons]
    refine (hd.noted.append hgs.noted).trans ?_
    rw [← here, ← there, ← List.flatMap_append]
    exact hp.flatMap_right _

/-- Tables on their own may follow the groups that they are in none of. -/
theorem append_loners (hgs : AllSound gs js) {ts : List TableId} (hnd : ts.Nodup)
    (hts : ∀ t ∈ ts, ∀ g ∈ gs, t ∉ g.tables) : AllSound (gs ++ ts.map ({ root := · })) js := by
  refine ⟨?_, ?_, ?_, ?_⟩
  · rw [List.forall_mem_append, List.forall_mem_map]
    exact ⟨hgs.sound, fun t _ => ⟨[], .root t, List.nil_subset _⟩⟩
  · have hnone : (ts.map ({ root := · } : TableId → Group)).flatMap
        (fun g => g.clauses.flatMap Clause.conditions) = [] := by
      simp [List.flatMap_eq_nil_iff]
    rw [List.flatMap_append, hnone, List.append_nil]
    exact hgs.conditions
  · refine List.pairwise_append.2 ⟨hgs.disjoint, ?_, ?_⟩
    · refine List.pairwise_map.2 (hnd.imp fun hne => ?_)
      simpa [Group.tables] using hne.symm
    · intro g hg h hh u hu hu'
      obtain ⟨t, ht, rfl⟩ := List.mem_map.1 hh
      obtain rfl : u = t := by simpa [Group.tables] using hu'
      exact hts u ht g hg hu
  · have hnotes (j : Join) : (gs ++ ts.map ({ root := · } : TableId → Group)).flatMap (·.notes j) =
        gs.flatMap (·.notes j) := by
      have : (ts.map ({ root := · } : TableId → Group)).flatMap (·.notes j) = [] := by
        simp [List.flatMap_eq_nil_iff, Group.notes, Group.clauseOf?]
      rw [List.flatMap_append, this, List.append_nil]
    rw [flatMap_disagreements_loners]
    simpa only [hnotes] using hgs.noted

theorem nodup_tables (h : AllSound gs js) : (gs.flatMap Group.tables).Nodup := by
  refine List.nodup_flatMap.2 ⟨fun g hg => ?_, h.disjoint⟩
  obtain ⟨done, hd, _⟩ := h.sound g hg
  exact hd.nodup

/-- Both tables of a join are in one group. -/
theorem exists_group (h : AllSound gs js) {j : Join} (hj : j ∈ js) :
    ∃ g ∈ gs, j.source.table ∈ g.tables ∧ j.target.table ∈ g.tables := by
  have he := h.conditions.mem_iff.2 (List.mem_map_of_mem hj)
  simp only [List.mem_flatMap] at he
  obtain ⟨g, hg, c, hc, he⟩ := he
  obtain ⟨done, hd, _⟩ := h.sound g hg
  exact ⟨g, hg, hd.ends hc _ he⟩

theorem eq_of_mem (h : AllSound gs js) {g₁ g₂ : Group} (hg₁ : g₁ ∈ gs) (hg₂ : g₂ ∈ gs)
    {t : TableId} (ht₁ : t ∈ g₁.tables) (ht₂ : t ∈ g₂.tables) : g₁ = g₂ := by
  have : Std.Symm fun g h : Group => g.tables.Disjoint h.tables := ⟨fun _ _ => List.Disjoint.symm⟩
  by_contra hne
  exact h.disjoint.forall hg₁ hg₂ hne ht₁ ht₂

theorem nodup (h : AllSound gs js) : gs.Nodup := by
  refine h.disjoint.imp fun {g g'} hd heq => ?_
  subst heq
  exact hd (List.mem_cons_self (a := g.root)) (List.mem_cons_self ..)

end AllSound

theorem Group.Opened.allSound {js : List Join} {gs : List Group} (ho : Opened js gs)
    (hjs : ∀ j ∈ js, ¬ j.IsLoop) : AllSound gs js := by
  induction ho with
  | nil => exact ⟨by simp, by simp, .nil, by simp⟩
  | cons hg ho ih => exact .cons hg hjs (ih (hg.noLoops hjs)) (hg.disjoint hjs ho)

section groups

variable {base : TableId} {ts : List TableId} {js : List Join}

theorem allSound_spread (base : TableId) (hjs : ∀ j ∈ js, ¬ j.IsLoop) :
    AllSound (Group.spread { root := base } js) js := by
  obtain ⟨g, left, gs, hs, hg, ho⟩ := Group.opened_spread { root := base } js hjs
  rw [hs]
  exact .cons hg hjs (ho.allSound (hg.noLoops hjs)) (hg.disjoint hjs ho)

theorem allSound_groups (base : TableId) (hts : ts.Nodup) (hjs : ∀ j ∈ js, ¬ j.IsLoop) :
    AllSound (groups base ts js) js := by
  rw [groups, addLoners_eq _ hts]
  refine (allSound_spread base hjs).append_loners (hts.filter _) fun t ht g hg htable => ?_
  rw [List.mem_filter, Bool.not_eq_true', List.any_eq_false] at ht
  exact ht.2 g hg (decide_eq_true htable)

theorem mem_tables_spread (base : TableId) (hjs : ∀ j ∈ js, ¬ j.IsLoop) (t : TableId) :
    (∃ g ∈ Group.spread { root := base } js, t ∈ g.tables) ↔
      t = base ∨ ∃ j ∈ js, j.mentions t = true := by
  constructor
  · obtain ⟨g, left, gs, hs, hg, ho⟩ := Group.opened_spread { root := base } js hjs
    rw [hs]
    rintro ⟨h, hh, ht⟩
    rcases List.mem_cons.1 hh with rfl | hh
    · exact hg.mem_tables hjs t ht
    · obtain ⟨j, hj, hm⟩ := ho.mem_tables (hg.noLoops hjs) h hh t ht
      exact .inr ⟨j, hg.subset hj, hm⟩
  · rintro (rfl | ⟨j, hj, hm⟩)
    · obtain ⟨g, left, gs, hs, hg, _⟩ := Group.opened_spread { root := t } js hjs
      refine ⟨g, by rw [hs]; exact List.mem_cons_self .., ?_⟩
      rw [Group.tables, hg.root_eq hjs]
      exact List.mem_cons_self ..
    · obtain ⟨g, hg, hs, ht⟩ := (allSound_spread base hjs).exists_group hj
      rcases Join.mentions_iff.1 hm with rfl | rfl
      exacts [⟨g, hg, hs⟩, ⟨g, hg, ht⟩]

theorem mem_tables_groups (hts : ts.Nodup) (hjs : ∀ j ∈ js, ¬ j.IsLoop) (hbase : base ∈ ts)
    (hmem : ∀ j ∈ js, j.source.table ∈ ts ∧ j.target.table ∈ ts) (t : TableId) :
    t ∈ (groups base ts js).flatMap Group.tables ↔ t ∈ ts := by
  have hspread : (∃ g ∈ Group.spread { root := base } js, t ∈ g.tables) → t ∈ ts := by
    rw [mem_tables_spread base hjs]
    rintro (rfl | ⟨j, hj, hm⟩)
    · exact hbase
    · rcases Join.mentions_iff.1 hm with rfl | rfl
      exacts [(hmem j hj).1, (hmem j hj).2]
  have hloners : t ∈ ((ts.filter fun t => !(Group.spread { root := base } js).any (t ∈ ·.tables)).map
      ({ root := · } : TableId → Group)).flatMap Group.tables ↔
      t ∈ ts ∧ ¬ ∃ g ∈ Group.spread { root := base } js, t ∈ g.tables := by
    simp [List.flatMap_map, Group.tables]
  rw [groups, addLoners_eq _ hts, List.flatMap_append, List.mem_append, List.mem_flatMap, hloners]
  constructor
  · rintro (h | h)
    exacts [hspread h, h.1]
  · intro ht
    by_cases h : ∃ g ∈ Group.spread { root := base } js, t ∈ g.tables
    exacts [.inl h, .inr ⟨ht, h⟩]

theorem perm_tables_groups (hts : ts.Nodup) (hjs : ∀ j ∈ js, ¬ j.IsLoop) (hbase : base ∈ ts)
    (hmem : ∀ j ∈ js, j.source.table ∈ ts ∧ j.target.table ∈ ts) :
    ((groups base ts js).flatMap Group.tables).Perm ts :=
  (List.perm_ext_iff_of_nodup (allSound_groups base hts hjs).nodup_tables hts).2
    (mem_tables_groups hts hjs hbase hmem)

end groups

/-- What a list of groups must be to stand for all of some tables and joins. -/
structure WellFormed (gs : List Group) (ts : List TableId) (js : List Join) : Prop where
  /-- Every table is the root of a group or has a clause, once over all groups. -/
  tables : (gs.flatMap Group.tables).Perm ts
  /-- Every join has its equality in one clause. -/
  conditions : (gs.flatMap fun g => g.clauses.flatMap Clause.conditions).Perm
    (js.map fun j => ⟨j.source, j.target⟩)
  /-- A clause ties its own table to the root of its group or the table of an earlier clause. -/
  ties : ∀ g ∈ gs, ∀ before c after, g.clauses = before ++ c :: after →
    ∀ e ∈ c.conditions, e.Ties c.table (g.root :: before.map Clause.table)

/-- The groups of a draft whose references are in order are well formed. -/
theorem wellFormed_groups {catalog : Catalog} {d : Draft} {base : TableId}
    (hbase : d.base? = some base) (hts : d.tables.Nodup) (hvalid : d.referenceFaults catalog = []) :
    WellFormed (groups base d.tables d.joins) d.tables d.joins := by
  have hjs := Draft.noLoops_of_valid hvalid
  have hsound := allSound_groups base hts hjs
  refine ⟨?_, hsound.conditions, fun g hg before c after hc => ?_⟩
  · exact perm_tables_groups hts hjs (List.mem_of_mem_head? hbase) fun j hj =>
      (Draft.joins_of_valid hvalid j hj).2
  · obtain ⟨done, hd, _⟩ := hsound.sound g hg
    have := hd.inScope
    rw [hc] at this
    exact this.split

open Sample in
theorem wellFormed_groups_sales :
    sales.base? = some customers ∧ sales.tables.Nodup ∧ sales.referenceFaults .multiSchema = [] ∧
      WellFormed (groups customers sales.tables sales.joins) sales.tables sales.joins :=
  ⟨base?_sales, nodup_tables_sales, referenceFaults_sales,
    wellFormed_groups base?_sales nodup_tables_sales referenceFaults_sales⟩

end QueryDraft.Sql
