import Mathlib
import QueryDraft.Proofs.References

/-!
# What a group holds

`Group.Sound g done`: the group holds the conditions of the joins `done`, each in a clause whose
table it ties to an earlier one, no table twice, and a note for every join whose clause is of
another kind. A step keeps it (`Sound.step`), so every group that has grown is sound for its own
joins (`Grown.sound`).
-/

namespace QueryDraft.Sql

/-- One side of the condition is a column of `t`, the other of one of the tables `seen`. -/
def Equality.Ties (e : Equality) (t : TableId) (seen : List TableId) : Prop :=
  (e.left.table = t ∧ e.right.table ∈ seen) ∨ (e.right.table = t ∧ e.left.table ∈ seen)

/-- Every condition ties the table of its clause to a table seen before it. -/
def Scoped : List TableId → List Clause → Prop
  | _, [] => True
  | seen, c :: cs => (∀ e ∈ c.conditions, e.Ties c.table seen) ∧ Scoped (seen ++ [c.table]) cs

theorem scoped_append {seen : List TableId} {cs ds : List Clause} :
    Scoped seen (cs ++ ds) ↔ Scoped seen cs ∧ Scoped (seen ++ cs.map Clause.table) ds := by
  induction cs generalizing seen with
  | nil => simp [Scoped]
  | cons c cs ih => simp [Scoped, ih, and_assoc]

theorem Scoped.split {seen : List TableId} {before after : List Clause} {c : Clause}
    (h : Scoped seen (before ++ c :: after)) :
    ∀ e ∈ c.conditions, e.Ties c.table (seen ++ before.map Clause.table) :=
  (scoped_append.1 h).2.1

theorem Scoped.withJoin {seen : List TableId} {before after : List Clause} {c : Clause} {j : Join}
    (h : Scoped seen (before ++ c :: after))
    (hj : (Equality.ofJoin j).Ties c.table (seen ++ before.map Clause.table)) :
    Scoped seen (before ++ c.withJoin j :: after) := by
  obtain ⟨hbefore, hc, hafter⟩ := scoped_append.1 h
  refine scoped_append.2 ⟨hbefore, ?_, hafter⟩
  rw [Clause.conditions_withJoin, List.forall_mem_append, List.forall_mem_singleton]
  exact ⟨hc, hj⟩

theorem perm_conditions_withJoin (before after : List Clause) (c : Clause) (j : Join) :
    ((before ++ c.withJoin j :: after).flatMap Clause.conditions).Perm
      ((before ++ c :: after).flatMap Clause.conditions ++ [.ofJoin j]) := by
  simp only [List.flatMap_append, List.flatMap_cons, Clause.conditions_withJoin, List.append_assoc]
  exact (List.perm_append_comm.append_left c.conditions).append_left _

/-- A join of two tables ties the one to the other. -/
theorem Equality.ties_ofJoin {j : Join} {t u : TableId} {seen : List TableId} (hl : j.Links t u)
    (hu : u ∈ seen) : (Equality.ofJoin j).Ties t seen := by
  rcases hl with ⟨rfl, rfl⟩ | ⟨rfl, rfl⟩
  · exact .inl ⟨rfl, hu⟩
  · exact .inr ⟨rfl, hu⟩

/-- One of the joins is one of these two tables. -/
def Linked (js : List Join) (t u : TableId) : Prop := ∃ j ∈ js, j.Links t u

theorem Linked.mono {js ks : List Join} (h : js ⊆ ks) {t u : TableId} (hl : Linked js t u) :
    Linked ks t u :=
  let ⟨j, hj, hl⟩ := hl
  ⟨j, h hj, hl⟩

theorem Linked.symm {js : List Join} {t u : TableId} (hl : Linked js t u) : Linked js u t :=
  let ⟨j, hj, hl⟩ := hl
  ⟨j, hj, hl.symm⟩

/-- A path of joins is one of more joins. -/
theorem linked_path_mono {js ks : List Join} (h : js ⊆ ks) {t u : TableId}
    (hp : Relation.ReflTransGen (Linked js) t u) : Relation.ReflTransGen (Linked ks) t u :=
  Relation.ReflTransGen.mono (fun _ _ => Linked.mono h) _ _ hp

namespace Group

variable {g g' h : Group} {j : Join} {js done left : List Join} {t u : TableId}

/-- The clause that a join belongs to: the last of those that brought its tables in. -/
def clauseOf? (g : Group) (j : Join) : Option Clause := g.clauses.reverse.find? (j.mentions ·.table)

/-- What is to be noted about a join and its clause. -/
def notes (g : Group) (j : Join) : List Disagreement := (g.clauseOf? j).elim [] (·.notes j)

theorem clauseOf?_eq {before after : List Clause} {c : Clause} (hc : g.clauses = before ++ c :: after)
    (hm : j.mentions c.table = true) (hafter : ∀ d ∈ after, j.mentions d.table = false) :
    g.clauseOf? j = some c := by
  have hnone : after.reverse.find? (j.mentions ·.table) = none := by
    rw [List.find?_eq_none]
    exact fun d hd => by simp [hafter d (List.mem_reverse.1 hd)]
  simp [clauseOf?, hc, List.find?_append, hnone, hm]

theorem notes_eq {before after : List Clause} {c : Clause} (hc : g.clauses = before ++ c :: after)
    (hm : j.mentions c.table = true) (hafter : ∀ d ∈ after, j.mentions d.table = false) :
    g.notes j = c.notes j := by
  rw [notes, clauseOf?_eq hc hm hafter, Option.elim_some]

/-- Notes depend on the tables and kinds of the clauses only. -/
theorem notes_congr (h : g'.clauses.map (fun c => (c.table, c.kind)) =
    g.clauses.map fun c => (c.table, c.kind)) (j : Join) : g'.notes j = g.notes j := by
  have key (g : Group) : g.notes j =
      (((g.clauses.map fun c => (c.table, c.kind)).reverse.find? (j.mentions ·.1)).elim [] fun k =>
        Clause.notes ⟨k.2, k.1, []⟩ j) := by
    rw [notes, clauseOf?, ← List.map_reverse, List.find?_map]
    simp only [Function.comp_def]
    cases g.clauses.reverse.find? (j.mentions ·.table) <;> rfl
  rw [key, key, h]

theorem notes_eq_nil_of_not_touches (h : g.touches j = false) : g.notes j = [] := by
  have : g.clauseOf? j = none := by
    rw [clauseOf?, List.find?_eq_none]
    intro c hc hm
    have hc' : c.table ∈ g.tables :=
      List.mem_cons_of_mem _ (List.mem_map_of_mem (List.mem_reverse.1 hc))
    simp [touches_iff_mentions.2 ⟨c.table, hc', hm⟩] at h
  rw [notes, this, Option.elim_none]

theorem notes_introduce_of_not_mentions {kind : JoinKind} {e : Equality} (h : j.mentions t = false) :
    (g.introduce t kind e).notes j = g.notes j := by
  simp [notes, clauseOf?, introduce, h]

/-- A join agrees with the clause that it introduces. -/
theorem notes_introduce_self {e : Equality} (h : j.mentions t = true) :
    (g.introduce t (kindFor j t) e).notes j = [] := by
  simp [notes, clauseOf?, introduce, h, Clause.notes]

/-- The group holds the joins `done`, each where its tables are in scope. -/
structure Sound (g : Group) (done : List Join) : Prop where
  nodup : g.tables.Nodup
  inScope : Scoped [g.root] g.clauses
  conditions : (g.clauses.flatMap Clause.conditions).Perm (done.map Equality.ofJoin)
  /-- A clause has the kind of the join that introduced it, as seen from the clause's table. -/
  kinds : ∀ c ∈ g.clauses, ∃ j ∈ done, c.conditions.head? = some (.ofJoin j) ∧
    c.kind = kindFor j c.table
  linked : ∀ t ∈ g.tables, Relation.ReflTransGen (Linked done) g.root t
  noted : g.disagreements.Perm (done.flatMap g.notes)

theorem Sound.root (t : TableId) : Sound { root := t } [] :=
  ⟨by simp [tables], trivial, by simp, by simp, by simp [tables, Relation.ReflTransGen.refl], by simp⟩

/-- A condition is on tables of the group. -/
theorem Sound.ends (h : g.Sound done) {c : Clause} (hc : c ∈ g.clauses) :
    ∀ e ∈ c.conditions, e.left.table ∈ g.tables ∧ e.right.table ∈ g.tables := by
  intro e he
  obtain ⟨before, after, hsplit⟩ := List.append_of_mem hc
  have hscoped := h.inScope
  rw [hsplit] at hscoped
  have own : c.table ∈ g.tables := List.mem_cons_of_mem _ (List.mem_map_of_mem hc)
  have seen {t : TableId} (ht : t ∈ [g.root] ++ before.map Clause.table) : t ∈ g.tables := by
    simp only [tables, hsplit, List.map_append, List.mem_cons, List.mem_append] at ht ⊢
    rcases ht with (ht | ht) | ht
    exacts [.inl ht, absurd ht List.not_mem_nil, .inr (.inl ht)]
  rcases hscoped.split e he with ⟨hl, hr⟩ | ⟨hr, hl⟩
  · exact ⟨hl ▸ own, seen hr⟩
  · exact ⟨seen hl, hr ▸ own⟩

theorem Sound.ends_of_mem (h : g.Sound done) :
    ∀ k ∈ done, k.source.table ∈ g.tables ∧ k.target.table ∈ g.tables := by
  intro k hk
  obtain ⟨c, hc, he⟩ := List.mem_flatMap.1 (h.conditions.mem_iff.2 (List.mem_map_of_mem hk))
  exact h.ends hc _ he

theorem Sound.introduce (h : g.Sound done) (hl : j.Links t u) (ht : t ∉ g.tables)
    (hu : u ∈ g.tables) : (g.introduce t (kindFor j t) (.ofJoin j)).Sound (done ++ [j]) := by
  refine ⟨?_, ?_, ?_, ?_, ?_, ?_⟩
  · rw [tables_introduce, ← List.concat_eq_append]
    exact h.nodup.concat ht
  · refine scoped_append.2 ⟨h.inScope, fun e he => ?_, trivial⟩
    rw [List.mem_singleton.1 he]
    exact Equality.ties_ofJoin hl hu
  · simpa [Group.introduce] using h.conditions.append_right [.ofJoin j]
  · intro c hc
    rcases List.mem_append.1 hc with hc | hc
    · obtain ⟨k, hk, hkind⟩ := h.kinds c hc
      exact ⟨k, List.mem_append_left _ hk, hkind⟩
    · rw [List.mem_singleton.1 hc]
      exact ⟨j, by simp, rfl, rfl⟩
  · rw [tables_introduce, List.forall_mem_append, List.forall_mem_singleton]
    have old {v : TableId} (hv : v ∈ g.tables) : Relation.ReflTransGen (Linked (done ++ [j])) g.root v :=
      linked_path_mono (List.subset_append_left ..) (h.linked v hv)
    exact ⟨fun v hv => old hv, (old hu).tail ⟨j, by simp, hl.symm⟩⟩
  · rw [List.flatMap_append, List.flatMap_singleton, notes_introduce_self hl.mentions, List.append_nil]
    refine h.noted.trans (List.Perm.of_eq (List.flatMap_congr fun k hk => ?_))
    refine (notes_introduce_of_not_mentions ?_).symm
    rw [← Bool.not_eq_true, Join.mentions_iff]
    rintro (rfl | rfl)
    exacts [ht (h.ends_of_mem k hk).1, ht (h.ends_of_mem k hk).2]

/-- Where a join is folded in, it ties the clause's table to one before it: its other table is not
the clause's own, and no later clause is about the join. -/
theorem ties_fold {before after : List Clause} {c : Clause} (hj : ¬ j.IsLoop)
    (hs : j.source.table ∈ g.tables) (ht : j.target.table ∈ g.tables)
    (hc : g.clauses = before ++ c :: after) (hm : j.mentions c.table = true)
    (hafter : ∀ d ∈ after, j.mentions d.table = false) :
    (Equality.ofJoin j).Ties c.table ([g.root] ++ before.map Clause.table) := by
  have other {t : TableId} (ht : t ∈ g.tables) (hne : t ≠ c.table) (hmt : j.mentions t = true) :
      t ∈ [g.root] ++ before.map Clause.table := by
    simp only [tables, hc, List.map_append, List.map_cons, List.mem_cons, List.mem_append,
      List.mem_map] at ht
    rw [List.mem_append, List.mem_singleton, List.mem_map]
    rcases ht with ht | ht | ht | ⟨d, hd, rfl⟩
    · exact .inl ht
    · exact .inr ht
    · exact absurd ht hne
    · simp [hafter d hd] at hmt
  rcases Join.mentions_iff.1 hm with hcs | hct
  · refine .inl ⟨hcs, other ht (fun h => hj (hcs.trans h.symm)) ?_⟩
    exact Join.mentions_iff.2 (.inr rfl)
  · refine .inr ⟨hct, other hs (fun h => hj (h.trans hct.symm)) ?_⟩
    exact Join.mentions_iff.2 (.inl rfl)

theorem Sound.fold {before after : List Clause} {c : Clause} (h : g.Sound done) (hj : ¬ j.IsLoop)
    (hs : j.source.table ∈ g.tables) (ht : j.target.table ∈ g.tables)
    (hc : g.clauses = before ++ c :: after) (hm : j.mentions c.table = true)
    (hafter : ∀ d ∈ after, j.mentions d.table = false) :
    Sound { g with
      clauses := before ++ c.withJoin j :: after
      disagreements := g.disagreements ++ c.notes j } (done ++ [j]) := by
  refine ⟨?_, ?_, ?_, ?_, ?_, ?_⟩
  · simpa [tables, hc] using h.nodup
  · have hscoped := h.inScope
    rw [hc] at hscoped
    exact hscoped.withJoin (ties_fold hj hs ht hc hm hafter)
  · have hconds := h.conditions
    rw [hc] at hconds
    rw [List.map_append]
    exact (perm_conditions_withJoin before after c j).trans (hconds.append_right _)
  · have old : ∀ d ∈ g.clauses, ∃ k ∈ done ++ [j], d.conditions.head? = some (.ofJoin k) ∧
        d.kind = kindFor k d.table := by
      intro d hd
      obtain ⟨k, hk, hkind⟩ := h.kinds d hd
      exact ⟨k, List.mem_append_left _ hk, hkind⟩
    intro d hd
    rcases List.mem_append.1 hd with hd | hd
    · exact old d (by simp [hc, hd])
    · rcases List.mem_cons.1 hd with rfl | hd
      · obtain ⟨k, hk, hh, hkind⟩ := old c (by simp [hc])
        exact ⟨k, hk, by simp [List.head?_append, hh], hkind⟩
      · exact old d (by simp [hc, hd])
  · intro t ht
    have ht : t ∈ g.tables := by simpa [tables, hc] using ht
    exact linked_path_mono (List.subset_append_left ..) (h.linked t ht)
  · rw [List.flatMap_append, List.flatMap_singleton]
    refine (h.noted.trans (List.Perm.of_eq (List.flatMap_congr fun k _ => ?_))).append
      (List.Perm.of_eq ?_)
    · exact (notes_congr (by simp [hc]) k).symm
    · rw [notes_eq rfl (by simpa using hm) hafter]
      rfl

theorem Sound.step (hj : ¬ j.IsLoop) (h : g.Sound done) (hs : Step g j g') :
    g'.Sound (done ++ [j]) := by
  cases hs with
  | introduce hl ht hu => exact h.introduce hl ht hu
  | fold hs ht hc hm hafter => exact h.fold hj hs ht hc hm hafter

theorem Attaches.sound (h : Attaches g js g') (hjs : ∀ j ∈ js, ¬ j.IsLoop) (hg : g.Sound done) :
    g'.Sound (done ++ js) :=
  h.keeps (P := Sound) (fun _ _ _ _ hj hg hs => hg.step hj hs) hjs done hg

theorem Grown.sound {t : TableId} (hg : Grown { root := t } js h left)
    (hjs : ∀ j ∈ js, ¬ j.IsLoop) : ∃ done, h.Sound done ∧ (done ++ left).Perm js := by
  obtain ⟨done, hd, hp, hdone⟩ := hg.exists_done hjs
  exact ⟨done, by simpa using hd.sound hdone (Sound.root t), hp⟩

/-- The tables of a grown group are its root and tables of joins that are not left. -/
theorem Grown.mem_tables {t : TableId} (hg : Grown { root := t } js h left)
    (hjs : ∀ j ∈ js, ¬ j.IsLoop) : ∀ u ∈ h.tables, u = t ∨ ∃ j ∈ js, j.mentions u = true := by
  obtain ⟨done, hd, hp, hdone⟩ := hg.exists_done hjs
  intro u hu
  rcases hd.mem_tables hdone u hu with hu | ⟨j, hj, hm⟩
  · exact .inl (by simpa [tables] using hu)
  · exact .inr ⟨j, hp.subset (List.mem_append_left _ hj), hm⟩

theorem Grown.noLoops (hg : Grown g js h left) (hjs : ∀ j ∈ js, ¬ j.IsLoop) :
    ∀ j ∈ left, ¬ j.IsLoop := fun j hj => hjs j (hg.subset hj)

/-- No join that is left over has a table in the group. -/
theorem Grown.not_mem_tables (hg : Grown g js h left) {t : TableId} (ht : t ∈ h.tables) :
    ∀ j ∈ left, j.mentions t = false := by
  intro j hj
  rw [hg.left_eq, List.mem_filter] at hj
  rw [← Bool.not_eq_true]
  intro hm
  have := touches_iff_mentions.2 ⟨t, ht, hm⟩
  simp [this] at hj

end Group

end QueryDraft.Sql
