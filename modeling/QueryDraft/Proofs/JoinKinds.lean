import Mathlib
import QueryDraft.Proofs.Components
import QueryDraft.Proofs.Edits

/-!
# The kinds of joins

A clause is `Filled` by the join that brought its table in and by those folded into it later.
`Group.FilledBy g done fs` says how the joins `done` fill the clauses of a group. Attaching one more
join keeps it (`FilledBy.attach`), so that the groups of a query are filled by its joins
(`exists_fills`). The warnings are read off this: a join that was folded in is noted exactly if its
kind is not that of its clause, and no warning is left when the joins connect all tables besides.
-/

namespace QueryDraft

/-- The kinds of one join for its two sides. -/
inductive JoinKind.Facing : JoinKind → JoinKind → Prop
  | inner : Facing .inner .inner
  | left : Facing .left .right
  | right : Facing .right .left
  | full : Facing .full .full

theorem JoinKind.facing_iff {k k' : JoinKind} : Facing k k' ↔ k.mirrored = k' := by
  constructor
  · rintro ⟨⟩ <;> rfl
  · rintro rfl
    cases k <;> constructor

/-- The kind of a join as seen from one of its tables: its own if it leads there. -/
inductive Join.SeenAs (j : Join) : TableId → JoinKind → Prop
  | target : SeenAs j j.target.table j.kind
  | source {k : JoinKind} (h : j.kind.Facing k) : SeenAs j j.source.table k

namespace Sql

/-- From a table of the join it is seen as one kind. -/
theorem seenAs_iff {j : Join} {t : TableId} {k : JoinKind} (hj : ¬ j.IsLoop)
    (ht : j.mentions t = true) : j.SeenAs t k ↔ Group.kindFor j t = k := by
  constructor
  · rintro (_ | h)
    · exact Group.kindFor_target j
    · rw [Group.kindFor_source hj, JoinKind.facing_iff.1 h]
  · rintro rfl
    rcases Join.mentions_iff.1 ht with rfl | rfl
    · rw [Group.kindFor_source hj]
      exact .source (JoinKind.facing_iff.2 rfl)
    · rw [Group.kindFor_target]
      exact .target

theorem Clause.mem_notes_iff {c : Clause} {j : Join} {n : Disagreement} : n ∈ c.notes j ↔
    Group.kindFor j c.table ≠ c.kind ∧ n = ⟨j, Group.kindFor j c.table, c.kind, c.table⟩ := by
  unfold notes
  split_ifs with h <;> simp [h]

/-- A clause with its joins: the one that brought its table in, and those folded in later. -/
structure Filled where
  clause : Clause
  first : Join
  folded : List Join := []

namespace Filled

variable {f : Filled} {j : Join}

def joins (f : Filled) : List Join := f.first :: f.folded

/-- What is to be noted about the joins that were folded in. -/
def notes (f : Filled) : List Disagreement := f.folded.flatMap f.clause.notes

def withJoin (f : Filled) (j : Join) : Filled :=
  { f with clause := f.clause.withJoin j, folded := f.folded ++ [j] }

@[simp] theorem joins_withJoin (f : Filled) (j : Join) : (f.withJoin j).joins = f.joins ++ [j] := rfl

theorem notes_withJoin (f : Filled) (j : Join) :
    (f.withJoin j).notes = f.notes ++ f.clause.notes j := by
  have hnotes : (f.clause.withJoin j).notes = f.clause.notes := rfl
  rw [notes, withJoin, hnotes, List.flatMap_append, List.flatMap_singleton, notes]

theorem notes_eq_nil_iff :
    f.notes = [] ↔ ∀ j ∈ f.folded, Group.kindFor j f.clause.table = f.clause.kind := by
  simp [notes, Clause.notes, List.flatMap_eq_nil_iff]

/-- The clause has the conditions of its joins and the kind of the first as seen from the clause's
table. -/
structure Fits (f : Filled) : Prop where
  conditions : f.clause.conditions = f.joins.map fun j => ⟨j.source, j.target⟩
  kind : f.first.SeenAs f.clause.table f.clause.kind
  folded : ∀ j ∈ f.folded, j.mentions f.clause.table = true

theorem Fits.withJoin (h : f.Fits) (hj : j.mentions f.clause.table = true) :
    (f.withJoin j).Fits where
  conditions := by
    rw [joins_withJoin, List.map_append, ← h.conditions]
    rfl
  kind := h.kind
  folded := by
    refine List.forall_mem_append.2 ⟨h.folded, ?_⟩
    rw [List.forall_mem_singleton]
    exact hj

end Filled

/-- What the list of one element gains is gained by all lists together. -/
theorem perm_flatMap_of_append {α β : Type} {p : α → List β} {a b : α} {l : List β}
    (h : p b = p a ++ l) (before after : List α) :
    ((before ++ b :: after).flatMap p).Perm ((before ++ a :: after).flatMap p ++ l) := by
  simp only [List.flatMap_append, List.flatMap_cons, h, List.append_assoc]
  exact (List.perm_append_comm.append_left (p a)).append_left _

namespace Group

variable {g g' h : Group} {j : Join} {js done left : List Join} {fs : List Filled} {t : TableId}

/-- Of the joins `done`, attached one after the other from `root`, this one brings the table in. -/
def BringsIn (root : TableId) (done : List Join) (j : Join) (t : TableId) : Prop :=
  ∃ before after g g', done = before ++ j :: after ∧ Attaches { root } before g ∧
    g.attach? j = some g' ∧ t ∉ g.tables ∧ t ∈ g'.tables

theorem BringsIn.append {root : TableId} (hb : BringsIn root done j t) (ks : List Join) :
    BringsIn root (done ++ ks) j t := by
  obtain ⟨before, after, g, g', rfl, hg, hj, ht⟩ := hb
  exact ⟨before, after ++ ks, g, g', by simp, hg, hj, ht⟩

/-- The group comes about by attaching the joins `done`, each of which is in one of its clauses:
as the one that brought the table in, or folded in, and then noted if it is of another kind. -/
structure FilledBy (g : Group) (done : List Join) (fs : List Filled) : Prop where
  attaches : Attaches { root := g.root } done g
  clauses : fs.map Filled.clause = g.clauses
  joins : (fs.flatMap Filled.joins).Perm done
  fits : ∀ f ∈ fs, f.Fits
  introduced : ∀ f ∈ fs, BringsIn g.root done f.first f.clause.table
  noted : g.disagreements.Perm (fs.flatMap Filled.notes)
  /-- Notes are made in the order in which the joins are attached. -/
  inOrder : (g.disagreements.map Disagreement.join).Sublist done

theorem FilledBy.root (t : TableId) : FilledBy { root := t } [] [] :=
  ⟨.nil, rfl, .nil, by simp, by simp, .nil, .slnil⟩

/-- What is noted about one join names no other. -/
theorem sublist_join_notes (c : Clause) (j : Join) :
    ((c.notes j).map Disagreement.join).Sublist [j] := by
  unfold Clause.notes
  split <;> simp

/-- Attaching one more join opens a clause or puts the join into one that is there. -/
theorem FilledBy.attach (hg : g.FilledBy done fs) (hj : ¬ j.IsLoop) (h : g.attach? j = some g') :
    ∃ fs', g'.FilledBy (done ++ [j]) fs' := by
  have hstep := attach?_step hj h
  have hattaches : Attaches { root := g'.root } (done ++ [j]) g' := by
    rw [hstep.root_eq]
    exact hg.attaches.append (.cons h .nil)
  have old : ∀ f ∈ fs, BringsIn g.root (done ++ [j]) f.first f.clause.table :=
    fun f hf => (hg.introduced f hf).append [j]
  cases hstep with
  | @introduce t u hl ht hu =>
    let new : Filled := { clause := ⟨kindFor j t, t, [.ofJoin j]⟩, first := j }
    have hnew : new.Fits := by
      exact ⟨rfl, (seenAs_iff hj hl.mentions).2 rfl, by simp [new]⟩
    refine ⟨fs ++ [new], hattaches, ?_, ?_, ?_, ?_, ?_, ?_⟩
    · rw [List.map_append, hg.clauses]
      rfl
    · rw [List.flatMap_append]
      exact hg.joins.append_right [j]
    · exact List.forall_mem_append.2 ⟨hg.fits, List.forall_mem_singleton.2 hnew⟩
    · refine List.forall_mem_append.2 ⟨old, List.forall_mem_singleton.2 ?_⟩
      exact ⟨done, [], g, _, rfl, hg.attaches, h, ht, by simp [new]⟩
    · simpa [new, Filled.notes, Group.introduce] using hg.noted
    · exact hg.inOrder.trans (List.sublist_append_left ..)
  | @fold before after c hs ht hc hm hafter =>
    obtain ⟨fb, rest, rfl, rfl, hrest⟩ := List.map_eq_append_iff.1 (hg.clauses.trans hc)
    obtain ⟨f, fa, rfl, rfl, rfl⟩ := List.map_eq_cons_iff.1 hrest
    have hfits := List.forall_mem_append.1 hg.fits
    have hold := List.forall_mem_append.1 old
    rw [List.forall_mem_cons] at hfits hold
    refine ⟨fb ++ f.withJoin j :: fa, hattaches, ?_, ?_, ?_, ?_, ?_, ?_⟩
    · rw [List.map_append, List.map_cons]
      rfl
    · exact (perm_flatMap_of_append (f.joins_withJoin j) fb fa).trans (hg.joins.append_right [j])
    · refine List.forall_mem_append.2 ⟨hfits.1, ?_⟩
      exact List.forall_mem_cons.2 ⟨hfits.2.1.withJoin hm, hfits.2.2⟩
    · exact List.forall_mem_append.2 ⟨hold.1, List.forall_mem_cons.2 hold.2⟩
    · exact (hg.noted.append_right _).trans
        (perm_flatMap_of_append (f.notes_withJoin j) fb fa).symm
    · rw [List.map_append]
      exact hg.inOrder.append (sublist_join_notes f.clause j)

theorem Attaches.filledBy (h : Attaches g js g') (hjs : ∀ j ∈ js, ¬ j.IsLoop)
    (hg : g.FilledBy done fs) : ∃ fs', g'.FilledBy (done ++ js) fs' := by
  induction h generalizing done fs with
  | nil => exact ⟨fs, by simpa using hg⟩
  | @cons g g₁ g₂ j js hj _ ih =>
    rw [List.forall_mem_cons] at hjs
    obtain ⟨fs₁, hg₁⟩ := hg.attach hjs.1 hj
    obtain ⟨fs₂, hg₂⟩ := ih hjs.2 hg₁
    exact ⟨fs₂, by simpa using hg₂⟩

theorem Grown.filledBy (hg : Grown { root := t } js h left) (hjs : ∀ j ∈ js, ¬ j.IsLoop) :
    ∃ done fs, h.FilledBy done fs ∧ (done ++ left).Perm js := by
  obtain ⟨done, hd, hp, hdone⟩ := hg.exists_done hjs
  obtain ⟨fs, hfs⟩ := hd.filledBy hdone (FilledBy.root t)
  exact ⟨done, fs, by simpa using hfs, hp⟩

end Group

/-- The joins `js` fill the clauses of the groups; `fss` has the joins of every clause. -/
structure Fills (js : List Join) (gs : List Group) (fss : List (List Filled)) : Prop where
  filled : List.Forall₂ (fun g fs => ∃ done, g.FilledBy done fs) gs fss
  /-- Every join is in one clause. -/
  joins : (fss.flatten.flatMap Filled.joins).Perm js

namespace Fills

variable {g : Group} {gs : List Group} {js left : List Join} {fss : List (List Filled)} {t : TableId}

theorem cons (hg : Group.Grown { root := t } js g left) (hjs : ∀ j ∈ js, ¬ j.IsLoop)
    (h : Fills left gs fss) : ∃ fs, Fills js (g :: gs) (fs :: fss) := by
  obtain ⟨done, fs, hfs, hp⟩ := hg.filledBy hjs
  refine ⟨fs, .cons ⟨done, hfs⟩ h.filled, ?_⟩
  rw [List.flatten_cons, List.flatMap_append]
  exact (hfs.joins.append h.joins).trans hp

/-- Tables on their own have no clauses. -/
theorem append_loners (h : Fills js gs fss) (us : List TableId) :
    Fills js (gs ++ us.map ({ root := · })) (fss ++ us.map fun _ => []) := by
  refine ⟨List.rel_append h.filled ?_, ?_⟩
  · rw [List.forall₂_map_left_iff, List.forall₂_map_right_iff]
    exact List.forall₂_same.2 fun t _ => ⟨[], .root t⟩
  · have hnone : (us.map fun _ => ([] : List Filled)).flatten = [] := by
      simp
    rw [List.flatten_append, hnone, List.append_nil]
    exact h.joins

theorem noted (h : Fills js gs fss) :
    (gs.flatMap Group.disagreements).Perm (fss.flatten.flatMap Filled.notes) := by
  obtain ⟨hfilled, -⟩ := h
  induction hfilled with
  | nil => exact .nil
  | cons hg _ ih =>
    obtain ⟨done, hg⟩ := hg
    rw [List.flatMap_cons, List.flatten_cons, List.flatMap_append]
    exact hg.noted.append ih

/-- Nothing is noted if every join that was folded in has the kind of its clause. -/
theorem disagreements_eq_nil_iff (h : Fills js gs fss) : gs.flatMap Group.disagreements = [] ↔
    ∀ f ∈ fss.flatten, ∀ j ∈ f.folded, Group.kindFor j f.clause.table = f.clause.kind := by
  simp only [← Filled.notes_eq_nil_iff, ← List.flatMap_eq_nil_iff]
  exact ⟨fun hnil => (hnil ▸ h.noted).nil_eq.symm, fun hnil => (hnil ▸ h.noted).eq_nil⟩

theorem fits (h : Fills js gs fss) : ∀ f ∈ fss.flatten, f.Fits := by
  obtain ⟨hfilled, -⟩ := h
  induction hfilled with
  | nil => simp
  | cons hg _ ih =>
    obtain ⟨done, hg⟩ := hg
    exact List.forall_mem_append.2 ⟨hg.fits, ih⟩

/-- From the table of its clause, a join that was folded in is seen as one kind. -/
theorem seenAs_iff (h : Fills js gs fss) (hjs : ∀ j ∈ js, ¬ j.IsLoop) {f : Filled}
    (hf : f ∈ fss.flatten) {j : Join} (hj : j ∈ f.folded) {k : JoinKind} :
    j.SeenAs f.clause.table k ↔ Group.kindFor j f.clause.table = k := by
  have hmem : j ∈ js :=
    h.joins.subset (List.mem_flatMap.2 ⟨f, hf, List.mem_cons_of_mem f.first hj⟩)
  exact Sql.seenAs_iff (hjs j hmem) ((h.fits f hf).folded j hj)

end Fills

theorem Group.Opened.exists_fills {js : List Join} {gs : List Group} (ho : Opened js gs)
    (hjs : ∀ j ∈ js, ¬ j.IsLoop) : ∃ fss, Fills js gs fss := by
  induction ho with
  | nil => exact ⟨[], .nil, .nil⟩
  | cons hg _ ih =>
    obtain ⟨fss, h⟩ := ih (hg.noLoops hjs)
    obtain ⟨fs, h⟩ := h.cons hg hjs
    exact ⟨fs :: fss, h⟩

/-! ### All groups of a query -/

theorem addLoners_append (gs : List Group) (ts us : List TableId) :
    addLoners gs (ts ++ us) = addLoners (addLoners gs ts) us := List.foldl_append

/-- Once added, a table is in one of the groups. -/
theorem any_addLoners (gs : List Group) {ts : List TableId} {t : TableId} (ht : t ∈ ts) :
    (addLoners gs ts).any (t ∈ ·.tables) = true := by
  induction ts using List.reverseRecOn with
  | nil => simp at ht
  | append_singleton ts u ih =>
    rw [addLoners_append, addLoners_cons]
    rcases List.mem_append.1 ht with ht | ht
    · by_cases hu : (addLoners gs ts).any (u ∈ ·.tables) = true
      · rw [if_pos hu]
        exact ih ht
      · rw [if_neg hu]
        exact List.any_append ▸ Bool.or_eq_true_iff.2 (.inl (ih ht))
    · obtain rfl := List.mem_singleton.1 ht
      by_cases hu : (addLoners gs ts).any (t ∈ ·.tables) = true
      · rw [if_pos hu]
        exact hu
      · rw [if_neg hu]
        simp [addLoners, Group.tables]

/-- A table that comes up again is added once. -/
theorem addLoners_distinct (gs : List Group) (ts : List TableId) :
    addLoners gs (distinct ts) = addLoners gs ts := by
  induction ts using List.reverseRecOn with
  | nil => rfl
  | append_singleton ts t ih =>
    have hdistinct : distinct (ts ++ [t]) = insertLast (distinct ts) t := by
      simp [distinct, List.foldl_append]
    rw [hdistinct, insertLast]
    by_cases ht : t ∈ distinct ts
    · have hany := any_addLoners gs (mem_distinct.1 ht)
      rw [if_pos ht, ih, addLoners_append, addLoners_cons, if_pos hany]
      rfl
    · rw [if_neg ht, addLoners_append, ih, ← addLoners_append]

theorem connected_iff_card {V : Type} {G : SimpleGraph V} :
    G.Connected ↔ Nat.card G.ConnectedComponent = 1 := by
  rw [Nat.card_eq_one_iff_unique]
  constructor
  · intro h
    exact ⟨h.preconnected.subsingleton_connectedComponent, h.nonempty.map G.connectedComponentMk⟩
  · rintro ⟨hsub, ⟨c⟩⟩
    have : Nonempty V := c.exists_rep.nonempty
    exact ⟨fun v w => SimpleGraph.ConnectedComponent.exact (Subsingleton.elim _ _)⟩

section groups

variable {base : TableId} {ts : List TableId} {js : List Join}

theorem groups_distinct : groups base (distinct ts) js = groups base ts js := addLoners_distinct ..

theorem exists_fills (hjs : ∀ j ∈ js, ¬ j.IsLoop) : ∃ fss, Fills js (groups base ts js) fss := by
  obtain ⟨g, left, gs, hs, hg, ho⟩ := Group.opened_spread { root := base } js hjs
  obtain ⟨fss, h⟩ := ho.exists_fills (hg.noLoops hjs)
  obtain ⟨fs, h⟩ := h.cons hg hjs
  rw [← groups_distinct, groups, addLoners_eq _ (nodup_distinct ts), hs]
  exact ⟨_, h.append_loners _⟩

/-- There is no group but the first exactly if the joins connect all tables. -/
theorem tail_groups_eq_nil_iff (hjs : ∀ j ∈ js, ¬ j.IsLoop) (hbase : base ∈ ts)
    (hmem : ∀ j ∈ js, j.source.table ∈ ts ∧ j.target.table ∈ ts) :
    (groups base ts js).tail = [] ↔ (joinGraph ts js).Connected := by
  have hsound : AllSound (groups base ts js) js := by
    rw [← groups_distinct]
    exact allSound_groups base (nodup_distinct ts) hjs
  have htables (t : TableId) : t ∈ (groups base ts js).flatMap Group.tables ↔ t ∈ ts := by
    rw [← groups_distinct, mem_tables_groups (nodup_distinct ts) hjs (mem_distinct.2 hbase) ?_,
      mem_distinct]
    simpa only [mem_distinct] using hmem
  have hne : groups base ts js ≠ [] := fun hnil => by
    simpa [hnil] using (htables base).2 hbase
  rw [connected_iff_card, hsound.card_components hmem htables, ← List.length_eq_zero_iff,
    List.length_tail]
  have := List.length_pos_iff.2 hne
  omega

end groups

/-- The warnings about the groups of a query: the joins that disagree with their clauses, group by
group, and the groups that are crossed with the first. A join disagrees if it was folded in and is,
as seen from the clause's table, of another kind than the clause. There are no warnings exactly if the
joins connect all tables and none disagrees. -/
structure Warned (base : TableId) (ts : List TableId) (js : List Join) (gs : List Group)
    (fss : List (List Filled)) (ws : List Warning) : Prop where
  eq : ws = gs.flatMap (·.disagreements.map .disagreement) ++ gs.tail.map (.crossed ·.tables base)
  disagreement_iff : ∀ n, .disagreement n ∈ ws ↔ ∃ f ∈ fss.flatten, ∃ j ∈ f.folded, ∃ k,
    j.SeenAs f.clause.table k ∧ k ≠ f.clause.kind ∧ n = ⟨j, k, f.clause.kind, f.clause.table⟩
  eq_nil_iff : ws = [] ↔ (joinGraph ts js).Connected ∧
    ∀ f ∈ fss.flatten, ∀ j ∈ f.folded, j.SeenAs f.clause.table f.clause.kind

theorem mem_warnings_iff {base : TableId} {gs : List Group} {n : Disagreement} :
    .disagreement n ∈ warnings base gs ↔ n ∈ gs.flatMap Group.disagreements := by
  have hcrossed : Warning.disagreement n ∉ gs.tail.map (.crossed ·.tables base) := by
    rw [List.mem_map]
    rintro ⟨_, _, h⟩
    cases h
  rw [warnings, List.mem_append, or_iff_left hcrossed]
  simp [List.mem_flatMap]

theorem Fills.warned {base : TableId} {ts : List TableId} {js : List Join}
    {fss : List (List Filled)} (h : Fills js (groups base ts js) fss)
    (hjs : ∀ j ∈ js, ¬ j.IsLoop) (hbase : base ∈ ts)
    (hmem : ∀ j ∈ js, j.source.table ∈ ts ∧ j.target.table ∈ ts) :
    Warned base ts js (groups base ts js) fss (warnings base (groups base ts js)) where
  eq := rfl
  disagreement_iff := by
    intro n
    have hnoted : .disagreement n ∈ warnings base (groups base ts js) ↔
        ∃ f ∈ fss.flatten, ∃ j ∈ f.folded, n ∈ f.clause.notes j := by
      rw [mem_warnings_iff, h.noted.mem_iff, List.mem_flatMap]
      simp only [Filled.notes, List.mem_flatMap]
    rw [hnoted]
    refine exists_congr fun f => and_congr_right fun hf => exists_congr fun j =>
      and_congr_right fun hj => ?_
    simp only [h.seenAs_iff hjs hf hj, Clause.mem_notes_iff, exists_eq_left']
  eq_nil_iff := by
    have hmap (gs : List Group) :
        gs.flatMap (·.disagreements.map Warning.disagreement) = [] ↔
          gs.flatMap Group.disagreements = [] := by
      simp [List.flatMap_eq_nil_iff]
    have hseen : (∀ f ∈ fss.flatten, ∀ j ∈ f.folded, j.SeenAs f.clause.table f.clause.kind) ↔
        ∀ f ∈ fss.flatten, ∀ j ∈ f.folded, Group.kindFor j f.clause.table = f.clause.kind :=
      forall₂_congr fun f hf => forall₂_congr fun j hj => h.seenAs_iff hjs hf hj
    rw [hseen, warnings, List.append_eq_nil_iff, List.map_eq_nil_iff, hmap,
      h.disagreements_eq_nil_iff, tail_groups_eq_nil_iff hjs hbase hmem, and_comm]

/-- Kinds of joins are kept or a warning says so: in a draft whose references are in order, every
join is in one clause, which it brought in with its own kind or was folded into; and the query has a
warning for each join that was folded into a clause of another kind. -/
theorem kinds_kept {catalog : Catalog} {d : Draft} {base : TableId} (hbase : d.base? = some base)
    (hvalid : d.referenceFaults catalog = []) :
    ∃ fss, Fills d.joins (groups base d.tables d.joins) fss ∧ ∀ c, d.compile catalog = .ok c →
      (∃ items conditions,
        c = d.assembled base (groups base d.tables d.joins) items conditions) ∧
      Warned base d.tables d.joins (groups base d.tables d.joins) fss c.warnings := by
  have hjs := Draft.noLoops_of_valid hvalid
  have hmem : ∀ j ∈ d.joins, j.source.table ∈ d.tables ∧ j.target.table ∈ d.tables := fun j hj =>
    (Draft.joins_of_valid hvalid j hj).2
  obtain ⟨fss, h⟩ : ∃ fss, Fills d.joins (groups base d.tables d.joins) fss := exists_fills hjs
  refine ⟨fss, h, fun c hc => ?_⟩
  obtain ⟨_, _, items, conditions, _, _, rfl⟩ := Draft.parts_of_compile hbase hc
  exact ⟨⟨items, conditions, rfl⟩, h.warned hjs (List.mem_of_mem_head? hbase) hmem⟩

open Sample in
theorem kinds_kept_sales :
    sales.base? = some customers ∧ sales.referenceFaults .multiSchema = [] ∧
      ∃ fss, Fills sales.joins (groups customers sales.tables sales.joins) fss ∧
        ∀ c, sales.compile .multiSchema = .ok c →
          (∃ items conditions,
            c = sales.assembled customers (groups customers sales.tables sales.joins) items
              conditions) ∧
          Warned customers sales.tables sales.joins (groups customers sales.tables sales.joins) fss
            c.warnings :=
  ⟨base?_sales, referenceFaults_sales, kinds_kept base?_sales referenceFaults_sales⟩

end Sql

end QueryDraft
