import Mathlib
import QueryDraft.Proofs.Compile
import QueryDraft.Proofs.WellFormed

/-!
# The groups of a query are the connected components of its joins

`joinGraph ts js` has the tables for vertices and the joins for edges. Two tables are in one group
exactly if they are connected (`sameGroup_iff_reachable`): a group is connected by its own joins, and
a join that is left over touches no finished group. The groups that joins open stand in the order of
their earliest joins, which also name their roots (`Opened.openers`).
-/

namespace QueryDraft.Sql

/-- The tables of a query, connected by its joins. -/
def joinGraph (ts : List TableId) (js : List Join) : SimpleGraph {t // t ∈ ts} :=
  .fromRel fun t u => Linked js t u

variable {gs gs' : List Group} {base t u : TableId} {ts : List TableId} {js ks : List Join}

theorem joinGraph_adj {t u : {t // t ∈ ts}} :
    (joinGraph ts js).Adj t u ↔ t ≠ u ∧ Linked js t u := by
  rw [joinGraph, SimpleGraph.fromRel_adj]
  exact and_congr_right fun _ => ⟨fun h => h.elim id Linked.symm, .inl⟩

theorem joinGraph_congr (h : ∀ j, j ∈ js ↔ j ∈ ks) : joinGraph ts js = joinGraph ts ks := by
  ext t u
  simp only [joinGraph_adj, Linked, h]

/-- A path of joins between selected tables, as a path of the graph. -/
theorem reachable_of_linked (hmem : ∀ j ∈ js, j.source.table ∈ ts ∧ j.target.table ∈ ts)
    (ht : t ∈ ts) (h : Relation.ReflTransGen (Linked js) t u) :
    ∃ hu : u ∈ ts, (joinGraph ts js).Reachable ⟨t, ht⟩ ⟨u, hu⟩ := by
  induction h with
  | refl => exact ⟨ht, .refl _⟩
  | @tail u v _ hl ih =>
    obtain ⟨hu, ih⟩ := ih
    have hv : v ∈ ts := by
      obtain ⟨j, hj, ⟨_, rfl⟩ | ⟨rfl, _⟩⟩ := hl
      exacts [(hmem j hj).2, (hmem j hj).1]
    by_cases huv : u = v
    · exact ⟨hv, huv ▸ ih⟩
    · exact ⟨hv, ih.trans (SimpleGraph.Adj.reachable (joinGraph_adj.2 ⟨by simpa using huv, hl⟩))⟩

/-- Two tables are in one group. -/
def SameGroup (gs : List Group) (t u : TableId) : Prop :=
  ∃ g ∈ gs, t ∈ g.tables ∧ u ∈ g.tables

theorem AllSound.sameGroup_iff_reachable (h : AllSound gs js)
    (hmem : ∀ j ∈ js, j.source.table ∈ ts ∧ j.target.table ∈ ts)
    (hts : ∀ t, t ∈ gs.flatMap Group.tables ↔ t ∈ ts) (t u : {t // t ∈ ts}) :
    SameGroup gs t u ↔ (joinGraph ts js).Reachable t u := by
  constructor
  · rintro ⟨g, hg, htg, hug⟩
    obtain ⟨done, hd, hsub⟩ := h.sound g hg
    have hroot : g.root ∈ ts := (hts _).1 (List.mem_flatMap.2 ⟨g, hg, List.mem_cons_self ..⟩)
    have path {v : TableId} (hv : v ∈ g.tables) : ∃ hv : v ∈ ts,
        (joinGraph ts js).Reachable ⟨g.root, hroot⟩ ⟨v, hv⟩ :=
      reachable_of_linked hmem hroot
        (linked_path_mono hsub (hd.linked v hv))
    obtain ⟨_, hrt⟩ := path htg
    obtain ⟨_, hru⟩ := path hug
    exact hrt.symm.trans hru
  · rintro ⟨w⟩
    induction w with
    | @nil v =>
      obtain ⟨g, hg, hv⟩ := List.mem_flatMap.1 ((hts v).2 v.2)
      exact ⟨g, hg, hv, hv⟩
    | @cons v w _ hadj _ ih =>
      -- the join between `v` and `w` is in the group of `w`, as no table is in two groups
      obtain ⟨g, hg, hw, hx⟩ := ih
      obtain ⟨_, j, hj, hl⟩ := joinGraph_adj.1 hadj
      obtain ⟨g', hg', hs', ht'⟩ := h.exists_group hj
      have hvw : v.1 ∈ g'.tables ∧ w.1 ∈ g'.tables := by
        rcases hl with ⟨hv, hw⟩ | ⟨hw, hv⟩ <;> rw [← hv, ← hw]
        exacts [⟨hs', ht'⟩, ⟨ht', hs'⟩]
      obtain rfl := h.eq_of_mem hg hg' hw hvw.2
      exact ⟨g, hg, hvw.1, hx⟩

/-- There are as many groups as components. -/
theorem AllSound.card_components (h : AllSound gs js)
    (hmem : ∀ j ∈ js, j.source.table ∈ ts ∧ j.target.table ∈ ts)
    (hts : ∀ t, t ∈ gs.flatMap Group.tables ↔ t ∈ ts) :
    Nat.card (joinGraph ts js).ConnectedComponent = gs.length := by
  have hroot (i : Fin gs.length) : gs[i].root ∈ ts :=
    (hts _).1 (List.mem_flatMap.2 ⟨gs[i], List.getElem_mem _, List.mem_cons_self ..⟩)
  have hbij : Function.Bijective fun i : Fin gs.length =>
      (joinGraph ts js).connectedComponentMk ⟨gs[i].root, hroot i⟩ := by
    constructor
    · intro i k hik
      obtain ⟨g, hg, hi, hk⟩ := (h.sameGroup_iff_reachable hmem hts _ _).2
        (SimpleGraph.ConnectedComponent.exact hik)
      have hi' := h.eq_of_mem hg (List.getElem_mem i.2) hi (List.mem_cons_self ..)
      have hk' := h.eq_of_mem hg (List.getElem_mem k.2) hk (List.mem_cons_self ..)
      exact Fin.ext ((h.nodup.getElem_inj_iff).1 (hi'.symm.trans hk'))
    · refine SimpleGraph.ConnectedComponent.ind fun v => ?_
      obtain ⟨g, hg, hv⟩ := List.mem_flatMap.1 ((hts v).2 v.2)
      obtain ⟨i, hi, rfl⟩ := List.getElem_of_mem hg
      refine ⟨⟨i, hi⟩, SimpleGraph.ConnectedComponent.sound ?_⟩
      exact (h.sameGroup_iff_reachable hmem hts _ _).1 ⟨gs[i], hg, List.mem_cons_self .., hv⟩
  rw [← Nat.card_eq_of_bijective _ hbij, Nat.card_fin]

/-! ### Roots and order -/

theorem findIdx_lt_of_filter {α : Type} {p q r : α → Bool} {l : List α}
    (hq : ∀ a ∈ l, q a = true → p a = true) (hr : ∀ a ∈ l, r a = true → p a = true)
    (h : (l.filter p).findIdx q < (l.filter p).findIdx r) : l.findIdx q < l.findIdx r := by
  induction l with
  | nil => simp at h
  | cons a l ih =>
    rw [List.forall_mem_cons] at hq hr
    by_cases ha : p a = true
    · rw [List.filter_cons_of_pos ha, List.findIdx_cons, List.findIdx_cons] at h
      rw [List.findIdx_cons, List.findIdx_cons]
      cases hqa : q a <;> cases hra : r a <;> simp only [hqa, hra, cond_true, cond_false] at h ⊢
      · exact Nat.succ_lt_succ (ih hq.2 hr.2 (Nat.lt_of_succ_lt_succ h))
      · omega
      · omega
      · omega
    · have hqa : q a = false := by rw [← Bool.not_eq_true]; exact fun h => ha (hq.1 h)
      have hra : r a = false := by rw [← Bool.not_eq_true]; exact fun h => ha (hr.1 h)
      rw [List.filter_cons_of_neg ha] at h
      simp only [List.findIdx_cons, hqa, hra, cond_false]
      exact Nat.succ_lt_succ (ih hq.2 hr.2 h)

/-- Every group has for its root the first table of the earliest join that touches it, and the
groups stand in the order of these joins. -/
structure Openers (js : List Join) (gs : List Group) : Prop where
  root : ∀ g ∈ gs, ∃ j, js.find? g.touches = some j ∧ g.root = j.source.table
  order : gs.Pairwise fun g h => js.findIdx g.touches < js.findIdx h.touches

namespace Group

variable {g h h' : Group} {left : List Join}

/-- A join with one table in a grown group has both tables there. -/
theorem Grown.ends_of_touches (hg : Grown g js h left) (hjs : ∀ j ∈ js, ¬ j.IsLoop) {j : Join}
    (hj : j ∈ js) (ht : h.touches j = true) : j.source.table ∈ h.tables ∧ j.target.table ∈ h.tables := by
  obtain ⟨done, hd, hp, hdone⟩ := hg.exists_done hjs
  rcases List.mem_append.1 (hp.mem_iff.2 hj) with hj | hj
  · exact hd.ends hdone j hj
  · rw [hg.left_eq, List.mem_filter] at hj
    simp [ht] at hj

theorem Grown.not_touches (hg : Grown g js h left) (hjs : ∀ j ∈ js, ¬ j.IsLoop)
    (hdisj : h.tables.Disjoint h'.tables) : ∀ j ∈ js, h'.touches j = true → (!h.touches j) = true := by
  intro j hj ht'
  rw [Bool.not_eq_true', ← Bool.not_eq_true]
  intro ht
  obtain ⟨hs, ht⟩ := hg.ends_of_touches hjs hj ht
  rcases touches_iff.1 ht' with hs' | ht'
  exacts [hdisj hs hs', hdisj ht ht']

/-- What opens groups among the joins left over does so among all joins. -/
theorem Grown.openers (hg : Grown g js h left) (hjs : ∀ j ∈ js, ¬ j.IsLoop)
    (hdisj : ∀ h' ∈ gs, h.tables.Disjoint h'.tables) (ho : Openers left gs) : Openers js gs := by
  rw [hg.left_eq] at ho
  refine ⟨fun h' hh' => ?_, ho.order.imp_of_mem fun {h₁ h₂} hh₁ hh₂ hlt => ?_⟩
  · obtain ⟨j, hj, hroot⟩ := ho.root h' hh'
    refine ⟨j, ?_, hroot⟩
    rw [List.find?_filter] at hj
    rw [← hj]
    refine List.find?_congr fun k hk => ?_
    cases ht : h'.touches k with
    | false => simp
    | true => simp [hg.not_touches hjs (hdisj h' hh') k hk ht]
  · exact findIdx_lt_of_filter (hg.not_touches hjs (hdisj h₁ hh₁)) (hg.not_touches hjs (hdisj h₂ hh₂)) hlt

theorem Opened.openers (ho : Opened js gs) (hjs : ∀ j ∈ js, ¬ j.IsLoop) : Openers js gs := by
  induction ho with
  | nil => exact ⟨by simp, .nil⟩
  | @cons j js left h gs hg ho ih =>
    have hdisj := hg.disjoint hjs ho
    have hrest := hg.openers hjs hdisj (ih (hg.noLoops hjs))
    have hroot : h.root = j.source.table := hg.root_eq hjs
    have ht : h.touches j = true :=
      touches_iff.2 (.inl (hroot ▸ List.mem_cons_self ..))
    refine ⟨List.forall_mem_cons.2 ⟨⟨j, by simp [ht], hroot⟩, hrest.root⟩,
      List.pairwise_cons.2 ⟨fun h' hh' => ?_, hrest.order⟩⟩
    have ht' : h'.touches j = false := by
      rw [← Bool.not_eq_true]
      intro ht'
      simpa [ht] using hg.not_touches hjs (hdisj h' hh') j (by simp) ht'
    simp [List.findIdx_cons, ht, ht']

end Group

/-! ### All groups -/

theorem spread_openers (base : TableId) (hjs : ∀ j ∈ js, ¬ j.IsLoop) :
    ∃ first opened, Group.spread { root := base } js = first :: opened ∧ first.root = base ∧
      Openers js opened := by
  obtain ⟨g, left, gs, hs, hg, ho⟩ := Group.opened_spread { root := base } js hjs
  refine ⟨g, gs, hs, hg.root_eq hjs, ?_⟩
  exact hg.openers hjs (hg.disjoint hjs ho) (ho.openers (hg.noLoops hjs))

/-- The groups of a query: that of the base table, those that joins open in order, and the tables
that no join mentions. -/
theorem groups_eq_append (hts : ts.Nodup) (hjs : ∀ j ∈ js, ¬ j.IsLoop) :
    ∃ first opened, first.root = base ∧ Openers js opened ∧ groups base ts js =
      first :: opened ++
        (ts.filter fun t => t ≠ base ∧ ∀ j ∈ js, j.mentions t = false).map ({ root := · }) := by
  obtain ⟨first, opened, hs, hroot, ho⟩ := spread_openers base hjs
  refine ⟨first, opened, hroot, ho, ?_⟩
  rw [groups, addLoners_eq _ hts, ← hs]
  congr 2
  refine List.filter_congr fun t _ => ?_
  have hmem := mem_tables_spread base hjs t
  rw [Bool.eq_iff_iff, Bool.not_eq_true', ← Bool.not_eq_true, List.any_eq_true, decide_eq_true_iff]
  simp only [decide_eq_true_eq, hmem, not_or, not_exists, not_and, Bool.not_eq_true, ne_eq]

theorem AllSound.nodup_toFinset (h : AllSound gs js) : (gs.map (·.tables.toFinset)).Nodup := by
  refine List.Nodup.map_on (fun g hg g' hg' heq => ?_) h.nodup
  have : g.root ∈ g'.tables.toFinset := by rw [← heq]; simp [Group.tables]
  exact h.eq_of_mem hg hg' (List.mem_cons_self ..) (List.mem_toFinset.1 this)

theorem AllSound.mem_toFinset_of_sameGroup (h : AllSound gs js) (h' : AllSound gs' ks)
    (hiff : ∀ t u, SameGroup gs t u ↔ SameGroup gs' t u) :
    ∀ s ∈ gs.map (·.tables.toFinset), s ∈ gs'.map (·.tables.toFinset) := by
  rw [List.forall_mem_map]
  intro g hg
  have own {t : TableId} (ht : t ∈ g.tables) : SameGroup gs' g.root t :=
    (hiff _ _).1 ⟨g, hg, List.mem_cons_self .., ht⟩
  obtain ⟨g', hg', hr, _⟩ := own (List.mem_cons_self ..)
  refine List.mem_map.2 ⟨g', hg', Finset.ext fun t => ?_⟩
  rw [List.mem_toFinset, List.mem_toFinset]
  constructor
  · intro ht
    obtain ⟨g₁, hg₁, hr₁, ht₁⟩ := (hiff _ _).2 ⟨g', hg', hr, ht⟩
    exact h.eq_of_mem hg₁ hg hr₁ (List.mem_cons_self ..) ▸ ht₁
  · intro ht
    obtain ⟨g₁, hg₁, hr₁, ht₁⟩ := own ht
    exact h'.eq_of_mem hg₁ hg' hr₁ hr ▸ ht₁

/-- The groups part their tables in one way only, given which tables belong together. -/
theorem AllSound.perm_of_sameGroup (h : AllSound gs js) (h' : AllSound gs' ks)
    (hiff : ∀ t u, SameGroup gs t u ↔ SameGroup gs' t u) :
    (gs.map (·.tables.toFinset)).Perm (gs'.map (·.tables.toFinset)) := by
  refine (List.perm_ext_iff_of_nodup h.nodup_toFinset h'.nodup_toFinset).2 fun s => ⟨?_, ?_⟩
  · exact h.mem_toFinset_of_sameGroup h' hiff s
  · exact h'.mem_toFinset_of_sameGroup h (fun t u => (hiff t u).symm) s

theorem length_flatMap_tables (gs : List Group) :
    (gs.flatMap Group.tables).length = (gs.flatMap Group.clauses).length + gs.length := by
  induction gs with
  | nil => rfl
  | cons g gs ih =>
    simp only [List.flatMap_cons, List.length_append, ih, List.length_cons, Group.tables,
      List.length_map]
    omega

/-- What a list of groups must be to show the components of some tables and joins. -/
structure Components (base : TableId) (ts : List TableId) (js : List Join) (gs : List Group) :
    Prop where
  tables : (gs.flatMap Group.tables).Perm ts
  /-- Two tables are in one group exactly if a path of joins connects them. -/
  connected : ∀ t u : {t // t ∈ ts}, SameGroup gs t u ↔ (joinGraph ts js).Reachable t u
  card : Nat.card (joinGraph ts js).ConnectedComponent = gs.length
  /-- The base table's group comes first, then those that joins open, then tables on their own. -/
  order : ∃ first opened, first.root = base ∧ Openers js opened ∧ gs =
    first :: opened ++
      (ts.filter fun t => t ≠ base ∧ ∀ j ∈ js, j.mentions t = false).map ({ root := · })

theorem components_of_joins (hts : ts.Nodup) (hjs : ∀ j ∈ js, ¬ j.IsLoop) (hbase : base ∈ ts)
    (hmem : ∀ j ∈ js, j.source.table ∈ ts ∧ j.target.table ∈ ts) :
    Components base ts js (groups base ts js) where
  tables := perm_tables_groups hts hjs hbase hmem
  connected := (allSound_groups base hts hjs).sameGroup_iff_reachable hmem
    (mem_tables_groups hts hjs hbase hmem)
  card := (allSound_groups base hts hjs).card_components hmem (mem_tables_groups hts hjs hbase hmem)
  order := groups_eq_append hts hjs

/-- The order of the joins does not matter to which tables are in one group. -/
theorem perm_partition (hts : ts.Nodup) (hjs : ∀ j ∈ js, ¬ j.IsLoop) (hbase : base ∈ ts)
    (hmem : ∀ j ∈ js, j.source.table ∈ ts ∧ j.target.table ∈ ts) (hperm : ks.Perm js) :
    ((groups base ts ks).map (·.tables.toFinset)).Perm
      ((groups base ts js).map (·.tables.toFinset)) := by
  have hks : ∀ j ∈ ks, ¬ j.IsLoop := fun j hj => hjs j (hperm.subset hj)
  have hmem' : ∀ j ∈ ks, j.source.table ∈ ts ∧ j.target.table ∈ ts := fun j hj =>
    hmem j (hperm.subset hj)
  have hc := components_of_joins hts hks hbase hmem'
  have hc' := components_of_joins hts hjs hbase hmem
  have hgraph : joinGraph ts ks = joinGraph ts js := joinGraph_congr fun _ => hperm.mem_iff
  have same {ks js : List Join} {gs gs' : List Group} (hc : Components base ts ks gs)
      (hc' : Components base ts js gs') (hgraph : joinGraph ts ks = joinGraph ts js) {t u : TableId}
      (hs : SameGroup gs t u) : SameGroup gs' t u := by
    obtain ⟨g, hg, ht, hu⟩ := id hs
    have ht := hc.tables.subset (List.mem_flatMap.2 ⟨g, hg, ht⟩)
    have hu := hc.tables.subset (List.mem_flatMap.2 ⟨g, hg, hu⟩)
    exact (hc'.connected ⟨t, ht⟩ ⟨u, hu⟩).2 (hgraph ▸ (hc.connected ⟨t, ht⟩ ⟨u, hu⟩).1 hs)
  exact (allSound_groups base hts hks).perm_of_sameGroup (allSound_groups base hts hjs) fun t u =>
    ⟨same hc hc' hgraph, same hc' hc hgraph.symm⟩

/-- The groups of a draft whose references are in order are the components of its joins, whatever
the order of the joins, and what is reported about a compiled draft counts them. -/
theorem groups_are_components {catalog : Catalog} {d : Draft} (hbase : d.base? = some base)
    (hts : d.tables.Nodup) (hvalid : d.referenceFaults catalog = []) :
    Components base d.tables d.joins (groups base d.tables d.joins) ∧
      (∀ c, d.compile catalog = .ok c → c.base = base ∧ c.tables.Perm d.tables ∧
        c.tables.head? = some base ∧
        c.joinCount + Nat.card (joinGraph d.tables d.joins).ConnectedComponent = d.tables.length ∧
        c.unjoined = (groups base d.tables d.joins).tail.map Group.root ∧
        c.unjoined.length + 1 = Nat.card (joinGraph d.tables d.joins).ConnectedComponent) ∧
      ∀ js, js.Perm d.joins → ((groups base d.tables js).map (·.tables.toFinset)).Perm
        ((groups base d.tables d.joins).map (·.tables.toFinset)) := by
  have hjs := Draft.noLoops_of_valid hvalid
  have hmem : ∀ j ∈ d.joins, j.source.table ∈ d.tables ∧ j.target.table ∈ d.tables := fun j hj =>
    (Draft.joins_of_valid hvalid j hj).2
  have hbase' : base ∈ d.tables := List.mem_of_mem_head? hbase
  have hc := components_of_joins hts hjs hbase' hmem
  refine ⟨hc, fun c hcomp => ?_, fun js => perm_partition hts hjs hbase' hmem⟩
  obtain ⟨_, _, items, conditions, _, _, rfl⟩ := Draft.parts_of_compile hbase hcomp
  obtain ⟨first, opened, hroot, _, hgs⟩ := hc.order
  have hlen := length_flatMap_tables (groups base d.tables d.joins)
  rw [hc.tables.length_eq] at hlen
  refine ⟨rfl, hc.tables, ?_, ?_, rfl, ?_⟩
  · simp [Draft.assembled, hgs, Group.tables, hroot]
  · rw [hc.card, hlen]
    rfl
  · rw [hc.card]
    simp [Draft.assembled, hgs]

open Sample in
theorem groups_are_components_sales :
    sales.base? = some customers ∧ sales.tables.Nodup ∧ sales.referenceFaults .multiSchema = [] ∧
      Components customers sales.tables sales.joins (groups customers sales.tables sales.joins) ∧
      (∀ c, sales.compile .multiSchema = .ok c → c.base = customers ∧ c.tables.Perm sales.tables ∧
        c.tables.head? = some customers ∧
        c.joinCount + Nat.card (joinGraph sales.tables sales.joins).ConnectedComponent = 4 ∧
        c.unjoined = (groups customers sales.tables sales.joins).tail.map Group.root ∧
        c.unjoined.length + 1 = Nat.card (joinGraph sales.tables sales.joins).ConnectedComponent) ∧
      ∀ js, js.Perm sales.joins → ((groups customers sales.tables js).map (·.tables.toFinset)).Perm
        ((groups customers sales.tables sales.joins).map (·.tables.toFinset)) :=
  ⟨base?_sales, nodup_tables_sales, referenceFaults_sales,
    groups_are_components base?_sales nodup_tables_sales referenceFaults_sales⟩

end QueryDraft.Sql
