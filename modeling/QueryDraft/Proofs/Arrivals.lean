import Mathlib
import QueryDraft.Proofs.Checked
import QueryDraft.Proofs.JoinKinds
import QueryDraft.Proofs.ValidEdits

/-!
# Which join brings a table in

Joins are tried in rounds. Of several joins of the same two tables the first in the list need not be
the first to be attached: when neither of its tables is there yet it is put off to the next round,
and if one of them comes in meanwhile, the next join of the two goes first. So once a table is in a
group, its joins to another table have their turn from the one on that stands behind the join that
brought it in (`IsNext`), and the clause of the other table gets the kind of the first of these
(`Group.ArrivedBy`, `kinds_in_turn`). While a group grows, this is kept together with what is known of
the joins that wait (`Group.Waits`).
-/

namespace QueryDraft

instance Join.decidableLinks (j : Join) (t u : TableId) : Decidable (j.Links t u) :=
  inferInstanceAs (Decidable (_ ∨ _))

namespace Sql

/-! ### The joins of two tables -/

section joinsOf

variable {t u : TableId} {j : Join} {js : List Join} {p : Join → Bool}

/-- The joins of two tables, in the order of a list. -/
def joinsOf (t u : TableId) (js : List Join) : List Join := js.filter fun j => j.Links t u

theorem joinsOf_append (t u : TableId) (js ks : List Join) :
    joinsOf t u (js ++ ks) = joinsOf t u js ++ joinsOf t u ks := List.filter_append ..

theorem joinsOf_cons_of_links (h : j.Links t u) :
    joinsOf t u (j :: js) = j :: joinsOf t u js :=
  List.filter_cons_of_pos (decide_eq_true h)

theorem joinsOf_cons_of_not_links (h : ¬ j.Links t u) : joinsOf t u (j :: js) = joinsOf t u js :=
  List.filter_cons_of_neg (by simpa using h)

theorem joinsOf_append_singleton (h : ¬ j.Links t u) :
    joinsOf t u (js ++ [j]) = joinsOf t u js := by
  rw [joinsOf_append, joinsOf_cons_of_not_links h]
  exact List.append_nil _

theorem joinsOf_filter (h : ∀ j ∈ js, j.Links t u → p j = true) :
    joinsOf t u (js.filter p) = joinsOf t u js := by
  unfold joinsOf
  rw [List.filter_filter]
  refine List.filter_congr fun j hj => ?_
  by_cases hl : j.Links t u
  · simp [hl, h j hj hl]
  · simp [hl]

/-- Of the joins of two tables, the first that stands behind a place in the list or, where none does,
the first of all; `later` is what stands behind it. -/
def IsNext (js behind : List Join) (t u : TableId) (j : Join) (later : List Join) : Prop :=
  joinsOf t u behind = j :: joinsOf t u later ∨
    joinsOf t u behind = [] ∧ joinsOf t u js = j :: joinsOf t u later

end joinsOf

/-! ### Arrivals -/

/-- A table, the join that brought it into a group, and the joins behind that one in the list. -/
structure Arrival where
  table : TableId
  join : Join
  later : List Join

/-- What stands in the list behind the join that brought a table in; for the root, which none did,
that is the whole list. -/
inductive Behind (js : List Join) (root : TableId) (as : List Arrival) : TableId → List Join → Prop
  | root : Behind js root as root js
  | arrival {a : Arrival} (ha : a ∈ as) : Behind js root as a.table a.later

/-- Each table comes in by the join whose turn it is among those of it and a table that is there. -/
inductive InTurn (js : List Join) (root : TableId) : List Arrival → Prop
  | nil : InTurn js root []
  | snoc {as : List Arrival} {a : Arrival} {t : TableId} {behind : List Join}
    (has : InTurn js root as) (ht : Behind js root as t behind) (hlinks : a.join.Links t a.table)
    (hplace : ∃ earlier, js = earlier ++ a.join :: a.later)
    (hnext : IsNext js behind t a.table a.join a.later) : InTurn js root (as ++ [a])

/-- The clause has the table, and its join's kind and condition. -/
structure Clause.Shows (c : Clause) (a : Arrival) : Prop where
  table : c.table = a.table
  kind : c.kind = Group.kindFor a.join a.table
  condition : c.conditions.head? = some (.ofJoin a.join)

theorem Clause.Shows.withJoin {c : Clause} {a : Arrival} (h : c.Shows a) (j : Join) :
    (c.withJoin j).Shows a where
  table := h.table
  kind := h.kind
  condition := by rw [Clause.conditions_withJoin, List.head?_append, h.condition, Option.some_or]

theorem map_table_of_shows {cs : List Clause} {as : List Arrival}
    (h : List.Forall₂ Clause.Shows cs as) : as.map Arrival.table = cs.map Clause.table := by
  induction h with
  | nil => rfl
  | cons hca _ ih => rw [List.map_cons, List.map_cons, ih, hca.table]

theorem shows_withJoin {before after : List Clause} {c : Clause} {as : List Arrival} (j : Join)
    (h : List.Forall₂ Clause.Shows (before ++ c :: after) as) :
    List.Forall₂ Clause.Shows (before ++ c.withJoin j :: after) as := by
  induction before generalizing as with
  | nil =>
    cases h with
    | cons hca has => exact .cons (hca.withJoin j) has
  | cons b before ih =>
    cases h with
    | cons hba has => exact .cons hba (ih has)

theorem Behind.of_append_singleton {js behind : List Join} {root t : TableId} {as : List Arrival}
    {a : Arrival} (h : Behind js root (as ++ [a]) t behind) :
    Behind js root as t behind ∨ (t = a.table ∧ behind = a.later) := by
  cases h with
  | root => exact .inl .root
  | arrival hb =>
    rcases List.mem_append.1 hb with hb | hb
    · exact .inl (.arrival hb)
    · rw [List.mem_singleton.1 hb]
      exact .inr ⟨rfl, rfl⟩

namespace Group

variable {g g' : Group} {j : Join} {js left rest : List Join} {as : List Arrival} {t u : TableId}
  {behind later : List Join} {p : Join → Bool}

/-- The arrivals show in the clauses, one in each, and came in turn. -/
structure ArrivedBy (js : List Join) (g : Group) (as : List Arrival) : Prop where
  shows : List.Forall₂ Clause.Shows g.clauses as
  inTurn : InTurn js g.root as
  /-- Each table was brought in by its join when the joins were attached one after the other. -/
  broughtIn : ∃ done, Attaches { root := g.root } done g ∧
    ∀ a ∈ as, BringsIn g.root done a.join a.table

namespace ArrivedBy

theorem root (js : List Join) (t : TableId) : ArrivedBy js { root := t } [] :=
  ⟨.nil, .nil, [], .nil, by simp⟩

theorem exists_behind (h : ArrivedBy js g as) (ht : t ∈ g.tables) :
    ∃ behind, Behind js g.root as t behind := by
  rw [tables, ← map_table_of_shows h.shows, List.mem_cons, List.mem_map] at ht
  rcases ht with rfl | ⟨a, ha, rfl⟩
  · exact ⟨js, .root⟩
  · exact ⟨a.later, .arrival ha⟩

theorem mem_of_behind (h : ArrivedBy js g as) (hb : Behind js g.root as t behind) :
    t ∈ g.tables := by
  rw [tables, ← map_table_of_shows h.shows]
  cases hb with
  | root => exact List.mem_cons_self
  | arrival ha => exact List.mem_cons_of_mem _ (List.mem_map_of_mem ha)

/-- What has been brought in was so when a further join is attached. -/
theorem broughtIn_append (h : ArrivedBy js g as) (hj : g.attach? j = some g')
    (hroot : g'.root = g.root) : ∃ done, Attaches { root := g.root } done g ∧
      Attaches { root := g'.root } (done ++ [j]) g' ∧
        ∀ a ∈ as, BringsIn g'.root (done ++ [j]) a.join a.table := by
  obtain ⟨done, hdone, hbrought⟩ := h.broughtIn
  rw [hroot]
  exact ⟨done, hdone, hdone.append (.cons hj .nil), fun a ha => (hbrought a ha).append [j]⟩

theorem fold (h : ArrivedBy js g as) (hj : g.attach? j = some g') (hroot : g'.root = g.root)
    {before after : List Clause} {c : Clause} (hc : g.clauses = before ++ c :: after)
    (hc' : g'.clauses = before ++ c.withJoin j :: after) : ArrivedBy js g' as where
  shows := hc' ▸ shows_withJoin j (hc ▸ h.shows)
  inTurn := hroot ▸ h.inTurn
  broughtIn := by
    obtain ⟨done, -, hdone, hbrought⟩ := h.broughtIn_append hj hroot
    exact ⟨done ++ [j], hdone, hbrought⟩

theorem introduce (h : ArrivedBy js g as) (hu : u ∉ g.tables)
    (hj : g.attach? j = some (g.introduce u (kindFor j u) (.ofJoin j)))
    (ht : Behind js g.root as t behind) (hlinks : j.Links t u)
    (hplace : ∃ earlier, js = earlier ++ j :: later) (hnext : IsNext js behind t u j later) :
    ArrivedBy js (g.introduce u (kindFor j u) (.ofJoin j)) (as ++ [⟨u, j, later⟩]) where
  shows := List.rel_append h.shows (.cons ⟨rfl, rfl, rfl⟩ .nil)
  inTurn := .snoc h.inTurn ht hlinks hplace hnext
  broughtIn := by
    obtain ⟨done, hg, hdone, hbrought⟩ := h.broughtIn_append hj rfl
    refine ⟨done ++ [j], hdone, List.forall_mem_append.2 ⟨hbrought, ?_⟩⟩
    exact List.forall_mem_singleton.2 ⟨done, [], g, _, rfl, hg, hj, hu, by simp⟩

end ArrivedBy

/-! ### Joins that wait -/

/-- Both tables of the join are in the group. -/
def holds (g : Group) (j : Join) : Bool := j.source.table ∈ g.tables && j.target.table ∈ g.tables

theorem holds_eq_true_iff :
    g.holds j = true ↔ j.source.table ∈ g.tables ∧ j.target.table ∈ g.tables := by
  simp [holds]

theorem holds_eq_false_of_mentions (hm : j.mentions t = true) (ht : t ∉ g.tables) :
    g.holds j = false := by
  rw [← Bool.not_eq_true, holds_eq_true_iff]
  rcases Join.mentions_iff.1 hm with rfl | rfl
  · exact fun h => ht h.1
  · exact fun h => ht h.2

theorem holds_eq_false_of_links (hl : j.Links t u) (hu : u ∉ g.tables) : g.holds j = false :=
  holds_eq_false_of_mentions hl.symm.mentions hu

theorem touches_of_links (hl : j.Links t u) (ht : t ∈ g.tables) : g.touches j = true :=
  touches_iff_mentions.2 ⟨t, ht, hl.mentions⟩

theorem touches_of_holds (h : g.holds j = true) : g.touches j = true :=
  touches_iff.2 (.inl (holds_eq_true_iff.1 h).1)

theorem holds_mono (h : g.tables ⊆ g'.tables) (hj : g.holds j = true) : g'.holds j = true := by
  rw [holds_eq_true_iff] at hj ⊢
  exact ⟨h hj.1, h hj.2⟩

/-- Lists that agree but for joins that the group holds and joins that do not pass have the same joins
of a new table and one whose joins with it pass. -/
theorem joinsOf_eq_of_filter {ks : List Join} (hu : u ∉ g.tables)
    (heq : ks.filter (!g.holds ·) = js.filter fun k => !g.holds k && p k)
    (hp : ∀ k ∈ js, k.Links t u → p k = true) : joinsOf t u ks = joinsOf t u js := by
  have hout (k : Join) (hl : k.Links t u) : (!g.holds k) = true := by
    rw [holds_eq_false_of_links hl hu, Bool.not_false]
  rw [← joinsOf_filter fun k _ hl => hout k hl, heq]
  refine joinsOf_filter fun k hk hl => ?_
  rw [hout k hl, hp k hk hl, Bool.and_true]

/-- A group on the way: of the joins that wait, `left` have been tried in this round and `rest` have
not. Every join of the list that passes `p` waits, but for some that the group holds. So those of a
table that is there and one that is not have their turn where `rest` begins: it begins with what is
behind the join that brought the first table in or, if that is nothing, comes round to the front. -/
structure Waits (js : List Join) (p : Join → Bool) (g : Group) (as : List Arrival)
    (left rest : List Join) : Prop where
  arrived : ArrivedBy js g as
  mine : ∀ k ∈ js, g.touches k = true → p k = true
  waiting : (left ++ rest).filter (!g.holds ·) = js.filter fun k => !g.holds k && p k
  next : ∀ t u behind, Behind js g.root as t behind → u ∉ g.tables →
    joinsOf t u rest = joinsOf t u behind ∨ joinsOf t u behind = [] ∧ joinsOf t u left = []

/-- Joins that share a table pass together. -/
def Closed (js : List Join) (p : Join → Bool) : Prop :=
  ∀ j ∈ js, ∀ k ∈ js, ∀ t, p j = true → j.mentions t = true → k.mentions t = true → p k = true

namespace Waits

/-- The joins of a table that is there and one that is not are all waiting. -/
theorem joinsOf_eq (h : Waits js p g as left rest) (ht : t ∈ g.tables) (hu : u ∉ g.tables) :
    joinsOf t u (left ++ rest) = joinsOf t u js :=
  joinsOf_eq_of_filter hu h.waiting fun k hk hl => h.mine k hk (touches_of_links hl ht)

theorem start (hmine : ∀ k ∈ js, k.mentions t = true → p k = true) :
    Waits js p { root := t } [] [] (js.filter p) where
  arrived := .root js t
  mine := fun k hk ht => by
    obtain ⟨u, hu, hmentions⟩ := touches_iff_mentions.1 ht
    rw [tables, List.map_nil, List.mem_singleton] at hu
    subst hu
    exact hmine k hk hmentions
  waiting := by rw [List.nil_append, List.filter_filter]
  next := fun t' u behind hb _ => by
    cases hb with
    | root => exact .inl (joinsOf_filter fun k hk hl => hmine k hk hl.mentions)
    | arrival ha => cases ha

/-- A join that cannot be attached waits on. -/
theorem wait (h : Waits js p g as left (j :: rest)) (hj : g.attach? j = none) :
    Waits js p g as (left ++ [j]) rest where
  arrived := h.arrived
  mine := h.mine
  waiting := by rw [List.append_assoc, List.singleton_append, h.waiting]
  next := fun t u behind hb hu => by
    have hnot : ¬ j.Links t u := fun hl => by
      have htouch := touches_of_links hl (h.arrived.mem_of_behind hb)
      rw [attach?_eq_none_iff.1 hj] at htouch
      cases htouch
    have hold := h.next t u behind hb hu
    rw [joinsOf_cons_of_not_links hnot] at hold
    rwa [joinsOf_append_singleton hnot]

/-- A round is over: what is left is tried from the front. -/
theorem again (h : Waits js p g as left []) : Waits js p g as [] left where
  arrived := h.arrived
  mine := h.mine
  waiting := by rw [List.nil_append, ← h.waiting, List.append_nil]
  next := fun t u behind hb hu => by
    have hnone : joinsOf t u behind = [] := by
      rcases h.next t u behind hb hu with hrest | ⟨hnone, -⟩
      · exact hrest.symm
      · exact hnone
    exact .inr ⟨hnone, rfl⟩

/-- Where in the list the join stands that is tried. -/
theorem exists_place (h : Waits js p g as left (j :: rest)) (hj : g.holds j = false) :
    p j = true ∧ ∃ earlier later, js = earlier ++ j :: later ∧
      rest.filter (!g.holds ·) = later.filter fun k => !g.holds k && p k := by
  have hwaiting := h.waiting
  rw [List.filter_append, List.filter_cons_of_pos (by rw [hj, Bool.not_false])] at hwaiting
  obtain ⟨front, back, hjs, -, hback⟩ := List.filter_eq_append_iff.1 hwaiting.symm
  obtain ⟨between, later, rfl, -, hp, hlater⟩ := List.filter_eq_cons_iff.1 hback
  rw [Bool.and_eq_true] at hp
  exact ⟨hp.2, front ++ between, later, by rw [hjs, List.append_assoc], hlater.symm⟩

/-- The joins that wait when one of them has been attached. -/
theorem waiting_of_step (h : Waits js p g as left (j :: rest)) (hs : Step g j g') :
    (left ++ rest).filter (!g'.holds ·) = js.filter fun k => !g'.holds k && p k := by
  have hheld : g'.holds j = true := holds_eq_true_iff.2 hs.ends
  have hmono (k : Join) : (!g'.holds k) = (!g'.holds k && !g.holds k) := by
    cases hk : g.holds k with
    | false => simp
    | true => simp [holds_mono hs.subset hk]
  calc (left ++ rest).filter (!g'.holds ·)
      = (left ++ j :: rest).filter (!g'.holds ·) := by simp [List.filter_append, hheld]
    _ = ((left ++ j :: rest).filter (!g.holds ·)).filter (!g'.holds ·) := by
        rw [List.filter_filter]
        exact List.filter_congr fun k _ => hmono k
    _ = js.filter fun k => !g'.holds k && p k := by
        rw [h.waiting, List.filter_filter]
        refine List.filter_congr fun k _ => ?_
        rw [← Bool.and_assoc, ← hmono]

/-- A table that comes in is one of a join that passes, and so do all its joins. -/
theorem mine_of_step (h : Waits js p g as left (j :: rest)) (hp : Closed js p) (hs : Step g j g') :
    ∀ k ∈ js, g'.touches k = true → p k = true := by
  intro k hk htouches
  obtain ⟨t, ht, hm⟩ := touches_iff_mentions.1 htouches
  by_cases hold : t ∈ g.tables
  · exact h.mine k hk (touches_iff_mentions.2 ⟨t, hold, hm⟩)
  rcases hs.tables_eq with heq | ⟨u, hju, -, heq⟩
  · exact absurd (heq ▸ ht) hold
  · obtain rfl : t = u := by simpa [heq, hold] using ht
    obtain ⟨hpj, earlier, later, rfl, -⟩ := h.exists_place (holds_eq_false_of_mentions hju hold)
    exact hp j List.mem_append_cons_self k hk t hpj hju hm

/-- Attaching a join takes nothing away from the others of a table that was there. -/
theorem next_of_step (h : Waits js p g as left (j :: rest)) (hs : Step g j g')
    (hb : Behind js g.root as t behind) (hu : u ∉ g'.tables) :
    joinsOf t u rest = joinsOf t u behind ∨ joinsOf t u behind = [] ∧ joinsOf t u left = [] := by
  have hnot : ¬ j.Links t u := fun hl => by
    have hheld := holds_eq_true_iff.2 hs.ends
    rw [holds_eq_false_of_links hl hu] at hheld
    cases hheld
  have hold := h.next t u behind hb fun hu' => hu (hs.subset hu')
  rwa [joinsOf_cons_of_not_links hnot] at hold

/-- Behind the join that is tried, the list has those joins of its tables and a new one that have
still to be tried. -/
theorem joinsOf_later (hp : Closed js p) (hj : j ∈ js ∧ p j = true) (hlater : later ⊆ js)
    (heq : rest.filter (!g.holds ·) = later.filter fun k => !g.holds k && p k)
    (ht : j.mentions t = true) (hu : u ∉ g.tables) : joinsOf t u rest = joinsOf t u later :=
  joinsOf_eq_of_filter hu heq fun k hk hl => hp j hj.1 k (hlater hk) t hj.2 ht hl.mentions

/-- A join that brings a table in was next: those of its tables that are behind the join of the table
that was there have their turn first, else all of them from the front. -/
theorem isNext (h : Waits js p g as left (j :: rest)) (hb : Behind js g.root as t behind)
    (hu : u ∉ g.tables) (hl : j.Links t u) (hlater : joinsOf t u rest = joinsOf t u later) :
    IsNext js behind t u j later := by
  have ht := h.arrived.mem_of_behind hb
  rcases h.next t u behind hb hu with hrest | ⟨hnone, hleft⟩
  · exact .inl (by rw [← hrest, joinsOf_cons_of_links hl, hlater])
  · refine .inr ⟨hnone, ?_⟩
    rw [← h.joinsOf_eq ht hu, joinsOf_append, hleft, joinsOf_cons_of_links hl, hlater,
      List.nil_append]

/-- Attaching a join puts it into a clause that is there or lets a table come in. -/
theorem attach (h : Waits js p g as left (j :: rest)) (hp : Closed js p) (hloop : ¬ j.IsLoop)
    (hj : g.attach? j = some g') : ∃ as', Waits js p g' as' left rest := by
  have hs := attach?_step hloop hj
  have hmine := h.mine_of_step hp hs
  have hwaiting := h.waiting_of_step hs
  have hnext (t u : TableId) (behind : List Join) (hb : Behind js g.root as t behind)
      (hu : u ∉ g'.tables) := h.next_of_step hs hb hu
  have hsub := hs.subset
  cases hs with
  | fold _ _ hc _ _ => exact ⟨as, h.arrived.fold hj rfl hc rfl, hmine, hwaiting, hnext⟩
  | @introduce u t hl hu ht =>
    obtain ⟨hpj, earlier, later, hjs, hrest⟩ :=
      h.exists_place (holds_eq_false_of_mentions hl.mentions hu)
    obtain ⟨behind, hb⟩ := h.arrived.exists_behind ht
    have hmem : j ∈ js ∧ p j = true := ⟨hjs ▸ List.mem_append_cons_self, hpj⟩
    have hsuffix : later ⊆ js := fun k hk => by simp [hjs, hk]
    have hlater : ∀ s v, j.mentions s = true → v ∉ g.tables → joinsOf s v rest = joinsOf s v later :=
      fun s v hs hv => joinsOf_later hp hmem hsuffix hrest hs hv
    have hfirst := h.isNext hb hu hl.symm (hlater t u hl.symm.mentions hu)
    refine ⟨as ++ [⟨u, j, later⟩], h.arrived.introduce hu hj hb hl.symm ⟨earlier, hjs⟩ hfirst, hmine,
      hwaiting, fun s v behind' hb' hv => ?_⟩
    rcases hb'.of_append_singleton with hb' | ⟨rfl, rfl⟩
    · exact hnext s v behind' hb' hv
    · exact .inl (hlater _ v hl.mentions fun hv' => hv (hsub hv'))

/-! ### Rounds -/

theorem sweep (h : Waits js p g as left rest) (hp : Closed js p) (hrest : ∀ j ∈ rest, ¬ j.IsLoop) :
    ∃ as', Waits js p (sweep g rest).1 as' (left ++ (sweep g rest).2) [] := by
  induction rest generalizing g as left with
  | nil => exact ⟨as, by simpa [Group.sweep] using h⟩
  | cons j rest ih =>
    rw [List.forall_mem_cons] at hrest
    cases hj : g.attach? j with
    | some g' =>
      obtain ⟨as', h'⟩ := h.attach hp hrest.1 hj
      simpa only [Group.sweep, hj] using ih h' hrest.2
    | none =>
      simpa [Group.sweep, hj] using ih (h.wait hj) hrest.2

end Waits

theorem waits_grow (h : ∃ as, Waits js p g as [] rest) (hp : Closed js p)
    (hrest : ∀ j ∈ rest, ¬ j.IsLoop) : ∃ as, Waits js p (grow g rest).1 as [] (grow g rest).2 := by
  fun_induction grow g rest with
  | case1 g rest swept hlt ih =>
    obtain ⟨as, h⟩ := h
    obtain ⟨as', h'⟩ := h.sweep hp hrest
    exact ih ⟨as', h'.again⟩ fun j hj => hrest j ((sweep_sublist g rest).subset hj)
  | case2 g rest swept hlt =>
    obtain ⟨as, h⟩ := h
    obtain ⟨as', h'⟩ := h.sweep hp hrest
    exact ⟨as', h'.again⟩

/-! ### Groups side by side -/

namespace Waits

theorem holds_of_touches (h : Waits js p g as [] rest) (hstuck : ∀ k ∈ rest, g.touches k = false)
    {k : Join} (hk : k ∈ js) (ht : g.touches k = true) : g.holds k = true := by
  by_contra hout
  rw [Bool.not_eq_true] at hout
  have hmem : k ∈ ([] ++ rest).filter (!g.holds ·) := by
    rw [h.waiting, List.mem_filter, hout, h.mine k hk ht]
    exact ⟨hk, rfl⟩
  have hnot := hstuck k (List.mem_of_mem_filter hmem)
  rw [ht] at hnot
  cases hnot

/-- When nothing can be attached any more, the joins that wait are those that touch no table. -/
theorem rest_eq (h : Waits js p g as [] rest) (hstuck : ∀ k ∈ rest, g.touches k = false) :
    rest = js.filter fun k => p k && !g.touches k := by
  have hout (k : Join) (hk : g.touches k = false) : g.holds k = false := by
    rw [← Bool.not_eq_true] at hk ⊢
    exact fun hheld => hk (touches_of_holds hheld)
  calc rest
      = rest.filter (!g.holds ·) :=
        (List.filter_eq_self.2 fun k hk => by rw [hout k (hstuck k hk), Bool.not_false]).symm
    _ = js.filter fun k => !g.holds k && p k := h.waiting
    _ = js.filter fun k => p k && !g.touches k := by
        refine List.filter_congr fun k hk => ?_
        cases ht : g.touches k with
        | true => simp [h.holds_of_touches hstuck hk ht]
        | false => simp [hout k ht]

theorem closed (h : Waits js p g as [] rest) (hp : Closed js p)
    (hstuck : ∀ k ∈ rest, g.touches k = false) : Closed js fun k => p k && !g.touches k := by
  intro j hj k hk t hpj hjt hkt
  rw [Bool.and_eq_true, Bool.not_eq_true'] at hpj ⊢
  refine ⟨hp j hj k hk t hpj.1 hjt hkt, ?_⟩
  by_contra htouches
  rw [Bool.not_eq_false] at htouches
  have hheld := h.holds_of_touches hstuck hk htouches
  by_cases ht : t ∈ g.tables
  · rw [touches_iff_mentions.2 ⟨t, ht, hjt⟩] at hpj
    cases hpj.2
  · rw [holds_eq_false_of_mentions hkt ht] at hheld
    cases hheld

end Waits

theorem exists_arrivedBy_of_mem_spread (h : ∃ p as, Closed js p ∧ Waits js p g as [] rest)
    (hrest : ∀ j ∈ rest, ¬ j.IsLoop) : ∀ g' ∈ spread g rest, ∃ as, g'.ArrivedBy js as := by
  fun_induction spread g rest with
  | case1 g rest grown hgrow =>
    obtain ⟨p, as, hp, h⟩ := h
    have hgrown := waits_grow ⟨as, h⟩ hp hrest
    rw [hgrow] at hgrown
    obtain ⟨as', h' : Waits js p grown as' [] []⟩ := hgrown
    exact List.forall_mem_singleton.2 ⟨as', h'.arrived⟩
  | case2 g rest grown j left hgrow ih =>
    obtain ⟨p, as, hp, h⟩ := h
    have hgrown := waits_grow ⟨as, h⟩ hp hrest
    rw [hgrow] at hgrown
    obtain ⟨as', h' : Waits js p grown as' [] (j :: left)⟩ := hgrown
    have hloops : ∀ k ∈ j :: left, ¬ k.IsLoop := fun k hk =>
      hrest k ((grow_sublist g rest).subset (by rwa [hgrow]))
    have hstuck : ∀ k ∈ j :: left, grown.touches k = false := fun k hk =>
      attach?_eq_none_iff.1 (by simpa [hgrow] using grow_stuck g rest k (by rwa [hgrow]))
    -- the joins left over are those that pass now, and the next group starts with the first
    have hleft := h'.rest_eq hstuck
    have hp' := h'.closed hp hstuck
    have hfirst : j ∈ js.filter fun k => p k && !grown.touches k := hleft ▸ List.mem_cons_self
    obtain ⟨hj, hpj⟩ := List.mem_filter.1 hfirst
    have hstart := Waits.start (t := j.source.table) fun k hk hm =>
      hp' j hj k hk _ hpj j.links_ends.mentions hm
    rw [← hleft] at hstart
    have hloop := hloops j List.mem_cons_self
    obtain ⟨as₁, hopen⟩ := hstart.attach hp' hloop (attach?_opening hloop)
    have hothers := ih ⟨_, as₁, hp', hopen⟩ fun k hk => hloops k (List.mem_cons_of_mem j hk)
    exact List.forall_mem_cons.2 ⟨⟨as', h'.arrived⟩, hothers⟩

end Group

theorem exists_arrivedBy {base : TableId} {ts : List TableId} {js : List Join}
    (hjs : ∀ j ∈ js, ¬ j.IsLoop) : ∀ g ∈ groups base ts js, ∃ as, g.ArrivedBy js as := by
  have hstart : Group.Waits js (fun _ => true) { root := base } [] [] (js.filter fun _ => true) :=
    .start fun _ _ _ => rfl
  rw [List.filter_true] at hstart
  have hspread := Group.exists_arrivedBy_of_mem_spread
    ⟨_, _, fun _ _ _ _ _ _ _ _ => rfl, hstart⟩ hjs
  rw [← groups_distinct, groups, addLoners_eq _ (nodup_distinct ts)]
  refine List.forall_mem_append.2 ⟨hspread, List.forall_mem_map.2 fun t _ => ?_⟩
  exact ⟨[], .root js t⟩

/-! ### The kind of a clause -/

section

variable {js : List Join} {root t u : TableId} {as : List Arrival} {a : Arrival}
  {behind behind' : List Join}

theorem IsNext.head? {j : Join} {later : List Join} (h : IsNext js behind t u j later) :
    (joinsOf t u behind ++ joinsOf t u js).head? = some j := by
  rcases h with h | ⟨hnone, h⟩
  · rw [h, List.cons_append, List.head?_cons]
  · rw [hnone, h, List.nil_append, List.head?_cons]

theorem Behind.append (h : Behind js root as t behind) (a : Arrival) :
    Behind js root (as ++ [a]) t behind := by
  cases h with
  | root => exact .root
  | arrival ha => exact .arrival (List.mem_append_left _ ha)

/-- A table comes in once. -/
theorem Behind.unique (hnodup : (root :: as.map Arrival.table).Nodup)
    (h : Behind js root as t behind) (h' : Behind js root as t behind') : behind = behind' := by
  obtain ⟨hroot, hnodup⟩ := List.nodup_cons.1 hnodup
  have hne (b : Arrival) (hb : b ∈ as) : b.table ≠ root := fun heq =>
    hroot (heq ▸ List.mem_map_of_mem hb)
  generalize htable : t = u at h'
  cases h with
  | root =>
    cases h' with
    | root => rfl
    | arrival hb => exact absurd htable.symm (hne _ hb)
  | arrival ha =>
    cases h' with
    | root => exact absurd htable (hne _ ha)
    | arrival hb => rw [List.inj_on_of_nodup_map hnodup ha hb htable]

theorem InTurn.exists_behind (h : InTurn js root as) (ha : a ∈ as) :
    ∃ t behind, Behind js root as t behind ∧ a.join.Links t a.table ∧ a.join ∈ js ∧
      (joinsOf t a.table behind ++ joinsOf t a.table js).head? = some a.join := by
  induction h with
  | nil => cases ha
  | snoc _ ht hlinks hplace hnext ih =>
    rcases List.mem_append.1 ha with ha | ha
    · obtain ⟨t, behind, hb, h⟩ := ih ha
      exact ⟨t, behind, hb.append _, h⟩
    · obtain rfl := List.mem_singleton.1 ha
      obtain ⟨earlier, rfl⟩ := hplace
      exact ⟨_, _, ht.append _, hlinks, List.mem_append_cons_self, hnext.head?⟩

/-- A join of a table and another is of no third. -/
theorem eq_of_links {j : Join} (hloop : ¬ j.IsLoop) (h : j.Links t u) {s : TableId}
    (hs : j.Links s u) : s = t := by
  rcases h with ⟨rfl, rfl⟩ | ⟨rfl, rfl⟩ <;> rcases hs with ⟨rfl, heq⟩ | ⟨heq, rfl⟩
  · rfl
  · exact absurd heq hloop
  · exact absurd heq.symm hloop
  · rfl

end

/-- In a draft whose references are in order, a clause that a join of its table and another brought
in has the kind of the first of their joins behind the one that brought the other table in; if there
is none behind that, or none brought it in, of the first of their joins in the list. The query has
these clauses. -/
theorem kinds_in_turn {catalog : Catalog} {d : Draft} {base : TableId}
    (hbase : d.base? = some base) (hvalid : d.referenceFaults catalog = []) :
    (∀ g ∈ groups base d.tables d.joins, ∃ as, g.ArrivedBy d.joins as ∧
      ∀ a ∈ as, ∀ t, a.join.Links t a.table → ∃ behind,
        (∀ js, Behind d.joins g.root as t js ↔ js = behind) ∧
        (joinsOf t a.table behind ++ joinsOf t a.table d.joins).head? = some a.join) ∧
    ∀ c, d.compile catalog = .ok c → ∃ items conditions,
      c = d.assembled base (groups base d.tables d.joins) items conditions := by
  have hjs := Draft.noLoops_of_valid hvalid
  constructor
  · intro g hg
    obtain ⟨as, has⟩ := exists_arrivedBy hjs g hg
    refine ⟨as, has, fun a ha t ht => ?_⟩
    obtain ⟨s, behind, hb, hlinks, hmem, hfirst⟩ := has.inTurn.exists_behind ha
    obtain rfl := eq_of_links (hjs a.join hmem) ht hlinks
    have hnodup : (g.root :: as.map Arrival.table).Nodup := by
      rw [map_table_of_shows has.shows]
      rw [← groups_distinct] at hg
      obtain ⟨_, hsound, -⟩ := (allSound_groups base (nodup_distinct d.tables) hjs).sound g hg
      exact hsound.nodup
    refine ⟨behind, fun js => ⟨fun h => h.unique hnodup hb, ?_⟩, hfirst⟩
    rintro rfl
    exact hb
  · intro c hc
    obtain ⟨_, _, items, conditions, _, _, rfl⟩ := Draft.parts_of_compile hbase hc
    exact ⟨items, conditions, rfl⟩

end Sql

namespace Sample

open Sql

theorem kinds_in_turn_sales :
    sales.base? = some customers ∧ sales.referenceFaults .multiSchema = [] ∧
    (∀ g ∈ groups customers sales.tables sales.joins, ∃ as, g.ArrivedBy sales.joins as ∧
      ∀ a ∈ as, ∀ t, a.join.Links t a.table → ∃ behind,
        (∀ js, Behind sales.joins g.root as t js ↔ js = behind) ∧
        (joinsOf t a.table behind ++ joinsOf t a.table sales.joins).head? = some a.join) ∧
    ∀ c, sales.compile .multiSchema = .ok c → ∃ items conditions,
      c = sales.assembled customers (groups customers sales.tables sales.joins) items conditions :=
  ⟨base?_sales, referenceFaults_sales, kinds_in_turn base?_sales referenceFaults_sales⟩

def itemsOfOrder : Join := ⟨"a", userOrders.column "id", .left, orderItems.column "order_id"⟩

def ordersOfUser : Join := ⟨"b", users.column "id", .inner, userOrders.column "user_id"⟩

def itemsOfAmount : Join :=
  ⟨"c", userOrders.column "total_amount", .inner, orderItems.column "price"⟩

/-- The first join of orders and items comes before the one that brings the orders in. -/
def putOff : Draft where
  tables := [users, userOrders, orderItems]
  joins := [itemsOfOrder, ordersOfUser, itemsOfAmount]

/-- The clause of the items has the kind of the second join of orders and items. -/
theorem kinds_in_turn_putOff : putOff.base? = some users ∧ putOff.referenceFaults .shop = [] ∧
    joinsOf userOrders orderItems putOff.joins = [itemsOfOrder, itemsOfAmount] ∧
    ∃ g ∈ groups users putOff.tables putOff.joins, ∃ c ∈ g.clauses, c.table = orderItems ∧
      c.conditions.head? = some (.ofJoin itemsOfAmount) ∧
        c.kind ≠ Group.kindFor itemsOfOrder c.table := by
  have hvalid : putOff.referenceFaults .shop = [] := by rfl
  let items : Clause := ⟨.inner, orderItems, [.ofJoin itemsOfAmount, .ofJoin itemsOfOrder]⟩
  let grown : Group := {
    root := users
    clauses := [⟨.inner, userOrders, [.ofJoin ordersOfUser]⟩, items]
    disagreements := [⟨itemsOfOrder, .left, .inner, orderItems⟩] }
  have hchecked : groupsChecked users putOff.tables putOff.joins = .ok [grown] := by rfl
  rw [groupsChecked_eq (Draft.noLoops_of_valid hvalid)] at hchecked
  refine ⟨rfl, hvalid, by decide, grown, ?_, items, ?_, rfl, rfl, by decide⟩
  · rw [Except.ok.inj hchecked]
    exact List.mem_singleton_self grown
  · exact List.mem_cons_of_mem _ (List.mem_singleton_self items)

end Sample

end QueryDraft
