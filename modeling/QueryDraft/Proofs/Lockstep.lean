import Mathlib
import QueryDraft.Proofs.Attach

/-!
# Two runs that differ in one join

The second run writes one join from its other side. While that join waits, the runs have one group
between them; once it is attached, the groups differ in one condition (`Group.Turned`); if it opens
a group, they differ in root and first clause as well (`Group.Reopened`). Either difference is kept
by every step (`Turned.attach?`, `Reopened.attach?`), so the runs stay abreast
(`Abreast.spread`).
-/

namespace QueryDraft

/-! ### Lists that differ in one place -/

/-- An element of the list is changed to a related one. -/
inductive DifferOnce {α : Type} (R : α → α → Prop) : List α → List α → Prop
  | head {a b : α} {l : List α} (h : R a b) : DifferOnce R (a :: l) (b :: l)
  | tail {a : α} {l l' : List α} (h : DifferOnce R l l') : DifferOnce R (a :: l) (a :: l')

namespace DifferOnce

variable {α : Type} {R : α → α → Prop} {l l' : List α}

theorem of_modify {a : α} {i : Nat} (f : α → α) (hi : l[i]? = some a) :
    DifferOnce (fun b c => b = a ∧ c = f b) l (l.modify i f) := by
  induction l generalizing i with
  | nil => simp at hi
  | cons b l ih =>
    cases i with
    | zero =>
      rw [List.modify_zero_cons]
      exact .head ⟨Option.some.inj hi, rfl⟩
    | succ i =>
      rw [List.modify_succ_cons]
      exact .tail (ih hi)

theorem append_left (before : List α) (h : DifferOnce R l l') :
    DifferOnce R (before ++ l) (before ++ l') := by
  induction before with
  | nil => exact h
  | cons a before ih => exact .tail ih

theorem append_right (h : DifferOnce R l l') (after : List α) :
    DifferOnce R (l ++ after) (l' ++ after) := by
  induction h with
  | head h => exact .head h
  | tail _ ih => exact .tail ih

theorem map_eq {β : Type} {f : α → β} (hf : ∀ a b, R a b → f a = f b) (h : DifferOnce R l l') :
    l.map f = l'.map f := by
  induction h with
  | head h => rw [List.map_cons, List.map_cons, hf _ _ h]
  | tail _ ih => rw [List.map_cons, List.map_cons, ih]

theorem findIdx_eq {q : α → Bool} (hq : ∀ a b, R a b → q a = q b) (h : DifferOnce R l l') :
    l.findIdx q = l'.findIdx q := by
  have := congrArg (List.findIdx id) (h.map_eq hq)
  rwa [List.findIdx_map, List.findIdx_map] at this

/-- What holds of equal and of related elements holds place by place. -/
theorem forall₂ {P : α → α → Prop} (h : DifferOnce R l l')
    (hP : ∀ a ∈ l, ∀ b ∈ l', a = b ∨ R a b → P a b) : List.Forall₂ P l l' := by
  induction h with
  | @head a b l h =>
    refine .cons (hP a (by simp) b (by simp) (.inr h)) (List.forall₂_same.2 fun c hc => ?_)
    exact hP c (by simp [hc]) c (by simp [hc]) (.inl rfl)
  | @tail a l l' _ ih =>
    refine .cons (hP a (by simp) a (by simp) (.inl rfl)) (ih fun b hb c hc => ?_)
    exact hP b (by simp [hb]) c (by simp [hc])

theorem length_eq (h : DifferOnce R l l') : l.length = l'.length := by
  simpa using congrArg List.length (h.map_eq (f := fun _ => ()) fun _ _ _ => rfl)

/-- The same place of both lists may be changed further. -/
theorem split {f : α → α} (hf : ∀ a b, R a b → R (f a) (f b)) {before after : List α} {c : α}
    (h : DifferOnce R (before ++ c :: after) l') :
    ∃ before' c' after', l' = before' ++ c' :: after' ∧ before.length = before'.length ∧
      DifferOnce R (before ++ f c :: after) (before' ++ f c' :: after') := by
  induction before generalizing l' with
  | nil =>
    cases h with
    | @head _ b _ h => exact ⟨[], b, after, rfl, rfl, .head (hf c b h)⟩
    | @tail _ _ l' h => exact ⟨[], c, l', rfl, rfl, .tail h⟩
  | cons a before ih =>
    cases h with
    | @head _ b _ h => exact ⟨b :: before, c, after, rfl, rfl, .head h⟩
    | tail h =>
      obtain ⟨before', c', after', rfl, hlen, hd⟩ := ih h
      exact ⟨a :: before', c', after', rfl, by simp [hlen], .tail hd⟩

end DifferOnce

/-! ### A join from its other side -/

namespace Join

variable {j : Join}

@[simp] theorem mentions_mirrored (j : Join) : j.mirrored.mentions = j.mentions :=
  funext fun _ => Bool.or_comm ..

@[simp] theorem isLoop_mirrored : j.mirrored.IsLoop ↔ j.IsLoop := eq_comm

end Join

namespace Sql

/-- A condition of the clause has its sides exchanged. -/
structure Clause.Turned (e : Equality) (c c' : Clause) : Prop where
  kind : c.kind = c'.kind
  table : c.table = c'.table
  conditions : DifferOnce (fun a b => a = e ∧ b = e.mirrored) c.conditions c'.conditions

theorem Clause.Turned.withJoin {e : Equality} {c c' : Clause} (h : c.Turned e c') (j : Join) :
    (c.withJoin j).Turned e (c'.withJoin j) :=
  ⟨h.kind, h.table, h.conditions.append_right _⟩

namespace Group

variable {g g' h : Group} {j k : Join} {js js' : List Join} {e : Equality} {t : TableId}

@[simp] theorem touches_mirrored (g : Group) (j : Join) : g.touches j.mirrored = g.touches j :=
  Bool.or_comm ..

/-- From either side a join looks the same to a table that it brings in. -/
theorem kindFor_mirrored (hj : ¬ j.IsLoop) (ht : j.mentions t = true) :
    kindFor j.mirrored t = kindFor j t := by
  have hj' : ¬ j.mirrored.IsLoop := fun h => hj (Join.isLoop_mirrored.1 h)
  rcases Join.mentions_iff.1 ht with rfl | rfl
  · rw [kindFor_source hj]
    exact kindFor_target j.mirrored
  · rw [kindFor_target]
    exact (kindFor_source hj').trans (JoinKind.mirrored_mirrored _)

/-- A condition of the group has its sides exchanged. -/
structure Turned (e : Equality) (g g' : Group) : Prop where
  root : g.root = g'.root
  clauses : DifferOnce (Clause.Turned e) g.clauses g'.clauses

theorem Turned.tables_eq (h : Turned e g g') : g.tables = g'.tables := by
  rw [tables, tables, h.root, h.clauses.map_eq fun _ _ h => h.table]

/-- The group was opened by a join; what joined it later is `es` and `cs`. -/
structure OpenedBy (j : Join) (es : List Equality) (cs : List Clause) (g : Group) : Prop where
  root : g.root = j.source.table
  clauses : g.clauses = ⟨j.kind, j.target.table, .ofJoin j :: es⟩ :: cs

/-- The groups were opened by one join from its two sides, and are alike in what joined later: roots
and the tables of the first clauses have traded places. -/
def Reopened (j : Join) (g g' : Group) : Prop :=
  ∃ es cs, g.OpenedBy j es cs ∧ g'.OpenedBy j.mirrored es cs

theorem Reopened.tables_perm (h : Reopened j g g') : g.tables.Perm g'.tables := by
  obtain ⟨es, cs, h, h'⟩ := h
  rw [tables, tables, h.root, h.clauses, h'.root, h'.clauses]
  exact List.Perm.swap ..

theorem touches_eq_of_perm (h : g.tables.Perm g'.tables) : g.touches = g'.touches := by
  funext k
  simp only [touches, h.mem_iff]

/-! ### One step -/

/-- Groups of the same tables take one branch. -/
theorem rel_attach? {R : Group → Group → Prop} (ht : ∀ t, t ∈ g.tables ↔ t ∈ g'.tables)
    (hfold : j.source.table ∈ g.tables → j.target.table ∈ g.tables → R (g.fold j) (g'.fold j))
    (hintro : ∀ t kind, R (g.introduce t kind (.ofJoin j)) (g'.introduce t kind (.ofJoin j))) :
    Option.Rel R (g.attach? j) (g'.attach? j) := by
  simp only [attach?, ← ht]
  split_ifs with hs ht ht
  · exact .some (hfold hs ht)
  · exact .some (hintro _ _)
  · exact .some (hintro _ _)
  · exact .none

theorem Turned.fold (hk : ¬ k.IsLoop) (h : Turned e g g') (hs : k.source.table ∈ g.tables)
    (ht : k.target.table ∈ g.tables) : Turned e (g.fold k) (g'.fold k) := by
  obtain ⟨before, c, after, hc, hm, hafter⟩ :=
    exists_splitLast (p := fun c : Clause => k.mentions c.table) (exists_clause_of_mem hk hs ht)
  have hd := h.clauses
  rw [hc] at hd
  obtain ⟨before', c', after', hc', hlen, hd'⟩ := hd.split fun _ _ h => h.withJoin k
  -- the clauses that the join is folded into have one table, and so do those behind them
  have htables := hd.map_eq fun _ _ h => h.table
  rw [hc', List.map_append, List.map_append] at htables
  obtain ⟨_, htables⟩ := List.append_inj htables (by simpa using hlen)
  obtain ⟨htable, hrest⟩ := List.cons.inj htables
  have hafter' : ∀ d ∈ after', k.mentions d.table = false := by
    intro d hd
    have hmem : d.table ∈ after.map Clause.table := hrest ▸ List.mem_map_of_mem hd
    obtain ⟨b, hb, hbd⟩ := List.mem_map.1 hmem
    rw [← hbd]
    exact hafter b hb
  rw [fold_eq hc hm hafter, fold_eq hc' (htable ▸ hm) hafter']
  exact ⟨h.root, hd'⟩

theorem Turned.attach? (hk : ¬ k.IsLoop) (h : Turned e g g') :
    Option.Rel (Turned e) (g.attach? k) (g'.attach? k) :=
  rel_attach? (fun _ => by rw [h.tables_eq]) (h.fold hk) fun _ _ =>
    ⟨h.root, h.clauses.append_right _⟩

/-- A join may be folded into the first clause, if it is one of the same tables. -/
theorem OpenedBy.fold_first {es : List Equality} {cs : List Clause} (hg : g.OpenedBy j es cs)
    (hk : k.mentions j.target.table = true) (hcs : ∀ c ∈ cs, k.mentions c.table = false) :
    (g.fold k).OpenedBy j (es ++ [.ofJoin k]) cs := by
  rw [fold_eq (show g.clauses = [] ++ _ :: cs from hg.clauses) hk hcs]
  exact ⟨hg.root, rfl⟩

theorem OpenedBy.fold_later {es : List Equality} {before after : List Clause} {c : Clause}
    (hg : g.OpenedBy j es (before ++ c :: after)) (hm : k.mentions c.table = true)
    (hafter : ∀ d ∈ after, k.mentions d.table = false) :
    (g.fold k).OpenedBy j es (before ++ c.withJoin k :: after) := by
  rw [fold_eq (show g.clauses = (_ :: before) ++ c :: after from hg.clauses) hm hafter]
  exact ⟨hg.root, rfl⟩

/-- A join of two tables of the group is about a later clause, or it is one of the two oldest. -/
theorem OpenedBy.later_or_links {es : List Equality} {cs : List Clause} (hg : g.OpenedBy j es cs)
    (hk : ¬ k.IsLoop) (hs : k.source.table ∈ g.tables) (ht : k.target.table ∈ g.tables) :
    (∃ before c after, cs = before ++ c :: after ∧ k.mentions c.table = true ∧
      ∀ d ∈ after, k.mentions d.table = false) ∨
    (k.Links j.source.table j.target.table ∧ ∀ c ∈ cs, k.mentions c.table = false) := by
  by_cases hex : ∃ c ∈ cs, k.mentions c.table = true
  · exact .inl (exists_splitLast (p := fun c : Clause => k.mentions c.table) hex)
  · right
    have hcs : ∀ c ∈ cs, k.mentions c.table = false := fun c hc => by
      rw [← Bool.not_eq_true]
      exact fun hm => hex ⟨c, hc, hm⟩
    have oldest {t : TableId} (ht : t ∈ g.tables) (hm : k.mentions t = true) :
        t = j.source.table ∨ t = j.target.table := by
      rw [tables, hg.root, hg.clauses, List.map_cons, List.mem_cons, List.mem_cons] at ht
      refine ht.imp_right fun ht => ht.resolve_right fun ht => ?_
      obtain ⟨c, hc, rfl⟩ := List.mem_map.1 ht
      simp [hcs c hc] at hm
    refine ⟨?_, hcs⟩
    rcases oldest hs (Join.mentions_iff.2 (.inl rfl)) with hs | hs <;>
      rcases oldest ht (Join.mentions_iff.2 (.inr rfl)) with ht | ht
    · exact absurd (hs.trans ht.symm) hk
    · exact .inl ⟨hs, ht⟩
    · exact .inr ⟨hs, ht⟩
    · exact absurd (hs.trans ht.symm) hk

theorem Reopened.fold (hk : ¬ k.IsLoop) (h : Reopened j g g') (hs : k.source.table ∈ g.tables)
    (ht : k.target.table ∈ g.tables) : Reopened j (g.fold k) (g'.fold k) := by
  obtain ⟨es, cs, hg, hg'⟩ := h
  rcases hg.later_or_links hk hs ht with ⟨before, c, after, rfl, hm, hafter⟩ | ⟨hl, hcs⟩
  · exact ⟨es, _, hg.fold_later hm hafter, hg'.fold_later hm hafter⟩
  · exact ⟨_, cs, hg.fold_first hl.symm.mentions hcs, hg'.fold_first hl.mentions hcs⟩

theorem Reopened.attach? (hk : ¬ k.IsLoop) (h : Reopened j g g') :
    Option.Rel (Reopened j) (g.attach? k) (g'.attach? k) := by
  refine rel_attach? (fun _ => h.tables_perm.mem_iff) (h.fold hk) fun t kind => ?_
  obtain ⟨es, cs, hg, hg'⟩ := h
  refine ⟨es, cs ++ [⟨kind, t, [.ofJoin k]⟩], ⟨hg.root, ?_⟩, hg'.root, ?_⟩
  · rw [introduce, hg.clauses, List.cons_append]
  · rw [introduce, hg'.clauses, List.cons_append]

/-- Attached from its other side, a join leaves the same group but for its condition. -/
theorem attach?_mirrored (g : Group) (hj : ¬ j.IsLoop) :
    Option.Rel (Turned (.ofJoin j)) (g.attach? j) (g.attach? j.mirrored) := by
  have hintro (t : TableId) (kind : JoinKind) : Turned (.ofJoin j)
      (g.introduce t kind (.ofJoin j)) (g.introduce t kind (.ofJoin j.mirrored)) :=
    ⟨rfl, .append_left _ (.head ⟨rfl, rfl, .head ⟨rfl, rfl⟩⟩)⟩
  by_cases hs : j.source.table ∈ g.tables <;> by_cases ht : j.target.table ∈ g.tables
  · obtain ⟨before, c, after, hc, hm, hafter⟩ :=
      exists_splitLast (p := fun c : Clause => j.mentions c.table) (exists_clause_of_mem hj hs ht)
    have h : g.attach? j = some (g.fold j) := by simp [Group.attach?, hs, ht]
    have h' : g.attach? j.mirrored = some (g.fold j.mirrored) := by
      simp [Group.attach?, Join.mirrored, hs, ht]
    rw [h, h', fold_eq hc hm hafter, fold_eq hc (by simpa using hm) (by simpa using hafter)]
    exact .some ⟨rfl, .append_left _ (.head ⟨rfl, rfl, .append_left _ (.head ⟨rfl, rfl⟩)⟩)⟩
  · have h : g.attach? j = some (g.introduce j.target.table j.kind (.ofJoin j)) := by
      simp [Group.attach?, hs, ht]
    have h' : g.attach? j.mirrored =
        some (g.introduce j.target.table j.kind (.ofJoin j.mirrored)) := by
      simp [Group.attach?, Join.mirrored, JoinKind.mirrored_mirrored, hs, ht]
    rw [h, h']
    exact .some (hintro _ _)
  · have h : g.attach? j = some (g.introduce j.source.table j.kind.mirrored (.ofJoin j)) := by
      simp [Group.attach?, hs, ht]
    have h' : g.attach? j.mirrored =
        some (g.introduce j.source.table j.kind.mirrored (.ofJoin j.mirrored)) := by
      simp [Group.attach?, Join.mirrored, hs, ht]
    rw [h, h']
    exact .some (hintro _ _)
  · have h : g.attach? j = none := by simp [Group.attach?, hs, ht]
    have h' : g.attach? j.mirrored = none := by simp [Group.attach?, Join.mirrored, hs, ht]
    rw [h, h']
    exact .none

/-! ### Whole runs from related groups -/

section Rel

variable {R : Group → Group → Prop}
  (hR : ∀ g g' k, ¬ k.IsLoop → R g g' → Option.Rel R (g.attach? k) (g'.attach? k))

include hR

theorem sweep_rel (hjs : ∀ k ∈ js, ¬ k.IsLoop) (h : R g g') :
    R (sweep g js).1 (sweep g' js).1 ∧ (sweep g js).2 = (sweep g' js).2 := by
  induction js generalizing g g' with
  | nil => exact ⟨h, rfl⟩
  | cons k js ih =>
    rw [List.forall_mem_cons] at hjs
    have hrel := hR g g' k hjs.1 h
    simp only [sweep]
    generalize g.attach? k = o, g'.attach? k = o' at hrel
    cases hrel with
    | some h => exact ih hjs.2 h
    | none => exact ⟨(ih hjs.2 h).1, congrArg (k :: ·) (ih hjs.2 h).2⟩

theorem grow_rel (hjs : ∀ k ∈ js, ¬ k.IsLoop) (h : R g g') :
    R (grow g js).1 (grow g' js).1 ∧ (grow g js).2 = (grow g' js).2 := by
  fun_induction grow g js generalizing g' with
  | case1 g js swept hlt =>
    rename_i ih
    obtain ⟨hr, hl⟩ := sweep_rel hR hjs h
    rw [grow.eq_1 g' js, ← hl, if_pos hlt]
    exact ih (fun k hk => hjs k ((sweep_sublist g js).subset hk)) hr
  | case2 g js swept =>
    rename_i hlt
    obtain ⟨hr, hl⟩ := sweep_rel hR hjs h
    rw [grow.eq_1 g' js, ← hl, if_neg hlt]
    exact ⟨hr, hl⟩

/-- Only the first groups may differ. -/
theorem spread_rel (hjs : ∀ k ∈ js, ¬ k.IsLoop) (h : R g g') :
    ∃ h h' after, spread g js = h :: after ∧ spread g' js = h' :: after ∧ R h h' := by
  obtain ⟨hr, hl⟩ := grow_rel hR hjs h
  cases hleft : (grow g js).2 with
  | nil =>
    refine ⟨_, _, [], spread_of_grow_nil (Prod.ext rfl hleft), ?_, hr⟩
    exact spread_of_grow_nil (Prod.ext rfl (hl.symm.trans hleft))
  | cons k left =>
    refine ⟨_, _, _, spread_of_grow_cons (Prod.ext rfl hleft), ?_, hr⟩
    exact spread_of_grow_cons (Prod.ext rfl (hl.symm.trans hleft))

end Rel

/-! ### Whole runs with one join from its other side -/

/-- Two runs, the second with `j` from its other side. Either `j` waits in both or it is attached in
both. -/
inductive Abreast (j : Join) : Group × List Join → Group × List Join → Prop
  | waiting {g : Group} {js js' : List Join}
    (h : DifferOnce (fun k k' => k = j ∧ k' = k.mirrored) js js') : Abreast j (g, js) (g, js')
  | attached {g g' : Group} {js : List Join} (h : Turned (.ofJoin j) g g') :
    Abreast j (g, js) (g', js)

namespace Abreast

/-- A join that neither run could attach waits in both. -/
theorem cons {r r' : Group × List Join} (h : Abreast j r r') (k : Join) :
    Abreast j (r.1, k :: r.2) (r'.1, k :: r'.2) := by
  cases h with
  | waiting h => exact .waiting (.tail h)
  | attached h => exact .attached h

theorem length_eq {r r' : Group × List Join} (h : Abreast j r r') : r.2.length = r'.2.length := by
  cases h with
  | waiting h => exact h.length_eq
  | attached h => rfl

theorem sweep (hjs : ∀ k ∈ js, ¬ k.IsLoop) (h : Abreast j (g, js) (g', js')) :
    Abreast j (sweep g js) (sweep g' js') := by
  have after {g g' : Group} {js : List Join} (hjs : ∀ k ∈ js, ¬ k.IsLoop)
      (h : Turned (.ofJoin j) g g') : Abreast j (Group.sweep g js) (Group.sweep g' js) := by
    obtain ⟨hr, hl⟩ := sweep_rel (fun _ _ _ => Turned.attach?) hjs h
    rw [← Prod.eta (Group.sweep g' js), ← hl]
    exact .attached hr
  cases h with
  | attached h => exact after hjs h
  | waiting h =>
    induction h generalizing g with
    | @head k k' js h =>
      obtain ⟨rfl, rfl⟩ := h
      rw [List.forall_mem_cons] at hjs
      have hrel := attach?_mirrored g hjs.1
      simp only [Group.sweep]
      generalize g.attach? k = o, g.attach? k.mirrored = o' at hrel
      cases hrel with
      | some h => exact after hjs.2 h
      | none => exact .waiting (.head ⟨rfl, rfl⟩)
    | @tail k js js' _ ih =>
      rw [List.forall_mem_cons] at hjs
      simp only [Group.sweep]
      cases g.attach? k with
      | some g => exact ih hjs.2
      | none => exact (ih hjs.2).cons k

theorem grow (hjs : ∀ k ∈ js, ¬ k.IsLoop) (h : Abreast j (g, js) (g', js')) :
    Abreast j (grow g js) (grow g' js') := by
  fun_induction Group.grow g js generalizing g' js' with
  | case1 g js swept hlt =>
    rename_i ih
    have hs := h.sweep hjs
    have hlen : js.length = js'.length := h.length_eq
    rw [Group.grow.eq_1 g' js', ← hs.length_eq, ← hlen, if_pos hlt]
    exact ih (fun k hk => hjs k ((sweep_sublist g js).subset hk)) hs
  | case2 g js swept =>
    rename_i hlt
    have hs := h.sweep hjs
    have hlen : js.length = js'.length := h.length_eq
    rw [Group.grow.eq_1 g' js', ← hs.length_eq, ← hlen, if_neg hlt]
    exact hs

/-- The runs give the same groups but for one, which has a condition turned or, if it is not the
first, was opened by `j`. -/
theorem spread (hjs : ∀ k ∈ js, ¬ k.IsLoop) (h : Abreast j (g, js) (g', js')) :
    ∃ before h h' after, spread g js = before ++ h :: after ∧ spread g' js' = before ++ h' :: after ∧
      (Turned (.ofJoin j) h h' ∨ before ≠ [] ∧ Reopened j h h') := by
  fun_induction Group.spread g js generalizing g' js' with
  | case1 g js grown hgrow =>
    have hg := h.grow hjs
    generalize hgrow' : Group.grow g' js' = r at hg
    rw [hgrow] at hg
    cases hg with
    | waiting h => cases h
    | attached h => exact ⟨[], _, _, [], rfl, spread_of_grow_nil hgrow', .inl h⟩
  | case2 g js grown k left hgrow ih =>
    have hleft : ∀ i ∈ k :: left, ¬ i.IsLoop := fun i hi =>
      hjs i ((grow_sublist g js).subset (by rwa [hgrow]))
    have hg := h.grow hjs
    generalize hgrow' : Group.grow g' js' = r at hg
    rw [hgrow] at hg
    cases hg with
    | attached h => exact ⟨[], _, _, _, rfl, spread_of_grow_cons hgrow', .inl h⟩
    | waiting h =>
      rw [List.forall_mem_cons] at hleft
      cases h with
      | head h =>
        obtain ⟨rfl, rfl⟩ := h
        rw [spread_of_grow_cons hgrow']
        have hopen : Reopened k (opening k) (opening k.mirrored) := ⟨[], [], ⟨rfl, rfl⟩, rfl, rfl⟩
        obtain ⟨h, h', after, hs, hs', hr⟩ :=
          spread_rel (fun _ _ _ => Reopened.attach?) hleft.2 hopen
        exact ⟨[grown], h, h', after, by rw [hs]; rfl, by rw [hs']; rfl, .inr ⟨by simp, hr⟩⟩
      | tail h =>
        rw [spread_of_grow_cons hgrow']
        obtain ⟨before, h, h', after, hs, hs', hr⟩ := ih hleft.2 (.waiting h)
        refine ⟨grown :: before, h, h', after, by rw [hs]; rfl, by rw [hs']; rfl, ?_⟩
        exact hr.imp_right fun hr => ⟨by simp, hr.2⟩

end Abreast

end Group

end Sql

end QueryDraft
