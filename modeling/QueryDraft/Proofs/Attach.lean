import Mathlib
import QueryDraft.Sql.From

/-!
# Attaching joins to a group

`Group.Step g j g'` lists what attaching a join does: it introduces the one table that is new, or
it adds a condition to the later of the clauses that brought its tables in. `attach?_step` says
that nothing else can happen to a join of two different tables. `Attaches g js g'` attaches a list
of joins one after the other; sweeping, growing and spreading are described by it, so that what a
step keeps is kept by all of them.
-/

namespace QueryDraft

namespace Join

variable {j : Join} {t u : TableId}

/-- The join is one of these two tables, whichever way round it is written. -/
def Links (j : Join) (t u : TableId) : Prop :=
  (j.source.table = t ∧ j.target.table = u) ∨ (j.source.table = u ∧ j.target.table = t)

/-- The join is one of a table with itself. -/
def IsLoop (j : Join) : Prop := j.source.table = j.target.table

theorem Links.symm (h : j.Links t u) : j.Links u t := Or.symm h

theorem links_ends (j : Join) : j.Links j.source.table j.target.table := .inl ⟨rfl, rfl⟩

theorem mentions_iff : j.mentions t = true ↔ j.source.table = t ∨ j.target.table = t := by
  simp [mentions]

theorem Links.mentions (h : j.Links t u) : j.mentions t = true := by
  rw [mentions_iff]
  rcases h with ⟨h, _⟩ | ⟨_, h⟩
  · exact .inl h
  · exact .inr h

end Join

namespace Sql

/-- The clause with the condition of a further join. -/
def Clause.withJoin (c : Clause) (j : Join) : Clause :=
  { c with conditions := c.conditions ++ [.ofJoin j] }

@[simp] theorem Clause.table_withJoin (c : Clause) (j : Join) : (c.withJoin j).table = c.table := rfl

@[simp] theorem Clause.kind_withJoin (c : Clause) (j : Join) : (c.withJoin j).kind = c.kind := rfl

@[simp] theorem Clause.conditions_withJoin (c : Clause) (j : Join) :
    (c.withJoin j).conditions = c.conditions ++ [.ofJoin j] := rfl

/-- What is noted when a join is added to a clause. -/
def Clause.notes (c : Clause) (j : Join) : List Disagreement :=
  if Group.kindFor j c.table = c.kind then [] else [⟨j, Group.kindFor j c.table, c.kind, c.table⟩]

namespace Group

variable {g g' g'' : Group} {j : Join} {js ks : List Join} {t u : TableId}

/-! ### One join -/

theorem splitLast_eq_none_iff {α : Type} {p : α → Bool} {l : List α} :
    splitLast p l = none ↔ ∀ a ∈ l, p a = false := by
  induction l with
  | nil => simp [splitLast]
  | cons a l ih =>
    simp only [splitLast, List.forall_mem_cons, ← ih]
    cases splitLast p l <;> simp

theorem splitLast_append {α : Type} {p : α → Bool} {a : α} {after : List α} (before : List α)
    (ha : p a = true) (hafter : ∀ b ∈ after, p b = false) :
    splitLast p (before ++ a :: after) = some (before, a, after) := by
  induction before with
  | nil => simp [splitLast, splitLast_eq_none_iff.2 hafter, ha]
  | cons b before ih => simp [splitLast, ih]

theorem exists_splitLast {α : Type} {p : α → Bool} {l : List α} (h : ∃ a ∈ l, p a = true) :
    ∃ before a after, l = before ++ a :: after ∧ p a = true ∧ ∀ b ∈ after, p b = false := by
  induction l with
  | nil => simp at h
  | cons a l ih =>
    by_cases hl : ∃ b ∈ l, p b = true
    · obtain ⟨before, b, after, rfl, hb, hafter⟩ := ih hl
      exact ⟨a :: before, b, after, rfl, hb, hafter⟩
    · have hl' : ∀ b ∈ l, p b = false := fun b hb => by
        rw [← Bool.not_eq_true]; exact fun hp => hl ⟨b, hb, hp⟩
      obtain ⟨b, hb, hp⟩ := h
      rcases List.mem_cons.1 hb with rfl | hb
      · exact ⟨[], b, l, rfl, hp, hl'⟩
      · exact absurd ⟨b, hb, hp⟩ hl

theorem fold_eq {before after : List Clause} {c : Clause} (hc : g.clauses = before ++ c :: after)
    (hm : j.mentions c.table = true) (hafter : ∀ d ∈ after, j.mentions d.table = false) :
    g.fold j = { g with
      clauses := before ++ c.withJoin j :: after
      disagreements := g.disagreements ++ c.notes j } := by
  have h := splitLast_append (p := fun c : Clause => j.mentions c.table) before hm hafter
  simp only [fold, hc, h, Clause.notes, Clause.withJoin]
  split <;> simp

@[simp] theorem tables_introduce (g : Group) (t : TableId) (k : JoinKind) (e : Equality) :
    (g.introduce t k e).tables = g.tables ++ [t] := by
  simp [tables, introduce]

/-- One of the join's tables is in the group. -/
def touches (g : Group) (j : Join) : Bool :=
  j.source.table ∈ g.tables || j.target.table ∈ g.tables

theorem touches_iff : g.touches j = true ↔ j.source.table ∈ g.tables ∨ j.target.table ∈ g.tables := by
  simp [touches]

theorem touches_iff_mentions : g.touches j = true ↔ ∃ t ∈ g.tables, j.mentions t = true := by
  simp only [touches_iff, Join.mentions_iff]
  constructor
  · rintro (h | h)
    · exact ⟨_, h, .inl rfl⟩
    · exact ⟨_, h, .inr rfl⟩
  · rintro ⟨t, ht, rfl | rfl⟩
    · exact .inl ht
    · exact .inr ht

theorem attach?_eq_none_iff : g.attach? j = none ↔ g.touches j = false := by
  rw [← Bool.not_eq_true, touches_iff]
  unfold attach?
  split_ifs with hs ht ht <;> simp [*]

/-- What attaching a join to a group does. -/
inductive Step (g : Group) (j : Join) : Group → Prop
  | introduce {t u : TableId} (hl : j.Links t u) (ht : t ∉ g.tables) (hu : u ∈ g.tables) :
    Step g j (g.introduce t (kindFor j t) (.ofJoin j))
  | fold {before after : List Clause} {c : Clause} (hs : j.source.table ∈ g.tables)
    (ht : j.target.table ∈ g.tables) (hc : g.clauses = before ++ c :: after)
    (hm : j.mentions c.table = true) (hafter : ∀ d ∈ after, j.mentions d.table = false) :
    Step g j { g with
      clauses := before ++ c.withJoin j :: after
      disagreements := g.disagreements ++ c.notes j }

theorem kindFor_target (j : Join) : kindFor j j.target.table = j.kind := if_pos rfl

theorem kindFor_source (hj : ¬ j.IsLoop) : kindFor j j.source.table = j.kind.mirrored := if_neg hj

/-- Of two different tables in a group, one at least was brought in by a clause. -/
theorem exists_clause_of_mem (hj : ¬ j.IsLoop) (hs : j.source.table ∈ g.tables)
    (ht : j.target.table ∈ g.tables) : ∃ c ∈ g.clauses, j.mentions c.table = true := by
  simp only [tables, List.mem_cons, List.mem_map] at hs ht
  rcases hs with hs | ⟨c, hc, hs⟩
  · rcases ht with ht | ⟨c, hc, ht⟩
    · exact absurd (hs.trans ht.symm) hj
    · exact ⟨c, hc, Join.mentions_iff.2 (.inr ht.symm)⟩
  · exact ⟨c, hc, Join.mentions_iff.2 (.inl hs.symm)⟩

theorem attach?_step (hj : ¬ j.IsLoop) (h : g.attach? j = some g') : Step g j g' := by
  unfold attach? at h
  split_ifs at h with hs ht ht
  · obtain ⟨before, c, after, hc, hm, hafter⟩ :=
      exists_splitLast (p := fun c : Clause => j.mentions c.table) (exists_clause_of_mem hj hs ht)
    rw [fold_eq hc hm hafter] at h
    cases h
    exact .fold hs ht hc hm hafter
  · cases h
    rw [← kindFor_target j]
    exact .introduce (j.links_ends.symm) ht hs
  · cases h
    rw [← kindFor_source hj]
    exact .introduce j.links_ends hs ht

theorem Step.root_eq (h : Step g j g') : g'.root = g.root := by cases h <;> rfl

/-- A step appends at most one table, which is then one of the join's. -/
theorem Step.tables_eq (h : Step g j g') :
    g'.tables = g.tables ∨ ∃ t, j.mentions t = true ∧ t ∉ g.tables ∧ g'.tables = g.tables ++ [t] := by
  cases h with
  | introduce hl ht hu => exact .inr ⟨_, hl.mentions, ht, tables_introduce ..⟩
  | fold hs ht hc hm hafter => exact .inl (by simp [tables, hc])

theorem Step.ends (h : Step g j g') : j.source.table ∈ g'.tables ∧ j.target.table ∈ g'.tables := by
  cases h with
  | introduce hl ht hu =>
    rw [tables_introduce]
    rcases hl with ⟨rfl, rfl⟩ | ⟨rfl, rfl⟩ <;> simp [hu]
  | @fold before after c hs ht hc hm hafter =>
    simp only [tables, hc, List.map_append, List.map_cons] at hs ht
    simp only [tables, List.map_append, List.map_cons, Clause.table_withJoin]
    exact ⟨hs, ht⟩

theorem Step.subset (h : Step g j g') : g.tables ⊆ g'.tables := by
  rcases h.tables_eq with h | ⟨t, _, _, h⟩ <;> rw [h]
  · exact List.Subset.refl _
  · exact List.subset_append_left ..

/-! ### Many joins -/

/-- `g'` comes about by attaching joins to `g` one after the other. -/
inductive Attaches : Group → List Join → Group → Prop
  | nil {g : Group} : Attaches g [] g
  | cons {g g' g'' : Group} {j : Join} {js : List Join} (h : g.attach? j = some g')
    (hs : Attaches g' js g'') : Attaches g (j :: js) g''

namespace Attaches

theorem append (h : Attaches g js g') (h' : Attaches g' ks g'') : Attaches g (js ++ ks) g'' := by
  induction h with
  | nil => exact h'
  | cons hj _ ih => exact .cons hj (ih h')

/-- What a step keeps is kept by attaching joins one after the other. -/
theorem keeps {P : Group → List Join → Prop}
    (hstep : ∀ g done j g', ¬ j.IsLoop → P g done → Step g j g' → P g' (done ++ [j]))
    (h : Attaches g js g') (hjs : ∀ j ∈ js, ¬ j.IsLoop) (done : List Join) (hg : P g done) :
    P g' (done ++ js) := by
  induction h generalizing done with
  | nil => simpa using hg
  | @cons g g₁ g₂ j js hj _ ih =>
    rw [List.forall_mem_cons] at hjs
    have := ih hjs.2 (done ++ [j]) (hstep g done j g₁ hjs.1 hg (attach?_step hjs.1 hj))
    simpa using this

theorem root_eq (h : Attaches g js g') (hjs : ∀ j ∈ js, ¬ j.IsLoop) : g'.root = g.root :=
  h.keeps (P := fun h _ => h.root = g.root) (fun _ _ _ _ _ hg hs => hs.root_eq.trans hg) hjs [] rfl

theorem subset (h : Attaches g js g') (hjs : ∀ j ∈ js, ¬ j.IsLoop) : g.tables ⊆ g'.tables :=
  h.keeps (P := fun h _ => g.tables ⊆ h.tables)
    (fun _ _ _ _ _ hg hs => List.Subset.trans hg hs.subset) hjs [] (List.Subset.refl _)

/-- The tables of every attached join are in the group. -/
theorem ends (h : Attaches g js g') (hjs : ∀ j ∈ js, ¬ j.IsLoop) :
    ∀ j ∈ js, j.source.table ∈ g'.tables ∧ j.target.table ∈ g'.tables := by
  refine h.keeps (P := fun h done => ∀ j ∈ done, j.source.table ∈ h.tables ∧ j.target.table ∈ h.tables)
    (fun g done j g' _ hg hs => ?_) hjs [] (by simp)
  rw [List.forall_mem_append, List.forall_mem_singleton]
  exact ⟨fun k hk => ⟨hs.subset (hg k hk).1, hs.subset (hg k hk).2⟩, hs.ends⟩

/-- A table that was not there before is one of an attached join. -/
theorem mem_tables (h : Attaches g js g') (hjs : ∀ j ∈ js, ¬ j.IsLoop) :
    ∀ t ∈ g'.tables, t ∈ g.tables ∨ ∃ j ∈ js, j.mentions t = true := by
  refine h.keeps (P := fun h done => ∀ t ∈ h.tables, t ∈ g.tables ∨ ∃ j ∈ done, j.mentions t = true)
    (fun g₁ done j g₂ _ hg hs t ht => ?_) hjs [] (fun t ht => .inl ht)
  have old (ht : t ∈ g₁.tables) : t ∈ g.tables ∨ ∃ k ∈ done ++ [j], k.mentions t = true :=
    (hg t ht).imp_right fun ⟨k, hk, hm⟩ => ⟨k, List.mem_append_left _ hk, hm⟩
  rcases hs.tables_eq with h | ⟨u, hu, _, h⟩
  · exact old (h ▸ ht)
  · rw [h, List.mem_append, List.mem_singleton] at ht
    rcases ht with ht | rfl
    · exact old ht
    · exact .inr ⟨j, by simp, hu⟩

end Attaches

theorem attaches_sweep (g : Group) (js : List Join) :
    ∃ done, Attaches g done (sweep g js).1 ∧ (done ++ (sweep g js).2).Perm js := by
  induction js generalizing g with
  | nil => exact ⟨[], .nil, by simp [sweep]⟩
  | cons j js ih =>
    cases h : g.attach? j with
    | some g' =>
      obtain ⟨done, hd, hp⟩ := ih g'
      simp only [sweep, h]
      exact ⟨j :: done, .cons h hd, hp.cons j⟩
    | none =>
      obtain ⟨done, hd, hp⟩ := ih g
      simp only [sweep, h]
      exact ⟨done, hd, List.perm_middle.trans (hp.cons j)⟩

theorem sweep_sublist (g : Group) (js : List Join) : (sweep g js).2.Sublist js := by
  induction js generalizing g with
  | nil => simp [sweep]
  | cons j js ih =>
    cases h : g.attach? j with
    | some g' => simpa [sweep, h] using (ih g').cons j
    | none => simpa [sweep, h] using (ih g).cons_cons j

/-- A sweep that attaches nothing leaves the group as it was. -/
theorem sweep_stuck (h : js.length ≤ (sweep g js).2.length) :
    (sweep g js).1 = g ∧ ∀ j ∈ js, g.attach? j = none := by
  induction js generalizing g with
  | nil => simp [sweep]
  | cons j js ih =>
    cases hj : g.attach? j with
    | some g' =>
      have := length_sweep_le g' js
      simp only [sweep, hj, List.length_cons] at h
      omega
    | none =>
      simp only [sweep, hj, List.length_cons, Nat.add_le_add_iff_right] at h
      simpa [sweep, hj] using ih h

theorem attaches_grow (g : Group) (js : List Join) :
    ∃ done, Attaches g done (grow g js).1 ∧ (done ++ (grow g js).2).Perm js := by
  fun_induction grow g js with
  | case1 g js swept hlt ih =>
    obtain ⟨done₁, hd₁, hp₁⟩ := attaches_sweep g js
    obtain ⟨done₂, hd₂, hp₂⟩ := ih
    refine ⟨done₁ ++ done₂, hd₁.append hd₂, ?_⟩
    rw [List.append_assoc]
    exact (hp₂.append_left done₁).trans hp₁
  | case2 g js swept hlt => exact attaches_sweep g js

theorem grow_sublist (g : Group) (js : List Join) : (grow g js).2.Sublist js := by
  fun_induction grow g js with
  | case1 g js swept hlt ih => exact ih.trans (sweep_sublist g js)
  | case2 g js swept hlt => exact sweep_sublist g js

theorem grow_stuck (g : Group) (js : List Join) :
    ∀ j ∈ (grow g js).2, (grow g js).1.attach? j = none := by
  fun_induction grow g js with
  | case1 g js swept hlt ih => exact ih
  | case2 g js swept hlt =>
    have hstuck := sweep_stuck (Nat.le_of_not_lt hlt)
    intro j hj
    show (sweep g js).1.attach? j = none
    rw [hstuck.1]
    exact hstuck.2 j ((sweep_sublist g js).subset hj)

/-- What is left when a group has grown: the joins that touch none of its tables, in order. -/
theorem grow_left (hjs : ∀ j ∈ js, ¬ j.IsLoop) :
    (grow g js).2 = js.filter (!(grow g js).1.touches ·) := by
  obtain ⟨done, hd, hp⟩ := attaches_grow g js
  have hdone : ∀ j ∈ done, ¬ j.IsLoop := fun j hj => hjs j (hp.subset (List.mem_append_left _ hj))
  have hleft : (grow g js).2.filter (!(grow g js).1.touches ·) = (grow g js).2 :=
    List.filter_eq_self.2 fun j hj => by simpa using attach?_eq_none_iff.1 (grow_stuck g js j hj)
  have hnone : done.filter (!(grow g js).1.touches ·) = [] :=
    List.filter_eq_nil_iff.2 fun j hj => by simp [touches_iff, hd.ends hdone j hj]
  refine List.Sublist.eq_of_length ?_ ?_
  · rw [← hleft]
    exact (grow_sublist g js).filter _
  · have := (hp.filter (!(grow g js).1.touches ·)).length_eq
    rwa [List.filter_append, hnone, hleft, List.nil_append] at this

/-! ### Groups side by side -/

/-- Trying the joins `js` on `g` gives `h` and leaves `left`, the joins that touch no table of `h`. -/
structure Grown (g : Group) (js : List Join) (h : Group) (left : List Join) : Prop where
  attaches : ∃ done, Attaches g done h ∧ (done ++ left).Perm js
  left_eq : left = js.filter (!h.touches ·)

/-- The joins of a list open groups one after the other, each with the first join left over. -/
inductive Opened : List Join → List Group → Prop
  | nil : Opened [] []
  | cons {j : Join} {js left : List Join} {h : Group} {gs : List Group}
    (hg : Grown { root := j.source.table } (j :: js) h left) (hs : Opened left gs) :
    Opened (j :: js) (h :: gs)

theorem grown_grow (g : Group) (hjs : ∀ j ∈ js, ¬ j.IsLoop) :
    Grown g js (grow g js).1 (grow g js).2 :=
  ⟨attaches_grow g js, grow_left hjs⟩

theorem Grown.subset {h : Group} {left : List Join} (hg : Grown g js h left) : left ⊆ js := by
  rw [hg.left_eq]
  exact List.filter_sublist.subset

/-- The joins that have been attached, and that they are no loops. -/
theorem Grown.exists_done {h : Group} {left : List Join} (hg : Grown g js h left)
    (hjs : ∀ j ∈ js, ¬ j.IsLoop) :
    ∃ done, Attaches g done h ∧ (done ++ left).Perm js ∧ ∀ j ∈ done, ¬ j.IsLoop := by
  obtain ⟨done, hd, hp⟩ := hg.attaches
  exact ⟨done, hd, hp, fun j hj => hjs j (hp.subset (List.mem_append_left _ hj))⟩

theorem Grown.root_eq {h : Group} {left : List Join} (hg : Grown g js h left)
    (hjs : ∀ j ∈ js, ¬ j.IsLoop) : h.root = g.root := by
  obtain ⟨done, hd, _, hdone⟩ := hg.exists_done hjs
  exact hd.root_eq hdone

theorem attach?_opening (hj : ¬ j.IsLoop) :
    attach? { root := j.source.table } j = some (opening j) := by
  have ht : j.target.table ≠ j.source.table := fun h => hj h.symm
  simp [attach?, tables, opening, introduce, ht]

/-- The group that a join opens has grown from that join's first table. -/
theorem Grown.of_opening {h : Group} {left : List Join} (hj : ¬ j.IsLoop)
    (hjs : ∀ k ∈ js, ¬ k.IsLoop) (hg : Grown (opening j) js h left) :
    Grown { root := j.source.table } (j :: js) h left := by
  obtain ⟨done, hd, hp, hdone⟩ := hg.exists_done hjs
  have ht : h.touches j = true :=
    touches_iff.2 (.inl (hd.subset hdone (List.mem_cons_self ..)))
  refine ⟨⟨j :: done, .cons (attach?_opening hj) hd, hp.cons j⟩, ?_⟩
  rw [List.filter_cons_of_neg (by simp [ht])]
  exact hg.left_eq

theorem spread_of_grow_nil (h : grow g js = (g', [])) : spread g js = [g'] := by
  rw [spread]
  split <;> simp_all

theorem spread_of_grow_cons {left : List Join} (h : grow g js = (g', j :: left)) :
    spread g js = g' :: spread (opening j) left := by
  rw [spread]
  split <;> simp_all

theorem opened_spread (g : Group) (js : List Join) (hjs : ∀ j ∈ js, ¬ j.IsLoop) :
    ∃ h left gs, spread g js = h :: gs ∧ Grown g js h left ∧ Opened left gs := by
  fun_induction spread g js with
  | case1 g js grown hgrow =>
    have hg := grown_grow g hjs
    rw [hgrow] at hg
    exact ⟨grown, [], [], rfl, hg, .nil⟩
  | case2 g js grown j left hgrow ih =>
    have hg := grown_grow g hjs
    rw [hgrow] at hg
    have hleft : ∀ k ∈ j :: left, ¬ k.IsLoop := fun k hk => hjs k (hg.subset hk)
    rw [List.forall_mem_cons] at hleft
    obtain ⟨h', left', gs', hs, hg', ho⟩ := ih hleft.2
    exact ⟨grown, j :: left, h' :: gs', by rw [hs], hg, .cons (hg'.of_opening hleft.1 hleft.2) ho⟩

end Group

theorem addLoners_cons (gs : List Group) (t : TableId) (ts : List TableId) :
    addLoners gs (t :: ts) =
      addLoners (if gs.any (t ∈ ·.tables) then gs else gs ++ [{ root := t }]) ts := rfl

/-- Tables that are in no group yet are appended in order. -/
theorem addLoners_eq (gs : List Group) {ts : List TableId} (hts : ts.Nodup) :
    addLoners gs ts =
      gs ++ (ts.filter fun t => !gs.any (t ∈ ·.tables)).map ({ root := · }) := by
  induction ts generalizing gs with
  | nil => simp [addLoners]
  | cons t ts ih =>
    obtain ⟨ht, hts⟩ := List.nodup_cons.1 hts
    rw [addLoners_cons, List.filter_cons]
    by_cases hany : gs.any (t ∈ ·.tables) = true
    · simp only [hany, if_true, Bool.not_true, Bool.false_eq_true, if_false]
      exact ih gs hts
    · simp only [hany, Bool.not_false, if_true, Bool.false_eq_true, if_false]
      have hcongr : ts.filter (fun u => !(gs ++ [({ root := t } : Group)]).any (u ∈ ·.tables)) =
          ts.filter (fun u => !gs.any (u ∈ ·.tables)) := by
        refine List.filter_congr fun u hu => ?_
        have hne : u ≠ t := fun h => ht (h ▸ hu)
        simp [Group.tables, hne]
      rw [ih _ hts, hcongr]
      simp

end Sql

end QueryDraft
