import Mathlib
import QueryDraft.Proofs.Attach
import QueryDraft.Proofs.Compile
import QueryDraft.Proofs.References

/-!
# Compiling with every step checked

`Draft.compile` passes over what cannot happen once the references of a draft are in order: a
selected table that the catalog does not know, a join whose tables no clause brought in, joins that
are tried without end. `Draft.compileChecked` does the same work but stops at each of these with a
`Slip`, and tries joins in a bounded number of rounds only. `compileChecked_eq`: it never slips, and
what it gives is what `compile` gives.
-/

namespace QueryDraft

open Sql

namespace Sql

/-- A step of a compilation that has nothing to go on. -/
inductive Slip where
  /-- A table is looked up that the catalog does not know. -/
  | unknownTable (t : TableId)
  /-- A condition is to be added to a clause, but none brought a table of the join in. -/
  | noClause (j : Join)
  /-- The rounds are used up and joins are left. -/
  | unfinished (js : List Join)

namespace Group

variable {g : Group} {j : Join} {js : List Join} {rounds : Nat}

def foldChecked (g : Group) (j : Join) : Except Slip Group :=
  match splitLast (fun c => j.mentions c.table) g.clauses with
  | none => .error (.noClause j)
  | some _ => .ok (g.fold j)

def attachChecked (g : Group) (j : Join) : Except Slip (Option Group) :=
  if j.source.table ∈ g.tables then
    if j.target.table ∈ g.tables then some <$> g.foldChecked j
    else .ok (some (g.introduce j.target.table j.kind (.ofJoin j)))
  else if j.target.table ∈ g.tables then
    .ok (some (g.introduce j.source.table j.kind.mirrored (.ofJoin j)))
  else .ok none

/-- Tries every join once, in order. -/
def sweepChecked : Group → List Join → Except Slip (Group × List Join)
  | g, [] => .ok (g, [])
  | g, j :: js => do
    match ← g.attachChecked j with
    | some g => sweepChecked g js
    | none => do
      let (g, left) ← sweepChecked g js
      return (g, j :: left)

/-- Tries the joins until none is left or a round attaches none. -/
def growChecked : (rounds : Nat) → Group → List Join → Except Slip (Group × List Join)
  | _, g, [] => .ok (g, [])
  | 0, _, js => .error (.unfinished js)
  | rounds + 1, g, js => do
    let swept ← sweepChecked g js
    if swept.2.length < js.length then growChecked rounds swept.1 swept.2 else return swept

/-- Grows a group and, as long as joins are left, another one from the first of them. -/
def spreadChecked : (rounds : Nat) → Group → List Join → Except Slip (List Group)
  | 0, _, js => .error (.unfinished js)
  | rounds + 1, g, js => do
    match ← growChecked js.length g js with
    | (grown, []) => return [grown]
    | (grown, j :: left) =>
      return grown :: (← spreadChecked rounds { root := j.source.table } (j :: left))

theorem foldChecked_eq (hj : ¬ j.IsLoop) (hs : j.source.table ∈ g.tables)
    (ht : j.target.table ∈ g.tables) : g.foldChecked j = .ok (g.fold j) := by
  unfold foldChecked
  split
  · rename_i hnone
    obtain ⟨c, hc, hm⟩ := exists_clause_of_mem hj hs ht
    rw [splitLast_eq_none_iff.1 hnone c hc] at hm
    cases hm
  · rfl

theorem attachChecked_eq (hj : ¬ j.IsLoop) (g : Group) : g.attachChecked j = .ok (g.attach? j) := by
  unfold attachChecked attach?
  split_ifs with hs ht ht
  · rw [foldChecked_eq hj hs ht]
    rfl
  · rfl
  · rfl
  · rfl

theorem sweepChecked_eq (hjs : ∀ j ∈ js, ¬ j.IsLoop) (g : Group) :
    sweepChecked g js = .ok (sweep g js) := by
  induction js generalizing g with
  | nil => rfl
  | cons j js ih =>
    rw [List.forall_mem_cons] at hjs
    simp only [sweepChecked, sweep, attachChecked_eq hjs.1, bind, Except.bind]
    cases g.attach? j with
    | some g' => exact ih hjs.2 g'
    | none => simp only [ih hjs.2 g, pure, Except.pure]

/-- Every round but the last attaches a join. -/
theorem growChecked_eq (hjs : ∀ j ∈ js, ¬ j.IsLoop) (hrounds : js.length ≤ rounds) (g : Group) :
    growChecked rounds g js = .ok (grow g js) := by
  induction rounds generalizing g js with
  | zero =>
    obtain rfl := List.length_eq_zero_iff.1 (Nat.le_zero.1 hrounds)
    rw [grow]
    rfl
  | succ rounds ih =>
    cases js with
    | nil =>
      rw [grow]
      rfl
    | cons j js =>
      rw [grow]
      simp only [growChecked, sweepChecked_eq hjs, bind, Except.bind]
      split_ifs with hlt
      · exact ih (fun k hk => hjs k ((sweep_sublist g (j :: js)).subset hk)) (by omega) _
      · rfl

/-- Sweeping once before growing changes nothing. -/
theorem grow_sweep (g : Group) (js : List Join) : grow (sweep g js).1 (sweep g js).2 = grow g js := by
  conv_rhs => rw [grow]
  by_cases hlt : (sweep g js).2.length < js.length
  · rw [if_pos hlt]
  · have hleft : (sweep g js).2 = js := (sweep_sublist g js).eq_of_length_le (Nat.le_of_not_lt hlt)
    have hgroup : (sweep g js).1 = g := (sweep_stuck (Nat.le_of_not_lt hlt)).1
    rw [if_neg hlt, hleft, hgroup, grow, if_neg hlt]

/-- A group that starts from the first table of a join attaches that join at once. -/
theorem grow_root_cons (hj : ¬ j.IsLoop) (js : List Join) :
    grow { root := j.source.table } (j :: js) = grow (opening j) js := by
  rw [← grow_sweep, sweep, attach?_opening hj, grow_sweep]

theorem spreadChecked_root_cons (hjs : ∀ k ∈ j :: js, ¬ k.IsLoop)
    (hrounds : (j :: js).length ≤ rounds) :
    spreadChecked rounds { root := j.source.table } (j :: js) = .ok (spread (opening j) js) := by
  induction rounds generalizing j js with
  | zero => simp at hrounds
  | succ rounds ih =>
    have hgrow := growChecked_eq hjs le_rfl { root := j.source.table }
    rw [grow_root_cons (hjs j (List.mem_cons_self ..))] at hgrow
    simp only [spreadChecked, hgrow, bind, Except.bind]
    cases hg : grow (opening j) js with
    | mk grown left =>
      cases left with
      | nil => simp only [pure, Except.pure, spread_of_grow_nil hg]
      | cons k left =>
        have hle : (k :: left).length ≤ js.length := by
          have := length_grow_le (opening j) js
          rwa [hg] at this
        have hleft : ∀ i ∈ k :: left, ¬ i.IsLoop := fun i hi =>
          hjs i (List.mem_cons_of_mem _ ((grow_sublist (opening j) js).subset (by rwa [hg])))
        simp only [ih hleft (hle.trans (Nat.le_of_succ_le_succ hrounds)), pure, Except.pure,
          spread_of_grow_cons hg]

/-- One round for the first group and one for every join are enough. -/
theorem spreadChecked_eq (hjs : ∀ j ∈ js, ¬ j.IsLoop) (g : Group) :
    spreadChecked (js.length + 1) g js = .ok (spread g js) := by
  simp only [spreadChecked, growChecked_eq hjs le_rfl, bind, Except.bind]
  cases hg : grow g js with
  | mk grown left =>
    cases left with
    | nil => simp only [pure, Except.pure, spread_of_grow_nil hg]
    | cons j left =>
      have hle : (j :: left).length ≤ js.length := by
        have := length_grow_le g js
        rwa [hg] at this
      have hleft : ∀ k ∈ j :: left, ¬ k.IsLoop := fun k hk =>
        hjs k ((grow_sublist g js).subset (by rwa [hg]))
      simp only [spreadChecked_root_cons hleft hle, pure, Except.pure, spread_of_grow_cons hg]

end Group

def groupsChecked (base : TableId) (ts : List TableId) (js : List Join) :
    Except Slip (List Group) :=
  (addLoners · ts) <$> Group.spreadChecked (js.length + 1) { root := base } js

theorem groupsChecked_eq {js : List Join} (hjs : ∀ j ∈ js, ¬ j.IsLoop) (base : TableId)
    (ts : List TableId) : groupsChecked base ts js = .ok (groups base ts js) := by
  rw [groupsChecked, Group.spreadChecked_eq hjs]
  rfl

end Sql

namespace Draft

variable (catalog : Catalog) (d : Draft)

/-- The columns of a selected table that are not aggregated. -/
def impliedColumnsOf (t : TableId) : Except Slip (List ColumnId) :=
  match catalog.table? t with
  | none => .error (.unknownTable t)
  | some table => .ok ((table.columns.map fun c => t.column c.name).filter (d.aggregate · = .none))

def plainColumnsChecked : Except Slip (List ColumnId) :=
  if !d.columns.isEmpty then .ok (d.columns.filter (d.aggregate · = .none))
  else if d.isGrouped then List.flatten <$> d.tables.mapM (d.impliedColumnsOf catalog)
  else .ok []

/-- The query of a draft whose references are in order, or the rule that it breaks. -/
def compileFromChecked (base : TableId) : Except Slip (Except RuleFault Compiled) :=
  match d.checkAliases with
  | .error fault => .ok (.error fault)
  | .ok () => do
    let _ ← d.plainColumnsChecked catalog
    match d.selectItems catalog with
    | .error fault => return .error fault
    | .ok items =>
      let gs ← groupsChecked base d.tables d.joins
      return (d.conditions catalog).map (d.assembled base gs items)

/-- The query of a draft, or its fault, unless a step slips. -/
def compileChecked : Except Slip (Except Fault Compiled) :=
  match d.tables with
  | [] => .ok (.error .noTable)
  | base :: _ =>
    match d.referenceFaults catalog with
    | fault :: _ => .ok (.error (.reference fault))
    | [] => do
      let compiled ← d.compileFromChecked catalog base
      return compiled.mapError .rule >>= withLimit d.limit

/-- The text to show for a draft, in which a fault is a comment, unless a step slips. -/
def previewChecked (mark : String) : Except Slip (Except Fault String) := do
  match ← d.compileChecked catalog with
  | .error .longLimit => return .error .longLimit
  | .error fault => return .ok s!"{mark} {fault.kind}: {fault.message}"
  | .ok compiled =>
    return .ok ("\n".intercalate
      (compiled.sql :: compiled.warnings.map fun w => s!"{mark} warning: {w.message}"))

variable {catalog d}

theorem hasTable_of_valid (h : d.referenceFaults catalog = []) :
    ∀ t ∈ d.tables, catalog.hasTable t = true := by
  simp only [referenceFaults, List.append_eq_nil_iff] at h
  have htables : d.tableFaults catalog = [] := by tauto
  simpa [tableFaults] using htables

theorem mapM_impliedColumnsOf (ts : List TableId) (h : ∀ t ∈ ts, catalog.hasTable t = true) :
    ts.mapM (d.impliedColumnsOf catalog) = .ok (ts.map fun t =>
      (((catalog.table? t).elim [] (·.columns)).map fun c => t.column c.name).filter
        (d.aggregate · = .none)) := by
  induction ts with
  | nil => rfl
  | cons t ts ih =>
    rw [List.forall_mem_cons] at h
    obtain ⟨table, htable⟩ := Option.isSome_iff_exists.1 h.1
    simp [List.mapM_cons, impliedColumnsOf, htable, ih h.2, bind, Except.bind, pure, Except.pure]

/-- The look-ups of the selected tables find them. -/
theorem plainColumnsChecked_eq (h : d.referenceFaults catalog = []) :
    d.plainColumnsChecked catalog = .ok (d.plainColumns catalog) := by
  unfold plainColumnsChecked plainColumns
  split_ifs with hcolumns hgrouped
  · rfl
  · rw [mapM_impliedColumnsOf _ (hasTable_of_valid h), impliedColumns, List.flatMap_def]
    rfl
  · rfl

theorem compileFromChecked_eq (h : d.referenceFaults catalog = []) (base : TableId) :
    d.compileFromChecked catalog base = .ok (d.compileFrom catalog base) := by
  unfold compileFromChecked compileFrom
  cases d.checkAliases with
  | error fault => rfl
  | ok u =>
    simp only [plainColumnsChecked_eq h, bind, Except.bind]
    cases d.selectItems catalog with
    | error fault => rfl
    | ok items =>
      simp only [groupsChecked_eq (noLoops_of_valid h)]
      cases d.conditions catalog <;> rfl

theorem compileChecked_eq (catalog : Catalog) (d : Draft) :
    d.compileChecked catalog = .ok (d.compile catalog) := by
  unfold compileChecked compile
  cases d.tables with
  | nil => rfl
  | cons base rest =>
    cases h : d.referenceFaults catalog with
    | cons fault faults => rfl
    | nil =>
      simp only [compileFromChecked_eq h base]
      rfl

theorem previewChecked_eq (catalog : Catalog) (d : Draft) (mark : String) :
    d.previewChecked catalog mark = .ok (d.tryPreview catalog mark) := by
  unfold previewChecked tryPreview preview
  rw [compileChecked_eq]
  cases d.compile catalog with
  | ok compiled => rfl
  | error fault => cases fault <;> rfl

end Draft

end QueryDraft
