import Mathlib
import QueryDraft.Proofs.IdentifierText
import QueryDraft.Proofs.ProposedJoins

/-!
# Which join is proposed

A join follows the first foreign key of a table that names the other table with its schema or, where
none does, the first that names it without (`Relation.Follows`). Such a join of the first of two
tables goes before one of the second, and both before a key that namesakes share
(`Relation.Shares`); that is all there is to a proposal (`Relation.Infers`). So where foreign keys
lead from only one of two tables to the other, their order does not matter.
-/

namespace QueryDraft

open Text

/-! ### First members -/

section first

variable {α : Type} {P Q : α → Prop} {p : α → Bool} {cs : List α} {c : α}

/-- The first member of a list that has some property. -/
def IsFirst (P : α → Prop) (cs : List α) (c : α) : Prop :=
  P c ∧ ∃ before after, cs = before ++ c :: after ∧ ∀ b ∈ before, ¬ P b

theorem IsFirst.mem (h : IsFirst P cs c) : c ∈ cs := by
  obtain ⟨-, before, after, rfl, -⟩ := h
  exact List.mem_append_cons_self

theorem IsFirst.of_iff (h : IsFirst P cs c) (hPQ : ∀ c ∈ cs, P c ↔ Q c) : IsFirst Q cs c := by
  have hc := h.mem
  obtain ⟨hP, before, after, rfl, hbefore⟩ := h
  exact ⟨(hPQ c hc).1 hP, before, after, rfl, fun b hb hQ =>
    hbefore b hb ((hPQ b (List.mem_append_left _ hb)).2 hQ)⟩

theorem IsFirst.congr (hPQ : ∀ c ∈ cs, P c ↔ Q c) : IsFirst P cs c ↔ IsFirst Q cs c :=
  ⟨fun h => h.of_iff hPQ, fun h => h.of_iff fun c hc => (hPQ c hc).symm⟩

theorem find?_eq_some_iff_isFirst (hp : ∀ c, p c = true ↔ P c) :
    cs.find? p = some c ↔ IsFirst P cs c := by
  simp only [List.find?_eq_some_iff_append, IsFirst, Bool.not_eq_true', ← Bool.not_eq_true, hp]

end first

/-! ### References -/

namespace ForeignKey

variable {key : ForeignKey} {s : String}

/-- The parts that a reference is made of. -/
def parts (key : ForeignKey) : List String := key.schema.toList ++ [key.table, key.column]

theorem parse?_eq_some_iff_parts :
    parse? s = some key ↔ identifierParts s = some (key.parts.map String.toList) := by
  unfold parse?
  constructor
  · intro h
    split at h
    · rename_i hparts
      cases h
      simpa [parts] using hparts
    · rename_i hparts
      cases h
      simpa [parts] using hparts
    · cases h
  · intro h
    obtain ⟨schema, table, column⟩ := key
    rw [h]
    cases schema <;> simp [parts]

theorem pointsTo_iff {t : TableId} :
    key.pointsTo t = true ↔ key.table = t.table ∧ (key.schema = none ∨ key.schema = some t.schema) := by
  unfold pointsTo
  cases key.schema <;> simp

end ForeignKey

/-- The column is a foreign key, and its reference is made of some parts, apart from blanks around
it. -/
structure Column.RefersTo (c : Column) (parts : List String) : Prop where
  isForeignKey : c.isForeignKey = true
  references : ∃ s, c.references = some s ∧ strip s = ".".intercalate parts
  solid : ∀ p ∈ parts, p ≠ "" ∧ '.' ∉ p.toList

theorem Column.foreignKey?_eq_some_iff {c : Column} {key : ForeignKey} :
    c.foreignKey? = some key ↔ c.RefersTo key.parts := by
  have hparts : key.parts ≠ [] := by simp [ForeignKey.parts]
  rw [Column.foreignKey?, Option.ite_none_right_eq_some, Option.bind_eq_some_iff]
  simp only [ForeignKey.parse?_eq_some_iff_parts, identifierParts_map_toList_iff hparts]
  constructor
  · rintro ⟨hc, s, hs, hstrip, hsolid⟩
    exact ⟨hc, ⟨s, hs, hstrip⟩, hsolid⟩
  · rintro ⟨hc, ⟨s, hs, hstrip⟩, hsolid⟩
    exact ⟨hc, s, hs, hstrip, hsolid⟩

/-- The column refers to a column of the table, whose schema its reference names. -/
def Column.RefersInFull (c : Column) (t : Table) (name : String) : Prop :=
  c.RefersTo [t.schema, t.name, name]

/-- The column refers to a column of the table, whose schema its reference leaves open. -/
def Column.RefersInShort (c : Column) (t : Table) (name : String) : Prop :=
  c.RefersTo [t.name, name]

/-- Some column of the table is a foreign key to the other table. -/
def Table.Refers (source target : Table) : Prop :=
  ∃ c ∈ source.columns, ∃ name, c.RefersInFull target name ∨ c.RefersInShort target name

namespace Relation

variable {catalog : Catalog} {heuristic : Bool} {source target : Table} {j : Join} {c : Column}
  {name : String}

theorem refersInFull_iff :
    c.RefersInFull target name ↔ c.foreignKey? = some ⟨some target.schema, target.name, name⟩ := by
  rw [Column.foreignKey?_eq_some_iff]
  rfl

theorem refersInShort_iff :
    c.RefersInShort target name ↔ c.foreignKey? = some ⟨none, target.name, name⟩ := by
  rw [Column.foreignKey?_eq_some_iff]
  rfl

theorem pointsTo_target_iff {key : ForeignKey} : key.pointsTo target.id = true ↔
    key = ⟨some target.schema, target.name, key.column⟩ ∨ key = ⟨none, target.name, key.column⟩ := by
  rw [ForeignKey.pointsTo_iff]
  obtain ⟨schema, table, column⟩ := key
  simp only [ForeignKey.mk.injEq, and_true, Table.id]
  tauto

/-- The join follows the first foreign key of the source that names the target with its schema or,
where none does, the first that names it without. -/
inductive Follows (source target : Table) : Join → Prop where
  | full {c : Column} {name : String}
    (hc : IsFirst (fun c => ∃ name, c.RefersInFull target name) source.columns c)
    (hname : c.RefersInFull target name) :
    Follows source target (propose (source.id.column c.name) .left (target.id.column name))
  | short {c : Column} {name : String}
    (hnone : ∀ c ∈ source.columns, ∀ name, ¬ c.RefersInFull target name)
    (hc : IsFirst (fun c => ∃ name, c.RefersInShort target name) source.columns c)
    (hname : c.RefersInShort target name) :
    Follows source target (propose (source.id.column c.name) .left (target.id.column name))

/-- The first reference to the target of some kind. -/
theorem find?_references_eq_some_iff {p : Column × ForeignKey → Bool} {key : ForeignKey} :
    (references source target).find? p = some (c, key) ↔
      IsFirst (fun c => ∃ key, c.foreignKey? = some key ∧ key.pointsTo target.id = true ∧
        p (c, key) = true) source.columns c ∧ c.foreignKey? = some key := by
  have hp : ∀ c : Column, (c.foreignKey?.map (c, ·)).any
      (fun x => decide (x.2.pointsTo target.id = true ∧ p x = true)) = true ↔
      ∃ key, c.foreignKey? = some key ∧ key.pointsTo target.id = true ∧ p (c, key) = true := by
    intro c
    cases c.foreignKey? <;> simp
  unfold references
  rw [List.find?_filter, List.find?_filterMap, Option.bind_eq_some_iff]
  simp only [find?_eq_some_iff_isFirst hp, Option.map_eq_some_iff, Prod.mk.injEq]
  constructor
  · rintro ⟨c', hfirst, key', hkey, rfl, rfl⟩
    exact ⟨hfirst, hkey⟩
  · rintro ⟨hfirst, hkey⟩
    exact ⟨c, hfirst, key, hkey, rfl, rfl⟩

theorem exists_refersInFull_iff : (∃ name, c.RefersInFull target name) ↔
    ∃ key, c.foreignKey? = some key ∧ key.pointsTo target.id = true ∧ key.schema.isSome = true := by
  constructor
  · rintro ⟨name, hname⟩
    exact ⟨_, refersInFull_iff.1 hname, pointsTo_target_iff.2 (.inl rfl), rfl⟩
  · rintro ⟨key, hkey, hpoints, hschema⟩
    rcases pointsTo_target_iff.1 hpoints with heq | heq
    · exact ⟨key.column, refersInFull_iff.2 (heq ▸ hkey)⟩
    · rw [heq] at hschema
      cases hschema

theorem find?_full_eq_some_iff {key : ForeignKey} :
    (references source target).find? (·.2.schema.isSome) = some (c, key) ↔
      IsFirst (fun c => ∃ name, c.RefersInFull target name) source.columns c ∧
        c.foreignKey? = some key := by
  rw [find?_references_eq_some_iff, IsFirst.congr fun c _ => exists_refersInFull_iff.symm]

theorem find?_full_eq_none_iff :
    (references source target).find? (·.2.schema.isSome) = none ↔
      ∀ c ∈ source.columns, ∀ name, ¬ c.RefersInFull target name := by
  rw [List.find?_eq_none]
  constructor
  · intro h c hc name hname
    obtain ⟨key, hkey, hpoints, hschema⟩ := exists_refersInFull_iff.1 ⟨name, hname⟩
    exact h (c, key) (mem_references.2 ⟨hc, hkey, hpoints⟩) hschema
  · rintro h ⟨c, key⟩ hmem hschema
    obtain ⟨hc, hkey, hpoints⟩ := mem_references.1 hmem
    obtain ⟨name, hname⟩ := exists_refersInFull_iff.2 ⟨key, hkey, hpoints, hschema⟩
    exact h c hc name hname

theorem head?_references_eq_some_iff {key : ForeignKey}
    (hnone : ∀ c ∈ source.columns, ∀ name, ¬ c.RefersInFull target name) :
    (references source target).head? = some (c, key) ↔
      IsFirst (fun c => ∃ name, c.RefersInShort target name) source.columns c ∧
        c.foreignKey? = some key := by
  have hhead : (references source target).head? = (references source target).find? fun _ => true := by
    cases references source target <;> rfl
  have hshort : ∀ c ∈ source.columns,
      (∃ key, c.foreignKey? = some key ∧ key.pointsTo target.id = true ∧ true = true) ↔
        ∃ name, c.RefersInShort target name := by
    intro c hc
    constructor
    · rintro ⟨key, hkey, hpoints, -⟩
      -- as nothing refers in full, what points to the target does so in short
      rcases pointsTo_target_iff.1 hpoints with heq | heq
      · exact absurd (refersInFull_iff.2 (heq ▸ hkey)) (hnone c hc key.column)
      · exact ⟨key.column, refersInShort_iff.2 (heq ▸ hkey)⟩
    · rintro ⟨name, hname⟩
      exact ⟨_, refersInShort_iff.1 hname, pointsTo_target_iff.2 (.inr rfl), rfl⟩
  rw [hhead, find?_references_eq_some_iff, IsFirst.congr hshort]

theorem foreignKeyJoin?_eq_some_iff : foreignKeyJoin? source target = some j ↔ Follows source target j := by
  unfold foreignKeyJoin?
  rw [Option.map_eq_some_iff]
  constructor
  · rintro ⟨⟨c, key⟩, hfound, rfl⟩
    rcases Option.or_eq_some_iff.1 hfound with hfull | ⟨hfull, hshort⟩
    · obtain ⟨hc, hkey⟩ := find?_full_eq_some_iff.1 hfull
      obtain ⟨name, hname⟩ := hc.1
      -- a column has one reference, so the one found is the one in full
      cases hkey.symm.trans (refersInFull_iff.1 hname)
      exact .full hc hname
    · have hnone := find?_full_eq_none_iff.1 hfull
      obtain ⟨hc, hkey⟩ := (head?_references_eq_some_iff hnone).1 hshort
      obtain ⟨name, hname⟩ := hc.1
      cases hkey.symm.trans (refersInShort_iff.1 hname)
      exact .short hnone hc hname
  · intro h
    cases h with
    | full hc hname =>
      exact ⟨_, Option.or_eq_some_iff.2 (.inl (find?_full_eq_some_iff.2 ⟨hc, refersInFull_iff.1 hname⟩)), rfl⟩
    | short hnone hc hname =>
      have hshort := (head?_references_eq_some_iff hnone).2 ⟨hc, refersInShort_iff.1 hname⟩
      exact ⟨_, Option.or_eq_some_iff.2 (.inr ⟨find?_full_eq_none_iff.2 hnone, hshort⟩), rfl⟩

/-- A key of the first of two tables, whose namesake in the second has the same type. -/
def IsSharedKey (b : Table) (c : Column) : Prop :=
  (Text.lowercase c.name = "id" ∨ c.isPrimaryKey = true) ∧
    ∃ d, IsFirst (fun d => d.name = c.name) b.columns d ∧ d.type = c.type

/-- The inner join of namesakes in different schemas on the first key that they share. -/
inductive Shares (a b : Table) : Join → Prop where
  | mk {c : Column} (hname : a.name = b.name) (hschema : a.schema ≠ b.schema)
    (hc : IsFirst (IsSharedKey b) a.columns c) :
    Shares a b (propose (a.id.column c.name) .inner (b.id.column c.name))

theorem isSharedKey_iff {b : Table} :
    (isKey c && (b.column? c.name).any (·.type == c.type)) = true ↔ IsSharedKey b c := by
  have hnamesake (d : Column) : b.column? c.name = some d ↔
      IsFirst (fun d => d.name = c.name) b.columns d :=
    find?_eq_some_iff_isFirst fun d => beq_iff_eq
  simp only [IsSharedKey, isKey, ← hnamesake, Bool.and_eq_true, Bool.or_eq_true, beq_iff_eq,
    Option.any_eq_true]

theorem sharedKeyJoin?_eq_some_iff {a b : Table} : sharedKeyJoin? a b = some j ↔ Shares a b j := by
  unfold sharedKeyJoin?
  rw [Option.ite_none_right_eq_some, Option.map_eq_some_iff, Bool.and_eq_true, beq_iff_eq, bne_iff_ne]
  simp only [find?_eq_some_iff_isFirst fun c => isSharedKey_iff]
  constructor
  · rintro ⟨⟨hname, hschema⟩, c, hc, rfl⟩
    exact .mk hname hschema hc
  · rintro ⟨hname, hschema, hc⟩
    exact ⟨⟨hname, hschema⟩, _, hc, rfl⟩

/-- The first table of the catalog whose identifier the text stands for. -/
def Names (catalog : Catalog) (s : String) (t : Table) : Prop :=
  ∃ id, TableId.parse? s = some id ∧ IsFirst (fun t => t.id = id) catalog.tables t

/-- What is proposed for two tables given by name. -/
inductive Infers (catalog : Catalog) (heuristic : Bool) (a b : String) : Option Join → Prop where
  | unnamed (h : (∀ t, ¬ Names catalog a t) ∨ ∀ t, ¬ Names catalog b t) :
    Infers catalog heuristic a b none
  | same {s t : Table} (ha : Names catalog a s) (hb : Names catalog b t) (hid : s.id = t.id) :
    Infers catalog heuristic a b none
  | forward {s t : Table} {j : Join} (ha : Names catalog a s) (hb : Names catalog b t)
    (hid : s.id ≠ t.id) (hj : Follows s t j) : Infers catalog heuristic a b (some j)
  | backward {s t : Table} {j : Join} (ha : Names catalog a s) (hb : Names catalog b t)
    (hid : s.id ≠ t.id) (hforward : ∀ j, ¬ Follows s t j) (hj : Follows t s j) :
    Infers catalog heuristic a b (some j)
  | shared {s t : Table} {j : Join} (ha : Names catalog a s) (hb : Names catalog b t)
    (hid : s.id ≠ t.id) (hforward : ∀ j, ¬ Follows s t j) (hbackward : ∀ j, ¬ Follows t s j)
    (hheuristic : heuristic = true) (hj : Shares s t j) : Infers catalog heuristic a b (some j)
  | unrelated {s t : Table} (ha : Names catalog a s) (hb : Names catalog b t)
    (hid : s.id ≠ t.id) (hforward : ∀ j, ¬ Follows s t j) (hbackward : ∀ j, ¬ Follows t s j)
    (hshared : heuristic = true → ∀ j, ¬ Shares s t j) : Infers catalog heuristic a b none

/-! ### Deciding what is proposed -/

section infers

variable {a b : String} {s t : Table} {r : Option Join}

theorem names_iff : Names catalog a s ↔ (TableId.parse? a).bind catalog.table? = some s := by
  rw [Option.bind_eq_some_iff]
  exact exists_congr fun id => and_congr_right fun _ =>
    (find?_eq_some_iff_isFirst fun t => decide_eq_true_iff).symm

/-- Tables of one identifier that are named are one table. -/
theorem Names.eq_of_id_eq (ha : Names catalog a s) (hb : Names catalog b t) (h : s.id = t.id) : s = t := by
  obtain ⟨_, -, hs⟩ := Option.bind_eq_some_iff.1 (names_iff.1 ha)
  obtain ⟨_, -, ht⟩ := Option.bind_eq_some_iff.1 (names_iff.1 hb)
  rw [← Catalog.id_of_table? hs] at hs
  rw [← Catalog.id_of_table? ht, ← h, hs] at ht
  exact Option.some.inj ht

theorem inferNamed?_eq_bind : inferNamed? catalog heuristic a b =
    ((TableId.parse? a).bind catalog.table?).bind fun s =>
      ((TableId.parse? b).bind catalog.table?).bind fun t => between? heuristic s t := by
  have hparsed : inferNamed? catalog heuristic a b = (TableId.parse? a).bind fun a =>
      (TableId.parse? b).bind fun b => infer? catalog heuristic a b := rfl
  rw [hparsed]
  unfold infer?
  cases TableId.parse? a with
  | none => rfl
  | some id =>
    cases TableId.parse? b with
    | none => simp
    | some id' => rfl

theorem inferNamed?_of_names (ha : Names catalog a s) (hb : Names catalog b t) :
    inferNamed? catalog heuristic a b = between? heuristic s t := by
  rw [inferNamed?_eq_bind, names_iff.1 ha, names_iff.1 hb]
  rfl

theorem inferNamed?_of_unnamed (h : (∀ t, ¬ Names catalog a t) ∨ ∀ t, ¬ Names catalog b t) :
    inferNamed? catalog heuristic a b = none := by
  simp only [names_iff, ← Option.eq_none_iff_forall_ne_some] at h
  rw [inferNamed?_eq_bind]
  rcases h with h | h
  · rw [h]
    rfl
  · rw [h]
    simp

theorem foreignKeyJoin?_eq_none_iff :
    foreignKeyJoin? source target = none ↔ ∀ j, ¬ Follows source target j := by
  simp only [Option.eq_none_iff_forall_ne_some, ne_eq, foreignKeyJoin?_eq_some_iff]

theorem sharedKeyJoin?_eq_none_iff : sharedKeyJoin? s t = none ↔ ∀ j, ¬ Shares s t j := by
  simp only [Option.eq_none_iff_forall_ne_some, ne_eq, sharedKeyJoin?_eq_some_iff]

theorem infers_inferNamed? (catalog : Catalog) (heuristic : Bool) (a b : String) :
    Infers catalog heuristic a b (inferNamed? catalog heuristic a b) := by
  by_cases hunnamed : (∀ t, ¬ Names catalog a t) ∨ ∀ t, ¬ Names catalog b t
  · rw [inferNamed?_of_unnamed hunnamed]
    exact .unnamed hunnamed
  · simp only [not_or, not_forall, not_not] at hunnamed
    obtain ⟨⟨s, ha⟩, t, hb⟩ := hunnamed
    rw [inferNamed?_of_names ha hb, between?]
    by_cases hid : s.id = t.id
    · rw [if_pos hid]
      exact .same ha hb hid
    rw [if_neg hid]
    cases hst : foreignKeyJoin? s t with
    | some j => exact .forward ha hb hid (foreignKeyJoin?_eq_some_iff.1 hst)
    | none =>
      have hforward := foreignKeyJoin?_eq_none_iff.1 hst
      cases hts : foreignKeyJoin? t s with
      | some j => exact .backward ha hb hid hforward (foreignKeyJoin?_eq_some_iff.1 hts)
      | none =>
        have hbackward := foreignKeyJoin?_eq_none_iff.1 hts
        cases heuristic with
        | false => exact .unrelated ha hb hid hforward hbackward fun h => absurd h Bool.false_ne_true
        | true =>
          cases hkey : sharedKeyJoin? s t with
          | some j =>
            exact .shared ha hb hid hforward hbackward rfl (sharedKeyJoin?_eq_some_iff.1 hkey)
          | none =>
            exact .unrelated ha hb hid hforward hbackward fun _ => sharedKeyJoin?_eq_none_iff.1 hkey

theorem Infers.eq (h : Infers catalog heuristic a b r) : inferNamed? catalog heuristic a b = r := by
  cases h with
  | unnamed h => exact inferNamed?_of_unnamed h
  | same ha hb hid => rw [inferNamed?_of_names ha hb, between?, if_pos hid]
  | forward ha hb hid hj =>
    rw [inferNamed?_of_names ha hb, between?, if_neg hid, foreignKeyJoin?_eq_some_iff.2 hj]
    rfl
  | backward ha hb hid hforward hj =>
    rw [inferNamed?_of_names ha hb, between?, if_neg hid, foreignKeyJoin?_eq_none_iff.2 hforward,
      foreignKeyJoin?_eq_some_iff.2 hj]
    rfl
  | shared ha hb hid hforward hbackward hheuristic hj =>
    rw [inferNamed?_of_names ha hb, between?, if_neg hid, foreignKeyJoin?_eq_none_iff.2 hforward,
      foreignKeyJoin?_eq_none_iff.2 hbackward, if_pos hheuristic, sharedKeyJoin?_eq_some_iff.2 hj]
    rfl
  | unrelated ha hb hid hforward hbackward hshared =>
    rw [inferNamed?_of_names ha hb, between?, if_neg hid, foreignKeyJoin?_eq_none_iff.2 hforward,
      foreignKeyJoin?_eq_none_iff.2 hbackward]
    split_ifs with hheuristic
    · rw [sharedKeyJoin?_eq_none_iff.2 (hshared hheuristic)]
      rfl
    · rfl

/-- Foreign keys of the source refer to the target exactly if a join follows one of them. -/
theorem exists_follows_iff : (∃ j, Follows source target j) ↔ source.Refers target := by
  constructor
  · rintro ⟨j, hj⟩
    cases hj with
    | full hc hname => exact ⟨_, hc.mem, _, .inl hname⟩
    | short hnone hc hname => exact ⟨_, hc.mem, _, .inr hname⟩
  · rintro ⟨c, hc, name, hname⟩
    obtain ⟨key, hkey, hpoints⟩ :
        ∃ key, c.foreignKey? = some key ∧ key.pointsTo target.id = true := by
      rcases hname with hname | hname
      · exact ⟨_, refersInFull_iff.1 hname, pointsTo_target_iff.2 (.inl rfl)⟩
      · exact ⟨_, refersInShort_iff.1 hname, pointsTo_target_iff.2 (.inr rfl)⟩
    have hmem := mem_references.2 ⟨hc, hkey, hpoints⟩
    by_contra hnone
    have hjoin := foreignKeyJoin?_eq_none_iff.2 (not_exists.1 hnone)
    rw [foreignKeyJoin?, Option.map_eq_none_iff, Option.or_eq_none_iff, List.head?_eq_none_iff] at hjoin
    rw [hjoin.2] at hmem
    cases hmem

theorem Infers.none_symm (h : Infers catalog false a b none) : Infers catalog false b a none := by
  cases h with
  | unnamed h => exact .unnamed h.symm
  | same ha hb hid => exact .same hb ha hid.symm
  | unrelated ha hb hid hforward hbackward _ =>
    exact .unrelated hb ha hid.symm hbackward hforward fun h => absurd h Bool.false_ne_true

theorem exists_infers_of_refers (heuristic : Bool) (ha : Names catalog a s) (hb : Names catalog b t)
    (hst : s.Refers t) (hts : ¬ t.Refers s) :
    ∃ j, Infers catalog heuristic a b (some j) ∧ Infers catalog heuristic b a (some j) := by
  obtain ⟨j, hj⟩ := exists_follows_iff.2 hst
  have hnone : ∀ j, ¬ Follows t s j := fun j hj => hts (exists_follows_iff.1 ⟨j, hj⟩)
  have hid : s.id ≠ t.id := by
    intro hid
    obtain rfl := ha.eq_of_id_eq hb hid
    exact hts hst
  exact ⟨j, .forward ha hb hid hj, .backward hb ha hid.symm hnone hj⟩

end infers

/-- What is proposed for two tables given by name is what goes before all else. Where foreign keys
lead from only one of them to the other, both orders give the same join, and without shared keys
nothing is proposed in one order exactly if nothing is in the other. -/
theorem inferNamed?_precedence (catalog : Catalog) (heuristic : Bool) (a b : String) :
    (∀ r, inferNamed? catalog heuristic a b = r ↔ Infers catalog heuristic a b r) ∧
      (∀ s t, Names catalog a s → Names catalog b t → Xor (s.Refers t) (t.Refers s) →
        ∃ j, inferNamed? catalog heuristic a b = some j ∧
          inferNamed? catalog heuristic b a = some j) ∧
      (inferNamed? catalog false a b = none ↔ inferNamed? catalog false b a = none) := by
  have hiff (heuristic : Bool) (a b : String) (r : Option Join) :
      inferNamed? catalog heuristic a b = r ↔ Infers catalog heuristic a b r :=
    ⟨fun h => h ▸ infers_inferNamed? catalog heuristic a b, Infers.eq⟩
  refine ⟨hiff heuristic a b, fun s t ha hb hrefers => ?_, ?_⟩
  · simp only [hiff]
    rcases hrefers with ⟨hst, hts⟩ | ⟨hts, hst⟩
    · exact exists_infers_of_refers heuristic ha hb hst hts
    · obtain ⟨j, hba, hab⟩ := exists_infers_of_refers heuristic hb ha hts hst
      exact ⟨j, hab, hba⟩
  · simp only [hiff]
    exact ⟨Infers.none_symm, Infers.none_symm⟩

end Relation

namespace Sample

open QueryDraft.Relation

/-- The entries refer to the orders of the sales twice, and first without their schema. -/
def entries : Table where
  name := "entries"
  columns := [
    { name := "order_id", isForeignKey := true, references := some "orders.id" },
    { name := "order_code", isForeignKey := true, references := some " sales.orders.code" }]

def salesOrders : Table where
  name := "orders"
  schema := "sales"
  columns := [{ name := "id", isPrimaryKey := true }, { name := "code" }]

def ledger : Catalog where
  name := "ledger"
  tables := [entries, salesOrders]

def ledgerJoin : Join :=
  propose (entries.id.column "order_code") .left (salesOrders.id.column "code")

theorem inferNamed?_precedence_ledger :
    Infers ledger true "entries" "sales.orders" (some ledgerJoin) ∧
      inferNamed? ledger true "sales.orders" "entries" = some ledgerJoin ∧
      inferNamed? ledger false "orders" "entries" = none := by
  obtain ⟨hiff, hsame, -⟩ := inferNamed?_precedence ledger true "entries" "sales.orders"
  have hjoin : inferNamed? ledger true "entries" "sales.orders" = some ledgerJoin := by rfl
  have hrefers : entries.Refers salesOrders :=
    exists_follows_iff.1 ⟨ledgerJoin, foreignKeyJoin?_eq_some_iff.1 (by rfl)⟩
  have hnot : ¬ salesOrders.Refers entries := fun h => by
    obtain ⟨j, hj⟩ := exists_follows_iff.2 h
    have hnone : foreignKeyJoin? salesOrders entries = none := by rfl
    cases hnone.symm.trans (foreignKeyJoin?_eq_some_iff.2 hj)
  obtain ⟨j, hforward, hbackward⟩ := hsame entries salesOrders (names_iff.2 (by rfl))
    (names_iff.2 (by rfl)) (.inl ⟨hrefers, hnot⟩)
  cases hjoin.symm.trans hforward
  -- without a schema the name is that of a table of the public one, which has no orders
  exact ⟨(hiff _).1 hjoin, hbackward,
    (inferNamed?_precedence ledger true "entries" "orders").2.2.1 (by rfl)⟩

end Sample

end QueryDraft
