import Mathlib
import QueryDraft.Proofs.Edits
import QueryDraft.Proofs.ValidEdits
import QueryDraft.Relation

/-!
# Proposed joins

A join that is proposed for two tables leads from a column of one of them to a column of the other
(`Relation.Reaches`). The column that it leads to is there, unless a foreign key names one that the
table does not have: nothing looks for it (`Relation.Dangles`). So a draft that has both tables takes
the join, and its references stay in order except for that column (`Relation.usable_of_inferRef?`).
-/

namespace QueryDraft

namespace Relation

variable {catalog : Catalog} {heuristic : Bool} {source target : Table} {t u : TableId} {j : Join}
  {d : Draft}

/-! ### Two tables -/

/-- A join from a column of one table to the other: to the column that a foreign key names, which
need not exist, or to the column of the same name. -/
inductive Reaches (source target : Table) : Join → Prop where
  | follow {c : Column} {key : ForeignKey} (hc : c ∈ source.columns)
      (hkey : c.foreignKey? = some key) (hpoints : key.pointsTo target.id = true) :
      Reaches source target (propose (source.id.column c.name) .left (target.id.column key.column))
  | share {c : Column} (hc : c ∈ source.columns) (hshared : target.hasColumn c.name = true) :
      Reaches source target (propose (source.id.column c.name) .inner (target.id.column c.name))

theorem mem_references {c : Column} {key : ForeignKey} : (c, key) ∈ references source target ↔
    c ∈ source.columns ∧ c.foreignKey? = some key ∧ key.pointsTo target.id = true := by
  unfold references
  rw [List.mem_filter, List.mem_filterMap]
  constructor
  · rintro ⟨⟨c', hc, hkey⟩, hpoints⟩
    obtain ⟨key', hkey, heq⟩ := Option.map_eq_some_iff.1 hkey
    cases heq
    exact ⟨hc, hkey, hpoints⟩
  · rintro ⟨hc, hkey, hpoints⟩
    exact ⟨⟨c, hc, Option.map_eq_some_iff.2 ⟨key, hkey, rfl⟩⟩, hpoints⟩

theorem reaches_of_foreignKeyJoin? (h : foreignKeyJoin? source target = some j) :
    Reaches source target j := by
  obtain ⟨⟨c, key⟩, hfound, rfl⟩ := Option.map_eq_some_iff.1 h
  have hmem : (c, key) ∈ references source target := by
    rcases Option.or_eq_some_iff.1 hfound with hfind | ⟨-, hhead⟩
    · exact List.mem_of_find?_eq_some hfind
    · exact List.mem_of_mem_head? hhead
  obtain ⟨hc, hkey, hpoints⟩ := mem_references.1 hmem
  exact .follow hc hkey hpoints

theorem reaches_of_sharedKeyJoin? (h : sharedKeyJoin? source target = some j) :
    Reaches source target j := by
  unfold sharedKeyJoin? at h
  split_ifs at h
  obtain ⟨c, hfind, rfl⟩ := Option.map_eq_some_iff.1 h
  have hkey := List.find?_some hfind
  rw [Bool.and_eq_true, Option.any_eq_true] at hkey
  obtain ⟨-, shared, hshared, -⟩ := hkey
  exact .share (List.mem_of_find?_eq_some hfind) (Option.isSome_of_eq_some hshared)

theorem reaches_of_between? (h : between? heuristic source target = some j) :
    source.id ≠ target.id ∧ (Reaches source target j ∨ Reaches target source j) := by
  unfold between? at h
  split_ifs at h with hid hheuristic
  · refine ⟨hid, ?_⟩
    rcases Option.or_eq_some_iff.1 h with hforeign | ⟨-, hshared⟩
    · rcases Option.or_eq_some_iff.1 hforeign with hforeign | ⟨-, hforeign⟩
      · exact .inl (reaches_of_foreignKeyJoin? hforeign)
      · exact .inr (reaches_of_foreignKeyJoin? hforeign)
    · exact .inl (reaches_of_sharedKeyJoin? hshared)
  · refine ⟨hid, ?_⟩
    rcases Option.or_eq_some_iff.1 ((Option.or_none).symm.trans h) with hforeign | ⟨-, hforeign⟩
    · exact .inl (reaches_of_foreignKeyJoin? hforeign)
    · exact .inr (reaches_of_foreignKeyJoin? hforeign)

/-! ### Two tables of a catalog -/

/-- The join follows a foreign key of its source column to a column that the target table does not
have. -/
structure Dangles (catalog : Catalog) (j : Join) : Prop where
  follows : ∃ source ∈ catalog.table? j.source.table, ∃ c ∈ source.columns, c.name = j.source.name ∧
    ∃ key, c.foreignKey? = some key ∧ key.pointsTo j.target.table = true ∧ key.column = j.target.name
  kind : j.kind = .left
  missing : catalog.column? j.target = none

/-- The join connects the two tables of the catalog. Its columns exist, unless it dangles. -/
structure Connects (catalog : Catalog) (t u : TableId) (j : Join) : Prop where
  ne : t ≠ u
  known : catalog.hasTable t = true ∧ catalog.hasTable u = true
  ends : (j.source.table = t ∧ j.target.table = u) ∨ (j.source.table = u ∧ j.target.table = t)
  source : (catalog.column? j.source).isSome = true
  target : (catalog.column? j.target).isSome = true ∨ Dangles catalog j

theorem Connects.symm (h : Connects catalog t u j) : Connects catalog u t j where
  ne := h.ne.symm
  known := h.known.symm
  ends := h.ends.symm
  source := h.source
  target := h.target

theorem connects_of_reaches (hsource : catalog.table? t = some source)
    (htarget : catalog.table? u = some target) (hne : t ≠ u) (h : Reaches source target j) :
    Connects catalog t u j := by
  have hknown : catalog.hasTable t = true ∧ catalog.hasTable u = true :=
    ⟨Option.isSome_of_eq_some hsource, Option.isSome_of_eq_some htarget⟩
  have hcolumn : ∀ c ∈ source.columns, (catalog.column? (t.column c.name)).isSome = true := by
    intro c hc
    rw [Catalog.column?_of_table? (k := t.column c.name) hsource]
    exact List.find?_isSome.2 ⟨c, hc, beq_self_eq_true c.name⟩
  obtain rfl := Catalog.id_of_table? hsource
  obtain rfl := Catalog.id_of_table? htarget
  cases h with
  | @follow c key hc hkey hpoints =>
    refine ⟨hne, hknown, .inl ⟨rfl, rfl⟩, hcolumn c hc, ?_⟩
    cases hfound : catalog.column? (target.id.column key.column) with
    | some k => exact .inl (Option.isSome_of_eq_some hfound)
    | none => exact .inr ⟨⟨source, hsource, c, hc, rfl, key, hkey, hpoints, rfl⟩, rfl, hfound⟩
  | @share c hc hshared =>
    have hfound : (catalog.column? (target.id.column c.name)).isSome = true := by
      rw [Catalog.column?_of_table? (k := target.id.column c.name) htarget]
      exact hshared
    exact ⟨hne, hknown, .inl ⟨rfl, rfl⟩, hcolumn c hc, .inl hfound⟩

theorem connects_of_infer? (h : infer? catalog heuristic t u = some j) : Connects catalog t u j := by
  obtain ⟨source, hsource, h⟩ := Option.bind_eq_some_iff.1 h
  obtain ⟨target, htarget, h⟩ := Option.bind_eq_some_iff.1 h
  obtain ⟨hid, hreaches⟩ := reaches_of_between? h
  rw [Catalog.id_of_table? hsource, Catalog.id_of_table? htarget] at hid
  rcases hreaches with hreaches | hreaches
  · exact connects_of_reaches hsource htarget hid hreaches
  · exact (connects_of_reaches htarget hsource hid.symm hreaches).symm

/-! ### Taking the proposal -/

theorem referenceFaults_append_join (d : Draft) (j : Join) :
    Draft.referenceFaults catalog { d with joins := d.joins ++ [j] } =
      d.referenceFaults catalog ++ d.joinFaults catalog j := by
  have hjoins : (d.joins ++ [j]).flatMap (d.joinFaults catalog) =
      d.joins.flatMap (d.joinFaults catalog) ++ d.joinFaults catalog j := by
    rw [List.flatMap_append, List.flatMap_singleton]
  unfold Draft.referenceFaults
  rw [List.append_assoc _ _ (d.joinFaults catalog j), ← hjoins]
  rfl

theorem Connects.selected {ts : List TableId} (h : Connects catalog t u j) (ht : t ∈ ts)
    (hu : u ∈ ts) :
    j.source.table ≠ j.target.table ∧ j.source.table ∈ ts ∧ j.target.table ∈ ts := by
  rcases h.ends with ⟨hs, ht'⟩ | ⟨hs, ht'⟩
  · rw [hs, ht']
    exact ⟨h.ne, ht, hu⟩
  · rw [hs, ht']
    exact ⟨h.ne.symm, hu, ht⟩

theorem Connects.joinFaults (h : Connects catalog t u j)
    (hknown : ∀ t ∈ d.tables, catalog.hasTable t = true) (ht : t ∈ d.tables) (hu : u ∈ d.tables) :
    d.joinFaults catalog j = [] ∨
      Dangles catalog j ∧ d.joinFaults catalog j = [.unknownColumn .join j.target] := by
  obtain ⟨hne, hs, ht⟩ := h.selected ht hu
  rcases h.target with htarget | hdangles
  · exact .inl ((Draft.joinFaults_eq_nil_iff hknown).2 ⟨hne, ⟨hs, h.source⟩, ⟨ht, htarget⟩⟩)
  · refine .inr ⟨hdangles, ?_⟩
    have hsource : d.columnFaults catalog .join j.source = [] :=
      (Draft.columnFaults_eq_nil_iff hknown).2 ⟨hs, h.source⟩
    obtain ⟨tab, htab⟩ := Option.isSome_iff_exists.1 (hknown _ ht)
    have hmissing : tab.hasColumn j.target.name = false := by
      rw [Table.hasColumn, ← Catalog.column?_of_table? htab, hdangles.missing, Option.isSome_none]
    rw [Draft.joinFaults, if_neg hne, hsource, List.nil_append, Draft.columnFaults, if_pos ht, htab]
    simp [hmissing]

theorem Connects.exists_addJoin (h : Connects catalog t u j) (hd : d.referenceFaults catalog = [])
    (ht : t ∈ d.tables) (hu : u ∈ d.tables) : ∃ d', d.addJoin j = .ok d' ∧
      (d'.referenceFaults catalog = [] ∨
        Dangles catalog j ∧ d'.referenceFaults catalog = [.unknownColumn .join j.target]) := by
  by_cases hid : j.id ∈ d.joins.map Join.id
  · exact ⟨d, Draft.addJoin_eq_ok_iff.2 (.inl ⟨hid, rfl⟩), .inl hd⟩
  · obtain ⟨hne, hsource, htarget⟩ := h.selected ht hu
    refine ⟨_, Draft.addJoin_eq_ok_iff.2 (.inr ⟨hid, hne, hsource, htarget, rfl⟩), ?_⟩
    rw [referenceFaults_append_join, hd, List.nil_append]
    exact h.joinFaults (Draft.grounded_iff.2 hd).tables ht hu

/-- What is proposed for two tables connects them. With both selected, a draft whose references are
in order takes the join, and they are in order afterwards too; only the column that a foreign key
names may be missing, which is then the one fault. -/
theorem usable_of_inferRef? {a b : TableRef} (h : inferRef? catalog heuristic a b = some j) :
    ∃ t u, a.id? = some t ∧ b.id? = some u ∧ Connects catalog t u j ∧ ∀ d : Draft,
      (d.referenceFaults catalog = [] →
        ((d.addTable t).addTable u).referenceFaults catalog = []) ∧
      (((d.addTable t).addTable u).referenceFaults catalog = [] →
        ∃ d', ((d.addTable t).addTable u).addJoin j = .ok d' ∧
          (d'.referenceFaults catalog = [] ∨
            Dangles catalog j ∧ d'.referenceFaults catalog = [.unknownColumn .join j.target])) := by
  obtain ⟨t, ha, h⟩ := Option.bind_eq_some_iff.1 h
  obtain ⟨u, hb, h⟩ := Option.bind_eq_some_iff.1 h
  have hconnects := connects_of_infer? h
  refine ⟨t, u, ha, hb, hconnects, fun d => ⟨fun hd => ?_, fun hd => ?_⟩⟩
  · have hgrounded := (Draft.grounded_iff.2 hd).addTable hconnects.known.1
    exact Draft.grounded_iff.1 (hgrounded.addTable hconnects.known.2)
  · have ht : t ∈ ((d.addTable t).addTable u).tables :=
      mem_insertLast.2 (.inl (Draft.Coherent.mem_tables_addTable d t))
    have hu : u ∈ ((d.addTable t).addTable u).tables :=
      Draft.Coherent.mem_tables_addTable (d.addTable t) u
    exact hconnects.exists_addJoin hd ht hu

end Relation

namespace Sample

/-- The refunds' reference names no schema, so it also fits the archived orders. -/
def refundOfArchived : Join :=
  Relation.propose (refunds.column "order_id") .left (archived.column "id")

theorem usable_of_inferRef?_refunds :
    Relation.inferRef? .multiSchema true (.id archived) (.name " sales.refunds") =
        some refundOfArchived ∧
      Relation.Connects .multiSchema archived refunds refundOfArchived ∧
      ∃ d, (((Draft.blank usualLimit).addTable archived).addTable refunds).addJoin refundOfArchived =
          .ok d ∧ d.referenceFaults .multiSchema = [] := by
  have h : Relation.inferRef? .multiSchema true (.id archived) (.name " sales.refunds") =
      some refundOfArchived := by rfl
  obtain ⟨t, u, ha, hb, hconnects, husable⟩ := Relation.usable_of_inferRef? h
  cases ha
  cases hb
  obtain ⟨hselected, hjoined⟩ := husable (Draft.blank usualLimit)
  obtain ⟨d, hd, hfaults | ⟨hdangles, -⟩⟩ := hjoined (hselected (by decide))
  · exact ⟨h, hconnects, d, hd, hfaults⟩
  · exact absurd hdangles.missing (by decide)

/-- The foreign key names a column that its table does not have. -/
def recoded : Catalog where
  name := "recoded"
  tables := [
    { name := "a", columns := [{ name := "b_id", isForeignKey := true, references := some "b.code" }] },
    { name := "b", columns := [{ name := "id", isPrimaryKey := true }] }]

def recodedJoin : Join :=
  Relation.propose ⟨⟨"public", "a"⟩, "b_id"⟩ .left ⟨⟨"public", "b"⟩, "code"⟩

theorem usable_of_inferRef?_recoded :
    Relation.inferRef? recoded true (.name "a") (.name "b") = some recodedJoin ∧
      recoded.column? recodedJoin.target = none ∧
      ∃ d, (((Draft.blank usualLimit).addTable ⟨"public", "a"⟩).addTable ⟨"public", "b"⟩).addJoin
          recodedJoin = .ok d ∧
        d.referenceFaults recoded = [.unknownColumn .join recodedJoin.target] :=
  ⟨by rfl, by rfl, _, by rfl, by rfl⟩

end Sample

end QueryDraft
