import Mathlib
import QueryDraft.Proofs.DistinctIds
import QueryDraft.Proofs.Documents
import QueryDraft.Proofs.ValidEdits

/-!
# What a change does to an entry

A change of a join, filter or sort key reads the entry again from its own fields with the changes put
over them. Where the names of an entry are such as a text stands for, a field is after that what the
changes give for it, and what it was if they do not name it (`Join.Becomes` and its like), since what
an entry is written as reads back. So a change of a draft replaces one entry, the first that has the
id, by what it becomes, and is refused for an unknown id exactly if no entry has it (`ChangesFirst`).
-/

namespace QueryDraft

open Reading (FieldName field)

/-! ### Fields -/

namespace Reading.FieldName

variable {α : Type} {name : FieldName} {fields changes : List (String × Json)}

/-- A field that was `old` is `new` after some changes. -/
def Becomes (name : FieldName) (read : Json → Reading α) (changes : List (String × Json))
    (old new : α) : Prop :=
  match name.entry? changes with
  | some v => read v = .value new
  | none => new = old

/-- What changes give under either name counts before what the entry has under the plain one. -/
theorem entry?_changed {id : String} (hnodup : (fields.map Prod.fst).Nodup)
    (hdocument : name.document ≠ "id") (hplain : name.plain ≠ "id")
    (hown : name.document = name.plain ∨ Entries.last? fields name.document = none) :
    name.entry? (Draft.changed fields changes id) =
      (name.entry? changes).or (Entries.last? fields name.plain) := by
  unfold entry?
  rw [Draft.last?_changed hnodup, Draft.last?_changed hnodup, if_neg hdocument, if_neg hplain]
  rcases hown with hsame | hnone
  · rw [hsame, Option.or_self, Option.or_self]
  · rw [hnone, Option.or_none, Option.or_assoc]

theorem field_changed_iff {default? : Option α} {read : Json → Reading α} {id : String} {w : Json}
    {old new : α} (hnodup : (fields.map Prod.fst).Nodup) (hdocument : name.document ≠ "id")
    (hplain : name.plain ≠ "id")
    (hown : name.document = name.plain ∨ Entries.last? fields name.document = none)
    (hfield : Entries.last? fields name.plain = some w) (hread : read w = .value old) :
    field name default? read (Draft.changed fields changes id) = .value new ↔
      name.Becomes read changes old new := by
  rw [field_eq_value, entry?_changed hnodup hdocument hplain hown, hfield]
  unfold Becomes
  cases name.entry? changes with
  | some v => simp
  | none => simp [hread, eq_comm]

theorem field_id_changed_iff {fresh id id' : String} (hnodup : (fields.map Prod.fst).Nodup) :
    field ⟨"id", "id"⟩ (some fresh) text (Draft.changed fields changes id) = .value id' ↔ id' = id := by
  refine ⟨Draft.field_id_changed hnodup fresh, ?_⟩
  rintro rfl
  refine field_of_entry (v := .str id') ?_ rfl
  simp [FieldName.entry?, Draft.last?_changed hnodup]

end Reading.FieldName

/-! ### Entries -/

section entries

variable {changes : List (String × Json)} {fresh : String}

/-- A join after some changes. -/
@[mk_iff]
structure Join.Becomes (changes : List (String × Json)) (j k : Join) : Prop where
  id : k.id = j.id
  fromTable : FieldName.Becomes ⟨"fromTable", "from_table"⟩ TableId.read changes
    j.source.table k.source.table
  fromColumn : FieldName.Becomes ⟨"fromColumn", "from_column"⟩ Reading.text changes
    j.source.name k.source.name
  kind : FieldName.Becomes ⟨"type", "type"⟩ (Reading.member JoinKind.ofWord?) changes j.kind k.kind
  toTable : FieldName.Becomes ⟨"toTable", "to_table"⟩ TableId.read changes
    j.target.table k.target.table
  toColumn : FieldName.Becomes ⟨"toColumn", "to_column"⟩ Reading.text changes
    j.target.name k.target.name

/-- A filter after some changes. -/
@[mk_iff]
structure Filter.Becomes (changes : List (String × Json)) (f g : Filter) : Prop where
  id : g.id = f.id
  column : FieldName.Becomes ⟨"column", "column"⟩ ColumnId.read changes f.column g.column
  operator : FieldName.Becomes ⟨"operator", "operator"⟩ (Reading.member Operator.ofWord?) changes
    f.operator g.operator
  value : FieldName.Becomes ⟨"value", "value"⟩ Filter.readValue changes f.value g.value

/-- A sort key after some changes. -/
@[mk_iff]
structure SortKey.Becomes (changes : List (String × Json)) (s r : SortKey) : Prop where
  id : r.id = s.id
  column : FieldName.Becomes ⟨"column", "column"⟩ ColumnId.read changes s.column r.column
  direction : FieldName.Becomes ⟨"direction", "direction"⟩ (Reading.member Direction.ofWord?) changes
    s.direction r.direction

theorem Join.becomes_nil (j : Join) : j.Becomes [] j := ⟨rfl, rfl, rfl, rfl, rfl, rfl⟩

theorem Filter.becomes_nil (f : Filter) : f.Becomes [] f := ⟨rfl, rfl, rfl, rfl⟩

theorem SortKey.becomes_nil (s : SortKey) : s.Becomes [] s := ⟨rfl, rfl, rfl⟩

theorem Join.ofEntries_changed_iff {j k : Join} (hsource : j.source.table.IsSpelled)
    (htarget : j.target.table.IsSpelled) :
    ofEntries fresh (Draft.changed j.plainEntries changes j.id) = .value k ↔ j.Becomes changes k := by
  have hnodup := Draft.nodup_plainEntries j
  -- a join has its fields under plain names; all but the kind have another name in documents
  have htext (s : String) : Reading.text (.str s) = .value s := rfl
  have hkind : Reading.member JoinKind.ofWord? (.str j.kind.word) = .value j.kind :=
    Reading.member_eq_value_iff.2 ⟨_, rfl, JoinKind.ofWord?_word j.kind⟩
  rw [ofEntries_eq_value, becomes_iff, FieldName.field_id_changed_iff hnodup,
    FieldName.field_changed_iff hnodup (by decide) (by decide) (.inr rfl) rfl
      (Draft.read_tableText hsource),
    FieldName.field_changed_iff hnodup (by decide) (by decide) (.inr rfl) rfl (htext _),
    FieldName.field_changed_iff hnodup (by decide) (by decide) (.inl rfl) rfl hkind,
    FieldName.field_changed_iff hnodup (by decide) (by decide) (.inr rfl) rfl
      (Draft.read_tableText htarget),
    FieldName.field_changed_iff hnodup (by decide) (by decide) (.inr rfl) rfl (htext _)]

theorem Filter.ofEntries_changed_iff {f g : Filter} (hcolumn : f.column.IsSpelled) :
    ofEntries fresh (Draft.changed f.entries changes f.id) = .value g ↔ f.Becomes changes g := by
  have hnodup := Draft.nodup_filterEntries f
  have hvalue : readValue (.str f.value) = .value f.value := rfl
  have hoperator : Reading.member Operator.ofWord? (.str f.operator.word) = .value f.operator :=
    Reading.member_eq_value_iff.2 ⟨_, rfl, Operator.ofWord?_word f.operator⟩
  rw [ofEntries_eq_value, becomes_iff, FieldName.field_id_changed_iff hnodup,
    FieldName.field_changed_iff hnodup (by decide) (by decide) (.inl rfl) rfl
      (Draft.read_columnText hcolumn),
    FieldName.field_changed_iff hnodup (by decide) (by decide) (.inl rfl) rfl hoperator,
    FieldName.field_changed_iff hnodup (by decide) (by decide) (.inl rfl) rfl hvalue]

theorem SortKey.ofEntries_changed_iff {s r : SortKey} (hcolumn : s.column.IsSpelled) :
    ofEntries fresh (Draft.changed s.entries changes s.id) = .value r ↔ s.Becomes changes r := by
  have hnodup := Draft.nodup_sortEntries s
  have hdirection : Reading.member Direction.ofWord? (.str s.direction.word) = .value s.direction :=
    Reading.member_eq_value_iff.2 ⟨_, rfl, Direction.ofWord?_word s.direction⟩
  rw [ofEntries_eq_value, becomes_iff, FieldName.field_id_changed_iff hnodup,
    FieldName.field_changed_iff hnodup (by decide) (by decide) (.inl rfl) rfl
      (Draft.read_columnText hcolumn),
    FieldName.field_changed_iff hnodup (by decide) (by decide) (.inl rfl) rfl hdirection]

end entries

/-! ### The first entry with an id -/

section first

variable {α : Type} {idOf : α → String} {as before after : List α} {a b : α} {id : String}
  {set : List α → Draft} {d d' : Draft} {changes : List (String × Json)}

/-- The change of an id replaces the first entry that has it by what this becomes, which must be
allowed. Without any changes the draft stays as it is, and the id is unknown only if no entry has
it. -/
structure ChangesFirst (d : Draft) (idOf : α → String) (as : List α) (set : List α → Draft)
    (Becomes : List (String × Json) → α → α → Prop) (Allowed : α → Prop)
    (change : String → List (String × Json) → Except Failure Draft) : Prop where
  changed : ∀ id changes d', change id changes = .ok d' ↔
    ∃ before a after b, as = before ++ a :: after ∧ (∀ x ∈ before, idOf x ≠ id) ∧ idOf a = id ∧
      Becomes changes a b ∧ Allowed b ∧ d' = set (before ++ b :: after)
  unchanged : ∀ id ∈ as.map idOf, change id [] = .ok d
  unknown : ∀ id changes v, change id changes = .error (.unknownEntry v) ↔
    v = .str id ∧ id ∉ as.map idOf

theorem exists_first (h : id ∈ as.map idOf) :
    ∃ before a after, as = before ++ a :: after ∧ (∀ x ∈ before, idOf x ≠ id) ∧ idOf a = id := by
  obtain ⟨ids, ids', hids, hnot⟩ := List.eq_append_cons_of_mem h
  obtain ⟨before, rest, rfl, rfl, hrest⟩ := List.map_eq_append_iff.1 hids
  obtain ⟨a, after, rfl, ha, _⟩ := List.map_eq_cons_iff.1 hrest
  exact ⟨before, a, after, rfl, fun x hx heq => hnot (heq ▸ List.mem_map_of_mem hx), ha⟩

theorem replaceFirst_of_forall_ne (h : ∀ x ∈ as, idOf x ≠ id) (f : α → Except Failure α) :
    Draft.replaceFirst (idOf · == id) f as = .ok none := by
  induction as with
  | nil => rfl
  | cons x as ih =>
    rw [List.forall_mem_cons] at h
    rw [Draft.replaceFirst, if_neg (by simpa using h.1), ih h.2]
    rfl

variable {fields : α → List (String × Json)} {read : String → List (String × Json) → Reading α}
  {check : α → Except Fault Unit}

/-- The entry that changes make of an entry, which is checked. -/
def amend (fields : α → List (String × Json)) (read : String → List (String × Json) → Reading α)
    (check : α → Except Fault Unit) (id : String) (changes : List (String × Json)) (a : α) :
    Except Failure α := do
  let b ← (read id (Draft.changed (fields a) changes id)).orFail
  (check b).mapError .fault
  return b

theorem amend_eq_ok_iff : amend fields read check id changes a = .ok b ↔
    read id (Draft.changed (fields a) changes id) = .value b ∧ check b = .ok () := by
  simp only [amend, bind_eq_ok_iff, pure_eq_ok_iff, mapError_eq_ok_iff, Reading.orFail_eq_ok_iff]
  constructor
  · rintro ⟨_, hread, _, hcheck, rfl⟩
    exact ⟨hread, hcheck⟩
  · rintro ⟨hread, hcheck⟩
    exact ⟨b, hread, (), hcheck, rfl⟩

/-- An entry that cannot be changed is at fault itself; it is never unknown. -/
theorem amend_ne_unknown (v : Json) :
    amend fields read check id changes a ≠ .error (.unknownEntry v) := by
  unfold amend
  cases read id (Draft.changed (fields a) changes id) with
  | faults issues => rintro ⟨⟩
  | value b =>
    show ((check b).mapError Failure.fault >>= fun _ => pure b) ≠ _
    cases check b <;> rintro ⟨⟩

/-- Joins, filters and sort keys are changed in one way. -/
def changeFirst (idOf : α → String) (fields : α → List (String × Json))
    (read : String → List (String × Json) → Reading α) (check : α → Except Fault Unit)
    (as : List α) (set : List α → Draft) (id : String) (changes : List (String × Json)) :
    Except Failure Draft := do
  let found ← Draft.replaceFirst (idOf · == id) (amend fields read check id changes) as
  return set (← Draft.orUnknown id found)

theorem changeFirst_append (hbefore : ∀ x ∈ before, idOf x ≠ idOf a) :
    changeFirst idOf fields read check (before ++ a :: after) set (idOf a) changes =
      (amend fields read check (idOf a) changes a).map fun b => set (before ++ b :: after) := by
  rw [changeFirst, replaceFirst_append hbefore]
  cases amend fields read check (idOf a) changes a <;> rfl

theorem changeFirst_of_forall_ne (h : ∀ x ∈ as, idOf x ≠ id) :
    changeFirst idOf fields read check as set id changes = .error (.unknownEntry (.str id)) := by
  rw [changeFirst, replaceFirst_of_forall_ne h]
  rfl

variable {Becomes : List (String × Json) → α → α → Prop} {Allowed : α → Prop}

theorem changeFirst_eq_ok_iff (hamend : ∀ a ∈ as, ∀ changes b,
      amend fields read check (idOf a) changes a = .ok b ↔ Becomes changes a b ∧ Allowed b) :
    changeFirst idOf fields read check as set id changes = .ok d' ↔
      ∃ before a after b, as = before ++ a :: after ∧ (∀ x ∈ before, idOf x ≠ id) ∧ idOf a = id ∧
        Becomes changes a b ∧ Allowed b ∧ d' = set (before ++ b :: after) := by
  constructor
  · intro hok
    by_cases hid : id ∈ as.map idOf
    · obtain ⟨before, a, after, rfl, hbefore, rfl⟩ := exists_first hid
      rw [changeFirst_append hbefore] at hok
      obtain ⟨b, hb, rfl⟩ := map_eq_ok_iff.1 hok
      obtain ⟨hbecomes, hallowed⟩ := (hamend a (by simp) changes b).1 hb
      exact ⟨before, a, after, b, rfl, hbefore, rfl, hbecomes, hallowed, rfl⟩
    · rw [changeFirst_of_forall_ne (by simpa using hid)] at hok
      cases hok
  · rintro ⟨before, a, after, b, rfl, hbefore, rfl, hbecomes, hallowed, rfl⟩
    rw [changeFirst_append hbefore, (hamend a (by simp) changes b).2 ⟨hbecomes, hallowed⟩]
    rfl

theorem changeFirst_eq_unknown_iff {v : Json} :
    changeFirst idOf fields read check as set id changes = .error (.unknownEntry v) ↔
      v = .str id ∧ id ∉ as.map idOf := by
  by_cases hid : id ∈ as.map idOf
  · refine ⟨fun herror => ?_, fun h => absurd hid h.2⟩
    obtain ⟨before, a, after, rfl, hbefore, rfl⟩ := exists_first hid
    rw [changeFirst_append hbefore] at herror
    cases hamend : amend fields read check (idOf a) changes a with
    | ok b =>
      rw [hamend] at herror
      cases herror
    | error e =>
      rw [hamend] at herror
      cases herror
      exact absurd hamend (amend_ne_unknown v)
  · rw [changeFirst_of_forall_ne (by simpa using hid)]
    constructor
    · rintro ⟨⟩
      exact ⟨rfl, hid⟩
    · rintro ⟨rfl, _⟩
      rfl

theorem changesFirst (hread : ∀ a ∈ as, ∀ changes b,
      read (idOf a) (Draft.changed (fields a) changes (idOf a)) = .value b ↔ Becomes changes a b)
    (hcheck : ∀ b u, check b = .ok u ↔ Allowed b) (hnil : ∀ a, Becomes [] a a)
    (hallowed : ∀ a ∈ as, Allowed a) (hset : set as = d) :
    ChangesFirst d idOf as set Becomes Allowed (changeFirst idOf fields read check as set) := by
  have hamend : ∀ a ∈ as, ∀ changes b,
      amend fields read check (idOf a) changes a = .ok b ↔ Becomes changes a b ∧ Allowed b := by
    intro a ha changes b
    rw [amend_eq_ok_iff, hread a ha, hcheck]
  refine ⟨fun _ _ _ => changeFirst_eq_ok_iff hamend, fun id hid => ?_,
    fun _ _ _ => changeFirst_eq_unknown_iff⟩
  obtain ⟨before, a, after, rfl, hbefore, ha⟩ := exists_first hid
  refine (changeFirst_eq_ok_iff hamend).2 ⟨before, a, after, a, rfl, hbefore, ha, hnil a, ?_, hset.symm⟩
  exact hallowed a (by simp)

end first

namespace Draft

variable {d : Draft}

/-! ### Drafts -/

/-- Joins, filters and sort keys are changed one at a time, and what an entry becomes refers to
selected tables only. -/
structure ChangesEntries (d : Draft) : Prop where
  joins : ChangesFirst d Join.id d.joins (fun joins => { d with joins }) Join.Becomes
    (fun j => j.source.table ≠ j.target.table ∧ j.source.table ∈ d.tables ∧
      j.target.table ∈ d.tables) d.updateJoin
  filters : ChangesFirst d Filter.id d.filters (fun filters => { d with filters }) Filter.Becomes
    (·.column.table ∈ d.tables) d.updateFilter
  sorts : ChangesFirst d SortKey.id d.orderBy (fun orderBy => { d with orderBy }) SortKey.Becomes
    (·.column.table ∈ d.tables) d.updateSort

theorem Coherent.changesEntries (h : d.Coherent)
    (hjoins : ∀ j ∈ d.joins, j.source.table.IsSpelled ∧ j.target.table.IsSpelled)
    (hfilters : ∀ f ∈ d.filters, f.column.IsSpelled)
    (hsorts : ∀ s ∈ d.orderBy, s.column.IsSpelled) : d.ChangesEntries where
  joins := changesFirst (fun j hj _ _ => Join.ofEntries_changed_iff (hjoins j hj).1 (hjoins j hj).2)
    (fun _ _ => checkJoin_eq_ok_iff) Join.becomes_nil (fun j hj => ⟨h.noLoops j hj, h.joins j hj⟩) rfl
  filters := changesFirst (fun f hf _ _ => Filter.ofEntries_changed_iff (hfilters f hf))
    (fun _ _ => requireTable_eq_ok_iff) Filter.becomes_nil h.filters rfl
  sorts := changesFirst (fun s hs _ _ => SortKey.ofEntries_changed_iff (hsorts s hs))
    (fun _ _ => requireTable_eq_ok_iff) SortKey.becomes_nil h.orderBy rfl

/-- In a draft that comes of a blank one, whatever was done to it, a change of a join, filter or sort
key touches the first entry with the id and nothing else. This entry keeps its place, its id and every
field that the changes do not name, and refers to selected tables, a join to two of them. All that
is asked is that the tables of its joins and the columns of its filters and sort keys are such as a
text stands for. -/
theorem after_blank_changesEntries (ids : IdSupply) (limit : Int) (es : List Edit)
    (hjoins : ∀ j ∈ (after ids 0 (blank limit) es).joins,
      j.source.table.IsSpelled ∧ j.target.table.IsSpelled)
    (hfilters : ∀ f ∈ (after ids 0 (blank limit) es).filters, f.column.IsSpelled)
    (hsorts : ∀ s ∈ (after ids 0 (blank limit) es).orderBy, s.column.IsSpelled) :
    (after ids 0 (blank limit) es).ChangesEntries :=
  (coherent_after 0 (coherent_blank limit) es).changesEntries hjoins hfilters hsorts

end Draft

namespace Sample

/-- Orders by user, sorted, with two filters under one id. -/
def report : List Edit := filteringTwice ++ [
  .addTable userOrders,
  .addJoin byUser,
  .addSort ⟨"s", userOrders.column "created_at", .desc⟩]

def reported : Draft := Draft.after newIds 0 (.blank usualLimit) report

theorem reported_spelled : (∀ j ∈ reported.joins, j.source.table.IsSpelled ∧ j.target.table.IsSpelled) ∧
    (∀ f ∈ reported.filters, f.column.IsSpelled) ∧ ∀ s ∈ reported.orderBy, s.column.IsSpelled := by
  refine ⟨?_, ?_, ?_⟩
  · show ∀ j ∈ [byUser], _
    simpa using ⟨⟨"orders", rfl⟩, ⟨"users", rfl⟩⟩
  · show ∀ f ∈ [Filter.mk "f" (users.column "id") .equal "1", ⟨"f", users.column "name", .equal, "x"⟩], _
    simpa using ⟨⟨"users.id", rfl⟩, ⟨"users.name", rfl⟩⟩
  · show ∀ s ∈ [SortKey.mk "s" (userOrders.column "created_at") .desc], _
    simpa using ⟨"orders.created_at", rfl⟩

/-- Of two filters under one id the first is changed, and its id stays whatever the changes say. -/
theorem after_blank_changesEntries_report :
    (∀ j ∈ reported.joins, j.source.table.IsSpelled ∧ j.target.table.IsSpelled) ∧
    (∀ f ∈ reported.filters, f.column.IsSpelled) ∧ (∀ s ∈ reported.orderBy, s.column.IsSpelled) ∧
    reported.updateFilter "f" [("id", .str "g"), ("value", .str ":since")] =
      .ok { reported with filters :=
        [⟨"f", users.column "id", .equal, ":since"⟩, ⟨"f", users.column "name", .equal, "x"⟩] } ∧
    reported.updateJoin "j" [] = .ok reported ∧
    reported.updateSort "f" [] = .error (.unknownEntry (.str "f")) := by
  obtain ⟨hjoins, hfilters, hsorts⟩ := reported_spelled
  have h := Draft.after_blank_changesEntries newIds usualLimit report hjoins hfilters hsorts
  refine ⟨hjoins, hfilters, hsorts, ?_, h.joins.unchanged "j" (by decide), ?_⟩
  · have hbecomes : Filter.Becomes [("id", .str "g"), ("value", .str ":since")]
        ⟨"f", users.column "id", .equal, "1"⟩ ⟨"f", users.column "id", .equal, ":since"⟩ :=
      ⟨rfl, rfl, rfl, rfl⟩
    exact (h.filters.changed _ _ _).2 ⟨[], _, _, _, rfl, by simp, rfl, hbecomes, by decide, rfl⟩
  · exact (h.sorts.unknown _ _ _).2 ⟨rfl, by decide⟩

end Sample

end QueryDraft
