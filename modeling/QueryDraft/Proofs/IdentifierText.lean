import Mathlib
import QueryDraft.Identifier
import QueryDraft.Proofs.SanitizedAlias

/-!
# Identifiers and their texts

An identifier is taken as its parts: the schema, the dot-separated parts of the table's name and,
of a column, its own name. Parts that are `WellParted` are found again in the text that they make,
and those of an identifier that was read from a text are (`TableId.wellParted_of_parse?`,
`ColumnId.wellParted_of_parse?`), so its text gives it back (`TableId.parse?_text`,
`ColumnId.parse?_text`). A column can be read from a text while its table is not read back from
its own: blanks before the last dot of the column's text are at the end of the table's.
-/

namespace QueryDraft

open Text

/-! ### Parts -/

structure WellParted (ps : List (List Char)) : Prop where
  ne : ps ≠ []
  solid : ∀ p ∈ ps, p ≠ [] ∧ '.' ∉ p
  trimmed : Trimmed isBlank (['.'].intercalate ps)

theorem trimmed_append {as bs : List Char} (has : as ≠ []) (hbs : bs ≠ []) :
    Trimmed isBlank (as ++ bs) ↔
      (∀ c ∈ as.head?, isBlank c = false) ∧ ∀ c ∈ bs.getLast?, isBlank c = false := by
  have hhead : (as ++ bs).head? = as.head? := List.head?_append_of_ne_nil _ has
  have hlast : (as ++ bs).getLast? = bs.getLast? := List.getLast?_append_of_ne_nil _ hbs
  constructor
  · rintro ⟨hh, hl⟩
    exact ⟨hhead ▸ hh, hlast ▸ hl⟩
  · rintro ⟨hh, hl⟩
    exact ⟨hhead ▸ hh, hlast ▸ hl⟩

theorem intercalate_append_singleton {ps : List (List Char)} (h : ps ≠ []) (p : List Char) :
    ['.'].intercalate (ps ++ [p]) = ['.'].intercalate ps ++ '.' :: p := by
  induction ps with
  | nil => exact absurd rfl h
  | cons q ps ih =>
    cases ps with
    | nil => simp [List.intercalate]
    | cons q' ps =>
      have ih := ih (by simp)
      simp only [List.cons_append] at ih
      simp only [List.cons_append, List.intercalate_cons_cons, ih, List.append_assoc]

theorem intercalate_ne_nil {ps : List (List Char)} (hne : ps ≠ []) (h : ∀ p ∈ ps, p ≠ []) :
    ['.'].intercalate ps ≠ [] := by
  obtain ⟨p, ps, rfl⟩ := List.exists_cons_of_ne_nil hne
  obtain ⟨c, cs, rfl⟩ := List.exists_cons_of_ne_nil (h p (by simp))
  cases ps <;> simp [List.intercalate_cons_cons]

theorem not_mem_of_mem_splitOn {α : Type} [BEq α] [LawfulBEq α] {a : α} {as p : List α}
    (h : p ∈ as.splitOn a) : a ∉ p := by
  rw [List.splitOn_eq_splitOnP] at h
  induction as generalizing p with
  | nil =>
    rw [List.splitOnP_nil, List.mem_singleton] at h
    simp [h]
  | cons b as ih =>
    rw [List.splitOnP_cons_eq_if_modifyHead] at h
    split_ifs at h with hb
    · rcases List.mem_cons.1 h with rfl | h
      · simp
      · exact ih h
    · obtain ⟨q, qs, hq⟩ := List.exists_cons_of_ne_nil (List.splitOnP_ne_nil (· == a) as)
      rw [hq, List.modifyHead_cons] at h
      rcases List.mem_cons.1 h with rfl | h
      · have hqa := ih (hq ▸ List.mem_cons_self ..)
        rw [List.mem_cons, not_or]
        exact ⟨fun h => hb (by simp [← h]), hqa⟩
      · exact ih (hq ▸ List.mem_cons_of_mem _ h)

theorem identifierParts_eq_some {s : String} {ps : List (List Char)} :
    identifierParts s = some ps ↔
      (trim isBlank s.toList).splitOn '.' = ps ∧ ∀ p ∈ ps, p ≠ [] := by
  unfold identifierParts
  simp only [Option.ite_none_left_eq_some, Option.some.injEq]
  constructor
  · rintro ⟨hempty, rfl⟩
    exact ⟨rfl, fun p hp hnil => hempty (List.any_eq_true.2 ⟨p, hp, List.isEmpty_iff.2 hnil⟩)⟩
  · rintro ⟨rfl, hne⟩
    refine ⟨fun hempty => ?_, rfl⟩
    obtain ⟨p, hp, hnil⟩ := List.any_eq_true.1 hempty
    exact hne p hp (List.isEmpty_iff.1 hnil)

/-- A text has some parts if, without the blanks around it, it is these joined by dots, and none of them
is empty or has a dot. -/
theorem identifierParts_map_toList_iff {s : String} {ps : List String} (hps : ps ≠ []) :
    identifierParts s = some (ps.map String.toList) ↔
      strip s = ".".intercalate ps ∧ ∀ p ∈ ps, p ≠ "" ∧ '.' ∉ p.toList := by
  have hstrip : strip s = ".".intercalate ps ↔
      trim isBlank s.toList = ['.'].intercalate (ps.map String.toList) := by
    rw [← String.toList_inj, String.toList_intercalate, strip, String.toList_ofList]
    rfl
  rw [identifierParts_eq_some, hstrip, List.forall_mem_map]
  constructor
  · rintro ⟨hsplit, hne⟩
    refine ⟨by rw [← hsplit, List.intercalate_splitOn], fun p hp => ⟨?_, ?_⟩⟩
    · simpa using hne p hp
    · exact not_mem_of_mem_splitOn (hsplit ▸ List.mem_map_of_mem hp)
  · rintro ⟨htrim, hsolid⟩
    refine ⟨?_, fun p hp => by simpa using (hsolid p hp).1⟩
    rw [htrim]
    refine List.splitOn_intercalate '.' (fun part hpart => ?_) (by simpa using hps)
    obtain ⟨p, hp, rfl⟩ := List.mem_map.1 hpart
    exact (hsolid p hp).2

namespace WellParted

variable {ps : List (List Char)} {p : List Char}

theorem of_identifierParts {s : String} (h : identifierParts s = some ps) : WellParted ps := by
  obtain ⟨rfl, hne⟩ := identifierParts_eq_some.1 h
  refine ⟨List.splitOn_ne_nil _ _, fun p hp => ⟨hne p hp, not_mem_of_mem_splitOn hp⟩, ?_⟩
  rw [List.intercalate_splitOn]
  exact trimmed_trim isBlank s.toList

theorem identifierParts_dotted (h : WellParted ps) : identifierParts (dotted ps) = some ps := by
  refine identifierParts_eq_some.2 ⟨?_, fun p hp => (h.solid p hp).1⟩
  rw [dotted, String.toList_ofList, h.trimmed.trim_eq]
  exact List.splitOn_intercalate '.' (fun p hp => (h.solid p hp).2) h.ne

theorem intercalate_ne (h : WellParted ps) : ['.'].intercalate ps ≠ [] :=
  intercalate_ne_nil h.ne fun p hp => (h.solid p hp).1

theorem cons (h : WellParted ps) (hp : p ≠ [] ∧ '.' ∉ p) (hhead : ∀ c ∈ p.head?, isBlank c = false) :
    WellParted (p :: ps) := by
  refine ⟨List.cons_ne_nil p ps, List.forall_mem_cons.2 ⟨hp, h.solid⟩, ?_⟩
  have hjoin : ['.'].intercalate (p :: ps) = p ++ '.' :: ['.'].intercalate ps := by
    obtain ⟨q, qs, rfl⟩ := List.exists_cons_of_ne_nil h.ne
    simp [List.intercalate_cons_cons]
  rw [hjoin, trimmed_append hp.1 (List.cons_ne_nil _ _), List.getLast?_cons_of_ne_nil h.intercalate_ne]
  exact ⟨hhead, h.trimmed.last⟩

theorem append_singleton_iff (hps : ps ≠ []) : WellParted (ps ++ [p]) ↔
    (∀ q ∈ ps, q ≠ [] ∧ '.' ∉ q) ∧ (∀ c ∈ (['.'].intercalate ps).head?, isBlank c = false) ∧
      (p ≠ [] ∧ '.' ∉ p) ∧ ∀ c ∈ p.getLast?, isBlank c = false := by
  constructor
  · rintro ⟨-, hsolid, htrimmed⟩
    rw [List.forall_mem_append, List.forall_mem_singleton] at hsolid
    have hne := intercalate_ne_nil hps fun q hq => (hsolid.1 q hq).1
    rw [intercalate_append_singleton hps, trimmed_append hne (List.cons_ne_nil _ _),
      List.getLast?_cons_of_ne_nil hsolid.2.1] at htrimmed
    exact ⟨hsolid.1, htrimmed.1, hsolid.2, htrimmed.2⟩
  · rintro ⟨hsolid, hhead, hp, hlast⟩
    have hne := intercalate_ne_nil hps fun q hq => (hsolid q hq).1
    refine ⟨by simp, List.forall_mem_append.2 ⟨hsolid, by simpa using hp⟩, ?_⟩
    rw [intercalate_append_singleton hps, trimmed_append hne (List.cons_ne_nil _ _),
      List.getLast?_cons_of_ne_nil hp.1]
    exact ⟨hhead, hlast⟩

end WellParted

/-- The table of some parts; a single part is a name without a schema. -/
def tableOf? : List (List Char) → Option TableId
  | [] => none
  | [table] => some ⟨publicSchema, .ofList table⟩
  | schema :: rest => some ⟨.ofList schema, dotted rest⟩

/-! ### Tables -/

namespace TableId

variable {t : TableId} {s : String}

def parts (t : TableId) : List (List Char) := t.schema.toList :: t.table.toList.splitOn '.'

theorem parts_ne_nil (t : TableId) : t.parts ≠ [] := List.cons_ne_nil _ _

theorem intercalate_parts (t : TableId) :
    ['.'].intercalate t.parts = t.schema.toList ++ '.' :: t.table.toList := by
  obtain ⟨p, ps, hps⟩ := List.exists_cons_of_ne_nil (List.splitOn_ne_nil '.' t.table.toList)
  rw [parts, hps, List.intercalate_cons_cons, ← hps, List.intercalate_splitOn]
  simp

theorem text_eq_dotted (t : TableId) : t.text = dotted t.parts := by
  apply String.toList_inj.1
  rw [dotted, String.toList_ofList, intercalate_parts]
  simp [text, String.toList_append]

theorem tableOf?_parts (t : TableId) : tableOf? t.parts = some t := by
  obtain ⟨p, ps, hps⟩ := List.exists_cons_of_ne_nil (List.splitOn_ne_nil '.' t.table.toList)
  have htable : dotted (t.table.toList.splitOn '.') = t.table := by
    rw [dotted, List.intercalate_splitOn, String.ofList_toList]
  rw [parts, hps]
  show some (TableId.mk (.ofList t.schema.toList) (dotted (p :: ps))) = some t
  rw [← hps, htable, String.ofList_toList]

theorem parse?_eq (s : String) : parse? s = (identifierParts s).bind tableOf? := by
  unfold parse?
  rcases identifierParts s with _ | ⟨_ | ⟨p, _ | ⟨q, ps⟩⟩⟩ <;> rfl

theorem parse?_text (h : WellParted t.parts) : parse? t.text = some t := by
  rw [parse?_eq, text_eq_dotted, h.identifierParts_dotted]
  exact tableOf?_parts t

theorem publicSchema_solid : publicSchema.toList ≠ [] ∧ '.' ∉ publicSchema.toList := by decide

theorem isBlank_head?_publicSchema : ∀ c ∈ publicSchema.toList.head?, isBlank c = false := by
  rw [show publicSchema.toList.head? = some 'p' from rfl]
  rintro c ⟨⟩
  decide

/-- The parts of a table that was made of parts without dots are these, with a schema if there was
none. -/
theorem parts_of_tableOf? {ps : List (List Char)} (hsolid : ∀ p ∈ ps, '.' ∉ p)
    (h : tableOf? ps = some t) : t.parts = ps ∨ t.parts = publicSchema.toList :: ps := by
  match ps, h with
  | [p], h =>
    cases h
    right
    rw [parts, String.toList_ofList, List.splitOn_eq_singleton (hsolid p (by simp))]
  | p :: q :: ps, h =>
    cases h
    left
    have hsolid' : ∀ r ∈ q :: ps, '.' ∉ r := fun r hr => hsolid r (List.mem_cons_of_mem _ hr)
    rw [parts, dotted, String.toList_ofList, String.toList_ofList,
      List.splitOn_intercalate '.' hsolid' (List.cons_ne_nil _ _)]

theorem wellParted_of_parse? (h : parse? s = some t) : WellParted t.parts := by
  rw [parse?_eq] at h
  obtain ⟨ps, hps, ht⟩ := Option.bind_eq_some_iff.1 h
  have hwell := WellParted.of_identifierParts hps
  rcases parts_of_tableOf? (fun p hp => (hwell.solid p hp).2) ht with hparts | hparts
  · rwa [hparts]
  · rw [hparts]
    exact hwell.cons publicSchema_solid isBlank_head?_publicSchema

theorem parse?_text_of_parse? (h : parse? s = some t) : parse? t.text = some t :=
  parse?_text (wellParted_of_parse? h)

/-- Some text stands for the table. -/
def IsSpelled (t : TableId) : Prop := ∃ s, parse? s = some t

theorem isSpelled_iff : t.IsSpelled ↔ WellParted t.parts :=
  ⟨fun ⟨_, h⟩ => wellParted_of_parse? h, fun h => ⟨t.text, parse?_text h⟩⟩

/-- The last character of the table's name is not blank. -/
def EndsSolid (t : TableId) : Prop := ∀ c ∈ t.table.toList.getLast?, isBlank c = false

theorem endsSolid_of_wellParted (h : WellParted t.parts) : t.EndsSolid := by
  have htable : t.table.toList ≠ [] := by
    intro hnil
    have hmem : [] ∈ t.parts := by simp [parts, hnil]
    exact (h.solid [] hmem).1 rfl
  have hschema : t.schema.toList ≠ [] := (h.solid _ (List.mem_cons_self ..)).1
  have htrimmed := h.trimmed
  rw [intercalate_parts, trimmed_append hschema (List.cons_ne_nil _ _),
    List.getLast?_cons_of_ne_nil htable] at htrimmed
  exact htrimmed.2

end TableId

/-! ### Columns -/

namespace ColumnId

variable {c : ColumnId} {s : String}

def parts (c : ColumnId) : List (List Char) := c.table.parts ++ [c.name.toList]

theorem text_eq_dotted (c : ColumnId) : c.text = dotted c.parts := by
  apply String.toList_inj.1
  rw [dotted, String.toList_ofList, parts, intercalate_append_singleton c.table.parts_ne_nil,
    TableId.intercalate_parts]
  simp [text, TableId.text, String.toList_append]

theorem parse?_eq (s : String) : parse? s = (identifierParts s).bind fun ps =>
    ps.getLast?.bind fun name => (tableOf? ps.dropLast).map (·.column (.ofList name)) := by
  unfold parse?
  rcases identifierParts s with _ | ⟨_ | ⟨p, _ | ⟨q, _ | ⟨r, ps⟩⟩⟩⟩
  · rfl
  · rfl
  · rfl
  · rfl
  · simp only [Option.bind_some, List.getLast?_cons_cons]
    cases (r :: ps).getLast? <;> rfl

theorem parse?_eq_some_iff : parse? s = some c ↔
    ∃ ps, identifierParts s = some (ps ++ [c.name.toList]) ∧ tableOf? ps = some c.table := by
  rw [parse?_eq]
  constructor
  · intro h
    obtain ⟨ps, hps, h⟩ := Option.bind_eq_some_iff.1 h
    obtain ⟨name, hname, h⟩ := Option.bind_eq_some_iff.1 h
    obtain ⟨t, ht, rfl⟩ := Option.map_eq_some_iff.1 h
    refine ⟨ps.dropLast, ?_, ht⟩
    rw [hps, TableId.column, String.toList_ofList, List.dropLast_append_getLast? name hname]
  · rintro ⟨ps, hps, ht⟩
    simp [hps, ht, TableId.column]

theorem parse?_text (h : WellParted c.parts) : parse? c.text = some c :=
  parse?_eq_some_iff.2 ⟨c.table.parts, by rw [text_eq_dotted, h.identifierParts_dotted]; rfl,
    TableId.tableOf?_parts c.table⟩

theorem wellParted_of_parse? (h : parse? s = some c) : WellParted c.parts := by
  obtain ⟨ps, hps, ht⟩ := parse?_eq_some_iff.1 h
  have hwell := WellParted.of_identifierParts hps
  have hsolid : ∀ p ∈ ps, '.' ∉ p := fun p hp => (hwell.solid p (List.mem_append_left _ hp)).2
  rcases TableId.parts_of_tableOf? hsolid ht with hparts | hparts
  · rwa [parts, hparts]
  · rw [parts, hparts]
    exact hwell.cons TableId.publicSchema_solid TableId.isBlank_head?_publicSchema

theorem parse?_text_of_parse? (h : parse? s = some c) : parse? c.text = some c :=
  parse?_text (wellParted_of_parse? h)

/-- Some text stands for the column. -/
def IsSpelled (c : ColumnId) : Prop := ∃ s, parse? s = some c

theorem isSpelled_iff : c.IsSpelled ↔ WellParted c.parts :=
  ⟨fun ⟨_, h⟩ => wellParted_of_parse? h, fun h => ⟨c.text, parse?_text h⟩⟩

/-- The table of a column reads back from its text unless its name ends in a blank. -/
theorem table_wellParted (h : WellParted c.parts) (hends : c.table.EndsSolid) :
    WellParted c.table.parts := by
  obtain ⟨hsolid, hhead, -, -⟩ := (WellParted.append_singleton_iff c.table.parts_ne_nil).1 h
  refine ⟨c.table.parts_ne_nil, hsolid, hhead, ?_⟩
  have htable : c.table.table.toList ≠ [] := by
    intro hnil
    have hmem : [] ∈ c.table.parts := by simp [TableId.parts, hnil]
    exact (hsolid [] hmem).1 rfl
  rw [TableId.intercalate_parts, List.getLast?_append_of_ne_nil _ (List.cons_ne_nil _ _),
    List.getLast?_cons_of_ne_nil htable]
  exact hends

theorem IsSpelled.table (h : c.IsSpelled) (hends : c.table.EndsSolid) : c.table.IsSpelled :=
  TableId.isSpelled_iff.2 (table_wellParted (isSpelled_iff.1 h) hends)

end ColumnId

theorem TableId.column_wellParted {t : TableId} {name : String} (h : WellParted t.parts)
    (hne : name ≠ "") (hdot : '.' ∉ name.toList)
    (hlast : ∀ c ∈ name.toList.getLast?, isBlank c = false) : WellParted (t.column name).parts := by
  refine (WellParted.append_singleton_iff t.parts_ne_nil).2 ⟨h.solid, h.trimmed.head, ⟨?_, hdot⟩, hlast⟩
  exact fun hnil => hne (String.toList_inj.1 hnil)

end QueryDraft
