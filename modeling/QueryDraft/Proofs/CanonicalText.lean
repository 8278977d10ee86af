import Mathlib
import QueryDraft.Catalog.Document
import QueryDraft.Catalog.Lookup
import QueryDraft.Catalog.Samples
import QueryDraft.Proofs.Edits
import QueryDraft.Proofs.IdentifierText

/-!
# Tables and columns by their own texts

An identifier is read back from its own text exactly if it is well named (`TableId.parse?_text_iff`,
`ColumnId.parse?_text_iff`): its schema is one part without a blank in front, no part is empty, and
there is no blank behind. These are the identifiers that texts stand for, and any text of a table
becomes one of its columns by a dot and the column's name (`parse_text_exactly`). The tables of a
catalog that was read are all different, so a well-named table is what the catalog has under its
text, and so are its columns (`found_by_text`). A schema with a dot in its name makes two tables of
one text (`found_by_text_twins`).
-/

namespace QueryDraft

open Text

/-! ### Names that are read back -/

/-- The text of the identifier is read as the identifier: its first part is the schema, the others
are the name of the table, and no blank is lost. -/
structure TableId.IsWellNamed (t : TableId) : Prop where
  schema_ne : t.schema ≠ ""
  dotless : '.' ∉ t.schema.toList
  head : ∀ c ∈ t.schema.toList.head?, isBlank c = false
  parts_ne : ∀ p ∈ t.table.toList.splitOn '.', p ≠ []
  last : ∀ c ∈ t.table.toList.getLast?, isBlank c = false

/-- Likewise for a column, whose last part is its name. -/
structure ColumnId.IsWellNamed (c : ColumnId) : Prop where
  schema_ne : c.table.schema ≠ ""
  schema_dotless : '.' ∉ c.table.schema.toList
  head : ∀ b ∈ c.table.schema.toList.head?, isBlank b = false
  parts_ne : ∀ p ∈ c.table.table.toList.splitOn '.', p ≠ []
  name_ne : c.name ≠ ""
  name_dotless : '.' ∉ c.name.toList
  last : ∀ b ∈ c.name.toList.getLast?, isBlank b = false

theorem toList_ne_nil_iff {s : String} : s.toList ≠ [] ↔ s ≠ "" := by
  rw [ne_eq, ne_eq, ← String.toList_inj]
  rfl

theorem ne_nil_of_splitOn {cs : List Char} (h : ∀ p ∈ cs.splitOn '.', p ≠ []) : cs ≠ [] := by
  rintro rfl
  exact h [] (by simp) rfl

namespace TableId

variable {t : TableId}

/-- The parts are sound if the schema is, and no part of the table's name is empty. -/
theorem solid_parts_iff : (∀ p ∈ t.parts, p ≠ [] ∧ '.' ∉ p) ↔
    (t.schema ≠ "" ∧ '.' ∉ t.schema.toList) ∧ ∀ p ∈ t.table.toList.splitOn '.', p ≠ [] := by
  rw [parts, List.forall_mem_cons, toList_ne_nil_iff]
  refine and_congr_right fun _ => forall₂_congr fun p hp => ?_
  exact and_iff_left (not_mem_of_mem_splitOn hp)

theorem isWellNamed_iff : t.IsWellNamed ↔ WellParted t.parts := by
  constructor
  · rintro ⟨hne, hdot, hhead, hparts, hlast⟩
    have hschema : t.schema.toList ≠ [] := toList_ne_nil_iff.2 hne
    refine ⟨t.parts_ne_nil, solid_parts_iff.2 ⟨⟨hne, hdot⟩, hparts⟩, ?_⟩
    rw [intercalate_parts, trimmed_append hschema (List.cons_ne_nil _ _),
      List.getLast?_cons_of_ne_nil (ne_nil_of_splitOn hparts)]
    exact ⟨hhead, hlast⟩
  · intro h
    obtain ⟨⟨hne, hdot⟩, hparts⟩ := solid_parts_iff.1 h.solid
    have htrimmed := h.trimmed
    rw [intercalate_parts, trimmed_append (toList_ne_nil_iff.2 hne) (List.cons_ne_nil _ _)] at htrimmed
    exact ⟨hne, hdot, htrimmed.1, hparts, endsSolid_of_wellParted h⟩

theorem parse?_text_iff : parse? t.text = some t ↔ t.IsWellNamed := by
  rw [isWellNamed_iff]
  exact ⟨wellParted_of_parse?, parse?_text⟩

end TableId

namespace ColumnId

variable {c : ColumnId}

theorem isWellNamed_iff : c.IsWellNamed ↔ WellParted c.parts := by
  have hschema : c.table.schema ≠ "" → (['.'].intercalate c.table.parts).head? =
      c.table.schema.toList.head? := by
    intro hne
    rw [TableId.intercalate_parts, List.head?_append_of_ne_nil _ (toList_ne_nil_iff.2 hne)]
  rw [parts, WellParted.append_singleton_iff c.table.parts_ne_nil, TableId.solid_parts_iff,
    toList_ne_nil_iff]
  constructor
  · rintro ⟨hne, hdot, hhead, hparts, hname, hnamedot, hlast⟩
    exact ⟨⟨⟨hne, hdot⟩, hparts⟩, by rwa [hschema hne], ⟨hname, hnamedot⟩, hlast⟩
  · rintro ⟨⟨⟨hne, hdot⟩, hparts⟩, hhead, ⟨hname, hnamedot⟩, hlast⟩
    exact ⟨hne, hdot, by rwa [hschema hne] at hhead, hparts, hname, hnamedot, hlast⟩

theorem parse?_text_iff : parse? c.text = some c ↔ c.IsWellNamed := by
  rw [isWellNamed_iff]
  exact ⟨wellParted_of_parse?, parse?_text⟩

end ColumnId

/-! ### Names behind the text of a table -/

/-- Without a blank at its end a text is trimmed at its front only. -/
theorem trim_eq_dropWhile {p : Char → Bool} {cs : List Char} (h : ∀ c ∈ cs.getLast?, p c = false) :
    trim p cs = cs.dropWhile p := by
  rw [trim_eq_rdropWhile, List.rdropWhile_eq_self_iff]
  intro hne
  obtain ⟨front, hfront⟩ := List.dropWhile_suffix (l := cs) p
  have hlast : cs.getLast? = (cs.dropWhile p).getLast? := by
    conv_lhs => rw [← hfront, List.getLast?_append_of_ne_nil _ hne]
  rw [h _ (hlast.trans (List.getLast?_eq_some_getLast hne))]
  exact Bool.false_ne_true

theorem trim_append {p : Char → Bool} {as bs : List Char} (has : ∀ c ∈ as.getLast?, p c = false)
    (hne : trim p as ≠ []) (hbs : bs ≠ []) (hlast : ∀ c ∈ bs.getLast?, p c = false) :
    trim p (as ++ bs) = trim p as ++ bs := by
  rw [trim_eq_dropWhile has] at hne ⊢
  rw [trim_eq_dropWhile (by rwa [List.getLast?_append_of_ne_nil _ hbs]), List.dropWhile_append,
    if_neg (by simpa using hne)]

theorem ColumnId.parse?_append {s name : String} {t : TableId} (h : TableId.parse? s = some t)
    (hs : ∀ c ∈ s.toList.getLast?, isBlank c = false) (hne : name ≠ "") (hdot : '.' ∉ name.toList)
    (hlast : ∀ c ∈ name.toList.getLast?, isBlank c = false) :
    ColumnId.parse? (s ++ "." ++ name) = some (t.column name) := by
  rw [TableId.parse?_eq] at h
  obtain ⟨ps, hps, ht⟩ := Option.bind_eq_some_iff.1 h
  have hwell := WellParted.of_identifierParts hps
  obtain ⟨hsplit, hsolid⟩ := identifierParts_eq_some.1 hps
  have hname : name.toList ≠ [] := toList_ne_nil_iff.2 hne
  have htrim : trim isBlank s.toList = ['.'].intercalate ps := by
    rw [← hsplit, List.intercalate_splitOn]
  have htext : trim isBlank (s ++ "." ++ name).toList = ['.'].intercalate (ps ++ [name.toList]) := by
    rw [intercalate_append_singleton hwell.ne, ← htrim,
      ← trim_append hs (htrim ▸ hwell.intercalate_ne) (List.cons_ne_nil _ _)
        (by rwa [List.getLast?_cons_of_ne_nil hname])]
    simp [String.toList_append]
  refine parse?_eq_some_iff.2 ⟨ps, identifierParts_eq_some.2 ⟨?_, ?_⟩, ht⟩
  · rw [htext]
    refine List.splitOn_intercalate '.' (List.forall_mem_append.2 ⟨fun p hp => (hwell.solid p hp).2, ?_⟩)
      (by simp)
    exact List.forall_mem_singleton.2 hdot
  · exact List.forall_mem_append.2 ⟨hsolid, List.forall_mem_singleton.2 hname⟩

/-- Read back from their own texts are the well-named identifiers and no others, and whatever is read
from a text is one of them. Behind any text of a table that does not end in a blank, a dot and a name
make a text of the table's column. -/
theorem parse_text_exactly :
    (∀ t : TableId, TableId.parse t.text = .ok t ↔ t.IsWellNamed) ∧
    (∀ c : ColumnId, ColumnId.parse c.text = .ok c ↔ c.IsWellNamed) ∧
    (∀ s t, TableId.parse s = .ok t → t.IsWellNamed) ∧
    (∀ s c, ColumnId.parse s = .ok c → c.IsWellNamed) ∧
    ∀ s t name, TableId.parse s = .ok t → (∀ c ∈ s.toList.getLast?, isBlank c = false) →
      name ≠ "" → '.' ∉ name.toList → (∀ c ∈ name.toList.getLast?, isBlank c = false) →
      ColumnId.parse (s ++ "." ++ name) = .ok (t.column name) := by
  simp only [TableId.parse_eq_ok_iff, ColumnId.parse_eq_ok_iff]
  refine ⟨fun t => TableId.parse?_text_iff, fun c => ColumnId.parse?_text_iff, fun s t h => ?_,
    fun s c h => ?_, fun s t name h hs hne hdot hlast => ColumnId.parse?_append h hs hne hdot hlast⟩
  · exact TableId.parse?_text_iff.1 (TableId.parse?_text_of_parse? h)
  · exact ColumnId.parse?_text_iff.1 (ColumnId.parse?_text_of_parse? h)

/-- A blank at the end of a table's name is kept in the texts of its columns, but not in its own. -/
theorem parse_text_exactly_users :
    ColumnId.parse " users . id" = .ok (TableId.column ⟨"public", "users "⟩ " id") ∧
      (TableId.column ⟨"public", "users "⟩ " id").IsWellNamed ∧
      ¬ (TableId.mk "public" "users ").IsWellNamed ∧
      TableId.parse " users" = .ok ⟨"public", "users"⟩ ∧
      ColumnId.parse (" users" ++ "." ++ " id") = .ok (TableId.column ⟨"public", "users"⟩ " id") := by
  obtain ⟨htable, -, -, hcolumn, hname⟩ := parse_text_exactly
  have hkept : ColumnId.parse " users . id" = .ok (TableId.column ⟨"public", "users "⟩ " id") := by rfl
  have hlost : TableId.parse (TableId.mk "public" "users ").text ≠ .ok ⟨"public", "users "⟩ := by
    decide
  have husers : TableId.parse " users" = .ok ⟨"public", "users"⟩ := by rfl
  exact ⟨hkept, hcolumn _ _ hkept, fun h => hlost ((htable _).2 h), husers,
    hname _ _ _ husers (by rintro _ ⟨⟩; decide) (by decide) (by decide) (by rintro _ ⟨⟩; decide)⟩

/-! ### Catalogs whose tables are all different -/

namespace Catalog

variable {c : Catalog} {t u : Table}

theorem nodup_tableIds_of_read {v : Json} (h : read v = .value c) : c.tableIds.Nodup := by
  obtain ⟨es, _, hes⟩ := Reading.andThen_eq_value.1 h
  obtain ⟨_, origin, hmk, _, rfl⟩ := Reading.ap_eq_value.1 hes
  obtain ⟨_, tables, hname, htables, rfl⟩ := Reading.ap_eq_value.1 hmk
  obtain ⟨name, _, rfl⟩ := Reading.map_eq_value.1 hname
  show (tables.map Table.id).Nodup
  rcases Reading.field_eq_value.1 htables with ⟨w, _, hread⟩ | ⟨_, hnil⟩
  · obtain ⟨ts, _, hcheck⟩ := Reading.andThen_eq_value.1 hread
    cases hrepeated : firstRepeated [] (ts.map Table.id) with
    | some t =>
      rw [hrepeated] at hcheck
      cases hcheck
    | none =>
      rw [hrepeated] at hcheck
      cases hcheck
      exact (firstRepeated_eq_none.1 hrepeated).1
  · cases hnil
    exact .nil

theorem eq_of_id_eq (hnodup : c.tableIds.Nodup) (ht : t ∈ c.tables) (hu : u ∈ c.tables)
    (h : t.id = u.id) : t = u :=
  List.inj_on_of_nodup_map hnodup ht hu h

theorem table?_id (hnodup : c.tableIds.Nodup) (ht : t ∈ c.tables) : c.table? t.id = some t := by
  have hmem : t.id ∈ c.tableIds := List.mem_map_of_mem ht
  obtain ⟨u, hu⟩ := Option.isSome_iff_exists.1 (hasTable_iff.2 hmem)
  rw [hu, eq_of_id_eq hnodup (mem_of_table? hu) ht (id_of_table? hu)]

theorem column?_id (hnodup : c.tableIds.Nodup) (ht : t ∈ c.tables) (name : String) :
    c.column? (t.id.column name) = t.column? name :=
  column?_of_table? (k := t.id.column name) (table?_id hnodup ht)

theorem findTable_text_iff (hnodup : c.tableIds.Nodup) (ht : t ∈ c.tables) :
    c.findTable t.id.text = .ok (some t) ↔ t.id.IsWellNamed := by
  rw [← TableId.parse?_text_iff]
  constructor
  · intro h
    obtain ⟨i, hi, htable⟩ := map_eq_ok_iff.1 h
    rw [TableId.parse_eq_ok_iff] at hi
    rw [hi, id_of_table? htable]
  · intro h
    exact map_eq_ok_iff.2 ⟨t.id, TableId.parse_eq_ok_iff.2 h, table?_id hnodup ht⟩

theorem findColumn_text (hnodup : c.tableIds.Nodup) (ht : t ∈ c.tables) {name : String}
    (h : (t.id.column name).IsWellNamed) :
    c.findColumn (t.id.column name).text = .ok (t.column? name) := by
  have hparse := ColumnId.parse_eq_ok_iff.2 (ColumnId.parse?_text_iff.2 h)
  exact map_eq_ok_iff.2 ⟨_, hparse, column?_id hnodup ht name⟩

/-- In a catalog that was read, a table is found by its own text exactly if it is well named, and then
no other such table has that text. A column of it is found by its own text if that is well named. -/
theorem found_by_text {v : Json} (h : read v = .value c) (ht : t ∈ c.tables) :
    (c.findTable t.id.text = .ok (some t) ↔ t.id.IsWellNamed) ∧
    (∀ k ∈ t.columns, (t.id.column k.name).IsWellNamed →
      c.findColumn (t.id.column k.name).text = .ok (t.column? k.name)) ∧
    ∀ u ∈ c.tables, t.id.IsWellNamed → u.id.IsWellNamed → u.id.text = t.id.text → u = t := by
  have hnodup := nodup_tableIds_of_read h
  refine ⟨findTable_text_iff hnodup ht, fun k _ hk => findColumn_text hnodup ht hk, ?_⟩
  intro u hu htnamed hunamed htext
  have hu' := (findTable_text_iff hnodup hu).2 hunamed
  rw [htext, (findTable_text_iff hnodup ht).2 htnamed] at hu'
  cases hu'
  rfl

end Catalog

namespace Sample

/-- Two tables of one text: the schema of the first has a dot in its name. -/
def twins : Catalog where
  name := "twins"
  tables := [
    { name := "c", schema := "a.b", columns := [{ name := "x" }] },
    { name := "b.c", schema := "a", columns := [{ name := "y" }] }]

theorem found_by_text_multiSchema :
    Catalog.read Catalog.multiSchema.document = .value .multiSchema ∧
      ∀ t ∈ Catalog.multiSchema.tables, t.id.IsWellNamed →
        Catalog.multiSchema.findTable t.id.text = .ok (some t) := by
  have hread : Catalog.read Catalog.multiSchema.document = .value .multiSchema := by rfl
  exact ⟨hread, fun t ht => (Catalog.found_by_text hread ht).1.2⟩

/-- The text of the first table is read as the second, and no column of the first is found by its
own. -/
theorem found_by_text_twins :
    Catalog.read twins.document = .value twins ∧ ∃ t u, twins.tables = [t, u] ∧ t ≠ u ∧
      t.id.text = u.id.text ∧ twins.findTable t.id.text = .ok (some u) ∧
      ∃ k, t.columns = [k] ∧ t.column? k.name = some k ∧
        twins.findColumn (t.id.column k.name).text = .ok none :=
  ⟨by rfl, _, _, rfl, by decide, by decide, by rfl, _, rfl, by rfl, by rfl⟩

end Sample

end QueryDraft
