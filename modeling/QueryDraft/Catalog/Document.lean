import QueryDraft.Catalog.Basic
import QueryDraft.Identifier.Reading

/-!
# Catalog documents

The JSON form of catalogs, their tables and columns. A catalog in which a table occurs twice is
refused; an absent or empty schema means `public`.
-/

namespace QueryDraft

namespace ForeignKey

def read (v : Json) : Reading ForeignKey :=
  (Reading.record v).andThen fun es =>
    ForeignKey.mk
      <$> Reading.field ⟨"schema_name", "schema_name"⟩ (some none) Reading.textOrNull es
      <*> Reading.field ⟨"table_name", "table_name"⟩ none Reading.text es
      <*> Reading.field ⟨"column_name", "column_name"⟩ none Reading.text es

def document (k : ForeignKey) : Json := .obj [
  ("schema_name", .optionalText k.schema), ("table_name", .str k.table),
  ("column_name", .str k.column)]

end ForeignKey

namespace Column

def read (v : Json) : Reading Column :=
  (Reading.record v).andThen fun es =>
    Column.mk
      <$> Reading.field ⟨"name", "name"⟩ none Reading.text es
      <*> Reading.field ⟨"type", "type"⟩ (some "") Reading.text es
      <*> Reading.field ⟨"isPrimaryKey", "is_primary_key"⟩ (some false) Reading.truth es
      <*> Reading.field ⟨"isForeignKey", "is_foreign_key"⟩ (some false) Reading.truth es
      <*> Reading.field ⟨"references", "references"⟩ (some none) Reading.textOrNull es

def document (c : Column) : Json := .obj [
  ("name", .str c.name), ("type", .str c.type), ("isPrimaryKey", .bool c.isPrimaryKey),
  ("isForeignKey", .bool c.isForeignKey), ("references", .optionalText c.references)]

end Column

namespace Table

/-- The schema of a table; whatever counts as nothing means `public`. -/
def readSchema (v : Json) : Reading String :=
  if v.isNothing then .value publicSchema else Reading.text v

def read (v : Json) : Reading Table :=
  (Reading.record v).andThen fun es =>
    Table.mk
      <$> Reading.field ⟨"name", "name"⟩ none Reading.text es
      <*> Reading.field ⟨"schema", "schema_name"⟩ (some publicSchema) readSchema es
      <*> Reading.field ⟨"columns", "columns"⟩ (some [])
        (Reading.items .notList fun _ => Column.read) es
      <*> Reading.field ⟨"description", "description"⟩ (some none) Reading.textOrNull es

def document (t : Table) : Json := .obj [
  ("name", .str t.name), ("schema", .str t.schema),
  ("columns", .arr (t.columns.map Column.document)),
  ("description", .optionalText t.description)]

end Table

namespace Origin

def word : Origin → String
  | ai => "ai"
  | ddl => "ddl"
  | simulated => "simulated"
  | real => "real"

def ofWord? (s : String) : Option Origin :=
  [ai, ddl, simulated, real].find? (·.word == s)

/-- An origin or null. -/
def readOrNull : Json → Reading (Option Origin)
  | .null => .value none
  | .str s => match ofWord? s with
    | some o => .value (some o)
    | none => .fault .notLiteral
  | _ => .fault .notLiteral

end Origin

namespace Catalog

/-- The first identifier that occurs a second time. -/
def firstRepeated (seen : List TableId) : List TableId → Option TableId
  | [] => none
  | t :: ts => if t ∈ seen then some t else firstRepeated (t :: seen) ts

/-- The tables of a catalog, all of them different. -/
def readTables (v : Json) : Reading (List Table) :=
  (Reading.items .notList (fun _ => Table.read) v).andThen fun tables =>
    match firstRepeated [] (tables.map Table.id) with
    | some t => .fault (.refused (.duplicateTable t.text))
    | none => .value tables

def read (v : Json) : Reading Catalog :=
  (Reading.record v).andThen fun es =>
    Catalog.mk
      <$> Reading.field ⟨"name", "name"⟩ none Reading.text es
      <*> Reading.field ⟨"tables", "tables"⟩ (some []) readTables es
      <*> Reading.field ⟨"connectionSource", "connection_source"⟩ (some none)
        Origin.readOrNull es

def document (c : Catalog) : Json := .obj [
  ("name", .str c.name), ("tables", .arr (c.tables.map Table.document)),
  ("connectionSource", .optionalText (c.origin.map Origin.word))]

theorem firstRepeated_eq_none {seen ts : List TableId} :
    firstRepeated seen ts = none ↔ ts.Nodup ∧ ∀ t ∈ ts, t ∉ seen := by
  induction ts generalizing seen with
  | nil => simp [firstRepeated]
  | cons t ts ih =>
    by_cases h : t ∈ seen
    · simp [firstRepeated, h]
    · simp only [firstRepeated, h, if_false, ih, List.nodup_cons, List.mem_cons, forall_eq_or_imp]
      constructor
      · rintro ⟨hn, hs⟩
        exact ⟨⟨fun ht => hs t ht (by simp), hn⟩, by simp, fun u hu hm => hs u hu (by simp [hm])⟩
      · rintro ⟨⟨ht, hn⟩, -, hs⟩
        refine ⟨hn, fun u hu hm => ?_⟩
        rcases hm with rfl | hm
        · exact ht hu
        · exact hs u hu hm

end Catalog

end QueryDraft
