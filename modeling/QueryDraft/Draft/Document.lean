import QueryDraft.Draft.Basic
import QueryDraft.Identifier.Reading
import QueryDraft.Json.Reader
import QueryDraft.Json.Writer

/-!
# Draft documents

The JSON form in which drafts are kept. Identifiers are written as their texts. Reading accepts
the plain names of fields beside those of the document, drops what is repeated among tables,
columns and groupings, and drops aggregates that aggregate nothing.
-/

namespace QueryDraft

open Reading (field)

/-! ### Ids

Parts of a draft that come without an id are given one from a supply. A supply is a tree: whoever
needs ids for several purposes gives each purpose a branch of its own, so that no two purposes share
an id as long as different paths have different labels. -/

structure IdSupply where
  label : List Nat → String

namespace IdSupply

/-- The id at the root. -/
def id (s : IdSupply) : String := s.label []

/-- The supply below the root. -/
def branch (s : IdSupply) (i : Nat) : IdSupply := ⟨fun path => s.label (i :: path)⟩

end IdSupply

/-! ### Parts -/

namespace Join

/-- A join from its parts in the order of the document. -/
def ofParts (id : String) (fromTable : TableId) (fromColumn : String) (kind : JoinKind)
    (toTable : TableId) (toColumn : String) : Join :=
  ⟨id, fromTable.column fromColumn, kind, toTable.column toColumn⟩

/-- Reads the entries of a join; `fresh` is the id of one that has none. -/
def ofEntries (fresh : String) (es : List (String × Json)) : Reading Join :=
  ofParts
    <$> field ⟨"id", "id"⟩ (some fresh) Reading.text es
    <*> field ⟨"fromTable", "from_table"⟩ none TableId.read es
    <*> field ⟨"fromColumn", "from_column"⟩ none Reading.text es
    <*> field ⟨"type", "type"⟩ (some .inner) (Reading.member JoinKind.ofWord?) es
    <*> field ⟨"toTable", "to_table"⟩ none TableId.read es
    <*> field ⟨"toColumn", "to_column"⟩ none Reading.text es

def read (fresh : String) (v : Json) : Reading Join :=
  (Reading.record v).andThen (ofEntries fresh)

def document (j : Join) : Json := .obj [
  ("id", .str j.id), ("fromTable", .str j.source.table.text), ("fromColumn", .str j.source.name),
  ("type", .str j.kind.word), ("toTable", .str j.target.table.text),
  ("toColumn", .str j.target.name)]

/-- The entries of a join under their plain names. -/
def plainEntries (j : Join) : List (String × Json) := [
  ("id", .str j.id), ("from_table", .str j.source.table.text), ("from_column", .str j.source.name),
  ("type", .str j.kind.word), ("to_table", .str j.target.table.text),
  ("to_column", .str j.target.name)]

end Join

namespace Filter

/-- The value of a filter is text, whatever it is given as, unless a number in it is too long. -/
def valueText : Json → Except BadValue String
  | .null => .ok ""
  | .bool b => .ok (if b then "true" else "false")
  | .str s => .ok s
  | v => if v.isShowable then .ok v.display else .error .longNumber

def readValue : Json → Reading String
  | .tornStr _ => .fault .notUnicode
  | v => match valueText v with
    | .ok s => .value s
    | .error why => .fault (.refused why)

def ofEntries (fresh : String) (es : List (String × Json)) : Reading Filter :=
  Filter.mk
    <$> field ⟨"id", "id"⟩ (some fresh) Reading.text es
    <*> field ⟨"column", "column"⟩ none ColumnId.read es
    <*> field ⟨"operator", "operator"⟩ (some .equal) (Reading.member Operator.ofWord?) es
    <*> field ⟨"value", "value"⟩ (some "") readValue es

def read (fresh : String) (v : Json) : Reading Filter :=
  (Reading.record v).andThen (ofEntries fresh)

/-- The entries of a filter, whose document names are its plain names. -/
def entries (f : Filter) : List (String × Json) := [
  ("id", .str f.id), ("column", .str f.column.text), ("operator", .str f.operator.word),
  ("value", .str f.value)]

def document (f : Filter) : Json := .obj f.entries

end Filter

namespace SortKey

def ofEntries (fresh : String) (es : List (String × Json)) : Reading SortKey :=
  SortKey.mk
    <$> field ⟨"id", "id"⟩ (some fresh) Reading.text es
    <*> field ⟨"column", "column"⟩ none ColumnId.read es
    <*> field ⟨"direction", "direction"⟩ (some .asc) (Reading.member Direction.ofWord?) es

def read (fresh : String) (v : Json) : Reading SortKey :=
  (Reading.record v).andThen (ofEntries fresh)

/-- The entries of a sort key, whose document names are its plain names. -/
def entries (s : SortKey) : List (String × Json) := [
  ("id", .str s.id), ("column", .str s.column.text), ("direction", .str s.direction.word)]

def document (s : SortKey) : Json := .obj s.entries

end SortKey

namespace Formula

def ofEntries (fresh : String) (es : List (String × Json)) : Reading Formula :=
  Formula.mk
    <$> field ⟨"id", "id"⟩ (some fresh) Reading.text es
    <*> field ⟨"alias", "alias"⟩ none Reading.text es
    <*> field ⟨"expression", "expression"⟩ none Reading.text es

def read (fresh : String) (v : Json) : Reading Formula :=
  (Reading.record v).andThen (ofEntries fresh)

def document (f : Formula) : Json := .obj [
  ("id", .str f.id), ("alias", .str f.name), ("expression", .str f.expression)]

end Formula

namespace Draft

/-- Identifiers without repetitions. -/
def readDistinct {α : Type} [DecidableEq α] (read : Json → Reading α) (v : Json) :
    Reading (List α) :=
  distinct <$> Reading.items .notTuple (fun _ => read) v

/-- One aggregate: its column is the key of the entry. -/
def readAggregate (e : String × Json) : Reading (ColumnId × Aggregate) :=
  (Prod.mk
    <$> (ColumnId.read (.str e.1)).under (.key "[key]")
    <*> Reading.member Aggregate.ofWord? e.2).under (.key e.1)

def readEntries : List (String × Json) → Reading (List (ColumnId × Aggregate))
  | [] => .value []
  | e :: es => List.cons <$> readAggregate e <*> readEntries es

/-- Aggregates by column. -/
def readAggregations (v : Json) : Reading (OrderedMap ColumnId Aggregate) :=
  (Reading.object v).andThen fun es =>
    (fun pairs => (OrderedMap.ofList pairs).filterValues (· ≠ .none)) <$> readEntries es

/-- Parts with ids, the supply having a branch for each. -/
def readParts {α : Type} (ids : IdSupply) (read : String → Json → Reading α) (v : Json) :
    Reading (List α) :=
  Reading.items .notTuple (fun i => read (ids.branch i).id) v

def readFormulas (ids : IdSupply) : Json → Reading (List Formula)
  | .null => .value []
  | v => readParts ids Formula.read v

def ofEntries (ids : IdSupply) (es : List (String × Json)) : Reading Draft :=
  Draft.mk
    <$> field ⟨"selectedTables", "selected_tables"⟩ (some []) (readDistinct TableId.read) es
    <*> field ⟨"selectedColumns", "selected_columns"⟩ (some []) (readDistinct ColumnId.read) es
    <*> field ⟨"aggregations", "aggregations"⟩ (some ∅) readAggregations es
    <*> field ⟨"joins", "joins"⟩ (some []) (readParts (ids.branch 0) Join.read) es
    <*> field ⟨"filters", "filters"⟩ (some []) (readParts (ids.branch 1) Filter.read) es
    <*> field ⟨"groupBy", "group_by"⟩ (some []) (readDistinct ColumnId.read) es
    <*> field ⟨"orderBy", "order_by"⟩ (some []) (readParts (ids.branch 2) SortKey.read) es
    <*> field ⟨"calculatedColumns", "calculated_columns"⟩ (some []) (readFormulas (ids.branch 3)) es
    <*> field ⟨"limit", "limit"⟩ (some usualLimit) Reading.whole es

/-- The draft that a document holds; `ids` has the ids of parts that come without one. -/
def read (ids : IdSupply) (v : Json) : Reading Draft :=
  (Reading.record v).andThen (ofEntries ids)

/-- The aggregates by the texts of their columns; of columns with one text the last counts. -/
def aggregationEntries (d : Draft) : List (String × Json) :=
  Entries.merge (d.aggregations.entries.map fun (c, a) => (c.text, .str a.word))

/-- The entries of a draft's document. -/
def entries (d : Draft) : List (String × Json) := [
  ("selectedTables", .texts (d.tables.map TableId.text)),
  ("selectedColumns", .texts (d.columns.map ColumnId.text)),
  ("aggregations", .obj d.aggregationEntries),
  ("joins", .arr (d.joins.map Join.document)),
  ("filters", .arr (d.filters.map Filter.document)),
  ("groupBy", .texts (d.groupBy.map ColumnId.text)),
  ("orderBy", .arr (d.orderBy.map SortKey.document)),
  ("calculatedColumns", .arr (d.formulas.map Formula.document)),
  ("limit", .int d.limit)]

def document (d : Draft) : Json := .obj d.entries

/-- The compact text of a draft's document. -/
def text (d : Draft) : String := d.document.text

/-- What the text of a draft may hold. -/
def textRules : Json.Rules where
  depth := 200
  digits := Text.maxDigits
  boundsFractions := true
  allowsHalves := false
  mergesEntries := false

/-- The draft that a text holds. -/
def ofText (ids : IdSupply) (s : String) : Reading Draft :=
  match Json.read textRules s with
  | .ok v => read ids v
  | .error _ => .fault .notJson

end Draft

end QueryDraft
