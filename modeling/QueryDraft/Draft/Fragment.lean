import QueryDraft.Catalog.Lookup
import QueryDraft.Argument

/-!
# Merging fragments

A fragment is a document, possibly of foreign making, with some of the sections of a draft's
document. It is laid over the document of the draft, and the result is replayed entry by entry
through the edits, starting from a blank draft. An entry that an edit refuses is dropped, and so is
one that the catalog, if there is one, does not know. What is dropped is shown in the log, so that an
entry that cannot be shown ends the replay.
-/

namespace QueryDraft

/-- The kind of an entry that was dropped. -/
inductive EntryKind where
  | table | column | aggregation | join | filter | groupBy | orderBy | formula
deriving DecidableEq, Repr

def EntryKind.label : EntryKind → String
  | table => "table"
  | column => "column"
  | aggregation => "aggregation"
  | join => "join"
  | filter => "filter"
  | groupBy => "group by"
  | orderBy => "order by"
  | formula => "calculated column"

/-- How far a fragment has been replayed. -/
structure Replay where
  draft : Draft
  dropped : List EntryKind := []

/-- Leaves out an entry, of which the log shows a part or the whole. -/
def Replay.drop (r : Replay) (kind : EntryKind) (shown : Json) : Except Failure Replay :=
  if shown.isShowable then .ok { r with dropped := r.dropped ++ [kind] }
  else .error (.badValue .longNumber)

namespace Draft

/-- What a catalog knows; without a catalog everything is known. -/
def knowsTable (catalog? : Option Catalog) (t : TableId) : Bool :=
  catalog?.all (·.hasTable t)

def knowsColumn (catalog? : Option Catalog) (c : ColumnId) : Bool :=
  catalog?.all fun catalog => (catalog.column? c).isSome

/-- A column by name, which the catalog must know. -/
def knownColumn (catalog? : Option Catalog) (v : Json) : Except Failure ColumnId := do
  let c ← Argument.column v
  if knowsColumn catalog? c then return c else throw .notInCatalog

/-! ### One entry -/

def replayTable (catalog? : Option Catalog) (v : Json) (d : Draft) : Except Failure Draft := do
  let t ← Argument.table v
  if knowsTable catalog? t then return d.addTable t else throw .notInCatalog

def replayColumn (catalog? : Option Catalog) (v : Json) (d : Draft) : Except Failure Draft := do
  let c ← knownColumn catalog? v
  return if c ∈ d.columns then d else d.toggleColumn c

/-- One aggregate, by its column. -/
def replayAggregation (catalog? : Option Catalog) (e : Json × Json) (d : Draft) :
    Except Failure Draft := do
  let c ← knownColumn catalog? e.1
  return d.setAggregate c (← Argument.aggregate e.2)

def replayJoin (catalog? : Option Catalog) (fresh : String) (v : Json) (d : Draft) :
    Except Failure Draft := do
  let j ← (Join.read fresh v).orFail
  if knowsColumn catalog? j.source && knowsColumn catalog? j.target then
    (d.addJoin j).mapError .fault
  else throw .notInCatalog

/-- An empty id is none. -/
def idOr (fresh id : String) : String := if id.isEmpty then fresh else id

def replayFilter (catalog? : Option Catalog) (fresh : String) (v : Json) (d : Draft) :
    Except Failure Draft := do
  let f ← (Filter.read fresh v).orFail
  if knowsColumn catalog? f.column then
    (d.addFilter { f with id := idOr fresh f.id }).mapError .fault
  else throw .notInCatalog

def replayGroupBy (catalog? : Option Catalog) (v : Json) (d : Draft) : Except Failure Draft := do
  let c ← knownColumn catalog? v
  if c ∈ d.groupBy then return d else (d.toggleGroupBy c).mapError .fault

def replaySort (catalog? : Option Catalog) (fresh : String) (v : Json) (d : Draft) :
    Except Failure Draft := do
  let s ← (SortKey.read fresh v).orFail
  if knowsColumn catalog? s.column then
    (d.addSort { s with id := idOr fresh s.id }).mapError .fault
  else throw .notInCatalog

def replayFormula (fresh : String) (v : Json) (d : Draft) : Except Failure Draft := do
  let f ← (Formula.read fresh v).orFail
  (d.addFormula { f with id := idOr fresh f.id }).mapError .fault

/-! ### All entries -/

/-- Replays the entries of one kind in order, each with an id of its own from the supply. Of one that
is dropped the log shows `shown`. -/
def replayEach {α : Type} (kind : EntryKind) (shown : α → Json)
    (step : String → α → Draft → Except Failure Draft) (ids : IdSupply) :
    (i : Nat) → List α → Replay → Except Failure Replay
  | _, [], r => .ok r
  | i, v :: vs, r =>
    match step (ids.branch i).id v r.draft with
    | .ok d => replayEach kind shown step ids (i + 1) vs { r with draft := d }
    | .error e =>
      if e.isDroppable then do
        let r ← r.drop kind (shown v)
        replayEach kind shown step ids (i + 1) vs r
      else .error e

/-- The entries of a section; a section that counts as nothing has none. -/
def sectionItems (es : List (String × Json)) (name : String) : Except Failure (List Json) :=
  match Entries.last? es name with
  | none => .ok []
  | some v => if v.isNothing then .ok [] else Argument.items v

/-- The aggregates of the section of that name, which must be an object. -/
def sectionEntries (es : List (String × Json)) (name : String) :
    Except Failure (List (Json × Json)) :=
  match Entries.last? es name with
  | none => .ok []
  | some v =>
    if v.isNothing then .ok []
    else match v with
      | .obj entries => .ok ((Entries.merge entries).map fun (k, v) => (.str k, v))
      | .tornObj entries => .ok ((Entries.merge entries).map fun (k, v) => (.ofPoints k, v))
      | _ => .error .notAName

/-- Replays one section of a document. -/
def replaySection (es : List (String × Json)) (name : String) (kind : EntryKind) (ids : IdSupply)
    (step : String → Json → Draft → Except Failure Draft) (r : Replay) : Except Failure Replay := do
  replayEach kind id step ids 0 (← sectionItems es name) r

/-- The limit of a document, if it is a whole number. -/
def sectionLimit? (es : List (String × Json)) : Option Int :=
  match Entries.last? es "limit" with
  | some (.int n) => some n
  | _ => none

/-- Merges a fragment into a draft. -/
def applyFragment (d : Draft) (fragment : List (String × Json)) (catalog? : Option Catalog)
    (ids : IdSupply) : Except Failure Replay := do
  let es := Entries.putAll d.entries fragment
  let r : Replay := { draft := blank d.limit }
  let r ← replaySection es "selectedTables" .table ids (fun _ => replayTable catalog?) r
  let r ← replaySection es "selectedColumns" .column ids (fun _ => replayColumn catalog?) r
  let r ← replayEach .aggregation Prod.fst (fun _ => replayAggregation catalog?) ids 0
    (← sectionEntries es "aggregations") r
  let r ← replaySection es "joins" .join (ids.branch 0) (replayJoin catalog?) r
  let r ← replaySection es "filters" .filter (ids.branch 1) (replayFilter catalog?) r
  let r ← replaySection es "groupBy" .groupBy ids (fun _ => replayGroupBy catalog?) r
  let r ← replaySection es "orderBy" .orderBy (ids.branch 2) (replaySort catalog?) r
  let r ← replaySection es "calculatedColumns" .formula (ids.branch 3) replayFormula r
  return match sectionLimit? es with
    | some n => { r with draft := r.draft.setLimit n }
    | none => r

end Draft

end QueryDraft
