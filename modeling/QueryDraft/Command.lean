import QueryDraft.Draft.Fragment
import QueryDraft.Relation
import QueryDraft.Starter

/-!
# Commands

The edits of a session, with arguments as they come: JSON values that may or may not be what the
edit needs. `Command.run` makes a new draft or fails, and a session goes on with the old draft after
a failure (`Session.after`).
-/

namespace QueryDraft

inductive Command where
  | startAnew (limit? : Option Json)
  | addTable (table : Json)
  | removeTable (table : Json)
  | toggleTable (table : Json)
  | clearTables
  | toggleColumn (column : Json)
  | selectColumns (table names : Json)
  | deselectColumns (table names : Json)
  | setAggregate (column func : Json)
  | addJoin (join : Json)
  | updateJoin (id changes : Json)
  | removeJoin (id : Json)
  | addFilter (column : Json) (operator? value? id? : Option Json)
  | updateFilter (id changes : Json)
  | removeFilter (id : Json)
  | toggleGroupBy (column : Json)
  | addSort (column : Json) (direction? id? : Option Json)
  | updateSort (id changes : Json)
  | removeSort (id : Json)
  | addFormula (name expression : Json) (id? : Option Json)
  | removeFormula (id : Json)
  | setLimit (limit : Json)
  | applyFragment (fragment : Json) (checked : Bool)
  | applyStarter (starter : Starter)
  | acceptSuggestion (table : Json) (heuristic : Bool)
  | reload

namespace Command

/-- What commands are run with: the catalog, the limit of a new draft, and fresh ids. -/
structure Context where
  catalog : Catalog
  defaultLimit : Int
  ids : IdSupply

/-- A new draft with a limit of its own or the given one. -/
def newDraft (defaultLimit : Int) : Option Json → Except Failure Draft
  | none | some .null => .ok (.blank defaultLimit)
  | some v => (Draft.blank <$> (Reading.whole v).under (.key "limit")).orFail

/-- An edit of the entry with an id; only texts are ids. -/
def onEntry (id : Json) (edit : String → Except Failure Draft) : Except Failure Draft :=
  match id with
  | .str s => edit s
  | v => .error (.unknownEntry v)

/-- Removes the entry with an id; only texts are ids. -/
def without (id : Json) (edit : String → Draft) (d : Draft) : Draft :=
  match id with
  | .str s => edit s
  | _ => d

/-- Changes to an entry, which cannot name the draft or the id again. -/
def ownChanges (idName : String) (changes : Json) : Except Failure (List (String × Json)) := do
  let changes ← Argument.entries changes
  if changes.any fun (k, _) => k == "state" || k == idName then throw .unusable
  return changes

def runAddFilter (fresh : String) (column : Json) (operator? value? id? : Option Json)
    (d : Draft) : Except Failure Draft := do
  let column ← Argument.column column
  let operator ← Argument.operator (operator?.getD (.str Operator.equal.word))
  let value := (Filter.readValue (value?.getD (.str ""))).under (.key "value")
  let (id, value) ← (Prod.mk <$> Argument.id fresh id? <*> value).orFail
  (d.addFilter { id, column, operator, value }).mapError .fault

def runAddSort (fresh : String) (column : Json) (direction? id? : Option Json) (d : Draft) :
    Except Failure Draft := do
  let column ← Argument.column column
  let direction ← Argument.direction (direction?.getD (.str Direction.asc.word))
  let id ← (Argument.id fresh id?).orFail
  (d.addSort { id, column, direction }).mapError .fault

/-- The id is looked at last. -/
def runAddFormula (fresh : String) (name expression : Json) (id? : Option Json) (d : Draft) :
    Except Failure Draft := do
  let (name, expression) ← Argument.formula name expression
  let formula : Formula := { id := fresh, name, expression }
  let _ ← (d.addFormula formula).mapError .fault
  let id ← (Argument.id fresh id?).orFail
  (d.addFormula { formula with id }).mapError .fault

/-- The draft and the dropped entries of a fragment after a command. -/
def run (c : Context) (d : Draft) : Command → Except Failure Replay
  | startAnew limit? => return { draft := ← newDraft c.defaultLimit limit? }
  | addTable table => return { draft := d.addTable (← Argument.table table) }
  | removeTable table => return { draft := d.removeTable (← Argument.table table) }
  | toggleTable table => return { draft := d.toggleTable (← Argument.table table) }
  | clearTables => return { draft := d.clear }
  | toggleColumn column => return { draft := d.toggleColumn (← Argument.column column) }
  | selectColumns table names => do
    let t ← Argument.table table
    return { draft := d.selectColumns t (← Argument.columnNames names) }
  | deselectColumns table names => do
    let t ← Argument.table table
    return { draft := d.deselectColumns t (← Argument.columnNames names) }
  | setAggregate column func => do
    let column ← Argument.column column
    return { draft := d.setAggregate column (← Argument.aggregate func) }
  | addJoin join => do
    let j ← (Join.read c.ids.id join).orFail
    return { draft := ← (d.addJoin j).mapError .fault }
  | updateJoin id changes => do
    let changes ← ownChanges "join_id" changes
    return { draft := ← onEntry id fun id => d.updateJoin id changes }
  | removeJoin id => return { draft := without id d.removeJoin d }
  | addFilter column operator? value? id? =>
    return { draft := ← runAddFilter c.ids.id column operator? value? id? d }
  | updateFilter id changes => do
    let changes ← ownChanges "filter_id" changes
    return { draft := ← onEntry id fun id => d.updateFilter id changes }
  | removeFilter id => return { draft := without id d.removeFilter d }
  | toggleGroupBy column => do
    let column ← Argument.column column
    return { draft := ← (d.toggleGroupBy column).mapError .fault }
  | addSort column direction? id? =>
    return { draft := ← runAddSort c.ids.id column direction? id? d }
  | updateSort id changes => do
    let changes ← ownChanges "sort_id" changes
    return { draft := ← onEntry id fun id => d.updateSort id changes }
  | removeSort id => return { draft := without id d.removeSort d }
  | addFormula name expression id? =>
    return { draft := ← runAddFormula c.ids.id name expression id? d }
  | removeFormula id => return { draft := without id d.removeFormula d }
  | setLimit limit => return { draft := d.setLimit (← Argument.whole limit) }
  | applyFragment fragment checked => do
    let entries ← Argument.entries fragment
    d.applyFragment entries (if checked then some c.catalog else none) c.ids
  | applyStarter starter => starter.apply d (some c.catalog) c.ids
  | acceptSuggestion table heuristic => do
    let t ← Argument.table table
    return { draft := ← (d.acceptSuggestion c.catalog heuristic t).mapError .fault }
  | reload => return { draft := ← (Draft.ofText c.ids d.text).orFail }

end Command

/-- The draft after some commands, the supply having a branch for each. A command that fails leaves
the draft as it is. -/
def Session.after (c : Command.Context) : (i : Nat) → Draft → List Command → Draft
  | _, d, [] => d
  | i, d, cmd :: cmds =>
    match cmd.run { c with ids := c.ids.branch i } d with
    | .ok r => Session.after c (i + 1) r.draft cmds
    | .error _ => Session.after c (i + 1) d cmds

end QueryDraft
