import QueryDraft.Catalog.Document
import QueryDraft.Command
import QueryDraft.Settings
import QueryDraft.Sql.Compile
import QueryDraft.Text.Encoding

/-!
# The service

Requests and answers of the service that a user interface works with. The interface owns the draft
and sends it with every request; a request may bring a catalog of its own.
-/

namespace QueryDraft.Service

/-- What the service is set up with: its settings, the catalog it serves and fresh ids. -/
structure Setup where
  settings : Settings
  catalog : Catalog
  ids : IdSupply

structure Request where
  method : String
  path : String
  body : String

structure Response where
  status : Nat
  body : Json

/-! ### Bodies of requests -/

/-- The catalog of a request, under its short name or its full one. -/
def catalogField (es : List (String × Json)) : Reading (Option Catalog) :=
  Reading.field ⟨"schema", "database_schema"⟩ (some none)
    (fun v => match v with
      | .null => .value none
      | v => some <$> Catalog.read v) es

def draftField (ids : IdSupply) (es : List (String × Json)) : Reading Draft :=
  Reading.field ⟨"state", "state"⟩ none (Draft.read ids) es

/-- A draft to compile. -/
structure CompileBody where
  draft : Draft
  catalog? : Option Catalog

def CompileBody.read (ids : IdSupply) (es : List (String × Json)) : Reading CompileBody :=
  CompileBody.mk <$> draftField ids es <*> catalogField es

/-- Two tables that may be related. -/
structure InferBody where
  fromTable : String
  toTable : String
  catalog? : Option Catalog

def InferBody.read (es : List (String × Json)) : Reading InferBody :=
  InferBody.mk
    <$> Reading.field ⟨"fromTable", "from_table"⟩ none Reading.text es
    <*> Reading.field ⟨"toTable", "to_table"⟩ none Reading.text es
    <*> catalogField es

/-- A table to be added to a draft. -/
structure SuggestBody where
  draft : Draft
  table : String
  catalog? : Option Catalog

def SuggestBody.read (ids : IdSupply) (es : List (String × Json)) : Reading SuggestBody :=
  SuggestBody.mk
    <$> draftField ids es
    <*> Reading.field ⟨"table", "table"⟩ none Reading.text es
    <*> catalogField es

/-- A formula to be looked at. -/
structure FormulaBody where
  name : String
  expression : String

def FormulaBody.read (es : List (String × Json)) : Reading FormulaBody :=
  FormulaBody.mk
    <$> Reading.field ⟨"alias", "alias"⟩ (some "") Reading.text es
    <*> Reading.field ⟨"expression", "expression"⟩ (some "") Reading.text es

/-- A fragment to be merged into a draft. -/
structure FragmentBody where
  draft : Draft
  fragment : List (String × Json)
  catalog? : Option Catalog

def FragmentBody.read (ids : IdSupply) (es : List (String × Json)) : Reading FragmentBody :=
  FragmentBody.mk
    <$> draftField ids es
    <*> Reading.field ⟨"fragment", "fragment"⟩ (some []) Reading.object es
    <*> catalogField es

/-- What the body of a request may hold. -/
def bodyRules : Json.Rules where
  depth := 965
  digits := Text.maxDigits
  boundsFractions := false
  allowsHalves := true
  mergesEntries := true

/-- What the body of a request is. -/
inductive Body where
  | absent
  | value (v : Json)
  | notJson
  | unreadable

/-- The body that a text stands for. -/
def Body.ofText (body : String) : Body :=
  if body.isEmpty then absent
  else
    match Text.Encoding.points? body with
    | none => unreadable
    | some ps =>
      match Json.readPoints bodyRules ps with
      | .ok v => value v
      | .error .malformed => notJson
      | .error .excessive => unreadable

/-! ### Answers -/

def ok (body : Json) : Response := ⟨200, body⟩

/-- The answer to a request that ends in an error of its own. -/
def errorBody (r : Request) (status : Nat) (error : String) : Response :=
  ⟨status, .obj [("success", .bool false), ("error", .str error), ("path", .str r.path),
    ("method", .str r.method)]⟩

def detail (status : Nat) (text : String) : Response := ⟨status, .obj [("detail", .str text)]⟩

def refused (f : Fault) : Response := ⟨422, f.document⟩

/-- The answer to a request that could not be carried out; what went wrong is told in debug mode
only. -/
def failed (s : Setup) (r : Request) : Failure → Response
  | .fault f => refused f
  | f => errorBody r 500 (if s.settings.debug then f.summary else "Internal server error")

/-- The answer to a body that is not what it should be. -/
def invalid (issues : List Issue) : Response :=
  ⟨422, .obj [("detail", .arr (issues.map fun i => (i.under (.key "body")).document))]⟩

/-- The answer to a value that is not what it should be. What the issues are about goes with them,
so that all of it must be repeatable. -/
def invalidValue (s : Setup) (r : Request) (v : Json) (issues : List Issue) : Response :=
  if issues.all fun i => (i.subject v).isRepeatable then invalid (issues.map Issue.inRequest)
  else failed s r .unwritable

/-- Goes on with a body that could be read. -/
def withBody {α : Type} (s : Setup) (r : Request) (read : List (String × Json) → Reading α)
    (answer : α → Response) : Response :=
  match Body.ofText r.body with
  | .absent => invalid [⟨[], .missing⟩]
  | .notJson => invalid [⟨[], .notJson⟩]
  | .unreadable => detail 400 "There was an error parsing the body"
  | .value v =>
    match (Reading.record v).andThen read with
    | .value a => answer a
    | .faults issues => invalidValue s r v issues

def joinOrNull (j : Option Join) : Json := j.elim .null Join.document

/-- The state of the service; who answers may add the time. -/
def health (s : Setup) : Response :=
  ok <| .obj [
    ("status", .str "healthy"),
    ("version", .str s.settings.version),
    ("components", .obj [("catalog", .obj [
      ("status", .str "healthy"),
      ("name", .str s.catalog.name),
      ("tables", .int s.catalog.tables.length),
      ("schemas", .int (distinct (s.catalog.tables.map Table.schema)).length)])])]

def starters (s : Setup) : Response :=
  ok <| .obj [("starters", .arr ((Starter.forCatalog s.catalog).map Starter.document))]

def preview (s : Setup) (r : Request) (b : CompileBody) : Response :=
  match b.draft.tryPreview (b.catalog?.getD s.catalog) s.settings.commentMark with
  | .ok text => ok <| .obj [("sql", .str text)]
  | .error f => failed s r f.failure

def generate (s : Setup) (r : Request) (b : CompileBody) : Response :=
  match b.draft.generate (b.catalog?.getD s.catalog) with
  | .ok compiled => ok compiled.document
  | .error f => failed s r f.failure

def infer (s : Setup) (b : InferBody) : Response :=
  ok <| .obj [("join", joinOrNull (Relation.inferNamed? (b.catalog?.getD s.catalog)
    s.settings.usesHeuristic b.fromTable b.toTable))]

/-- The draft with the table added, and how the table might be joined. -/
def suggest (s : Setup) (r : Request) (b : SuggestBody) : Response :=
  let catalog := b.catalog?.getD s.catalog
  match TableId.parse b.table with
  | .error why => errorBody r 404 why.message
  | .ok t =>
    if catalog.hasTable t then
      let join :=
        if s.settings.suggestsJoins then
          Relation.suggest? catalog s.settings.usesHeuristic b.draft t
        else none
      ok <| .obj [("state", (b.draft.addTable t).document), ("suggestedJoin", joinOrNull join)]
    else errorBody r 404 (BadValue.unknownTable t.text catalog.name).message

def validateFormula (b : FormulaBody) : Response :=
  let fault? := Draft.formulaFault? b.name b.expression
  ok <| .obj [
    ("valid", .bool fault?.isNone),
    ("alias", if fault?.isNone then .str (Text.sanitizeAlias b.name) else .null),
    ("error", .optionalText (fault?.map FormulaFault.message))]

def mergeFragment (s : Setup) (r : Request) (b : FragmentBody) : Response :=
  match b.draft.applyFragment b.fragment (some (b.catalog?.getD s.catalog)) (s.ids.branch 1) with
  | .ok merged => ok <| .obj [("state", merged.draft.document)]
  | .error f => failed s r f

/-! ### Routes -/

/-- A place that can be asked, how it is asked, and what it answers. -/
structure Route where
  path : String
  method : String
  respond : Setup → Request → Response

namespace Route

/-- The path of a route may have one line break behind it. -/
def isAt (route : Route) (path : String) : Bool :=
  path == route.path || path == route.path ++ "\n"

/-- A route that needs nothing but the setup. -/
def plain (path : String) (respond : Setup → Response) : Route :=
  ⟨path, "GET", fun s _ => respond s⟩

/-- A route that needs a body, read with ids from the first branch of the supply. -/
def withBody {α : Type} (path : String)
    (read : IdSupply → List (String × Json) → Reading α)
    (respond : Setup → Request → α → Response) : Route :=
  ⟨path, "POST", fun s r => Service.withBody s r (read (s.ids.branch 0)) (respond s r)⟩

end Route

def routes : List Route := [
  .plain "/health" health,
  .plain "/schema" fun s => ok s.catalog.document,
  .plain "/starters" starters,
  .withBody "/compile/preview" CompileBody.read preview,
  .withBody "/compile/generate" CompileBody.read generate,
  .withBody "/joins/infer" (fun _ => InferBody.read) fun s _ => infer s,
  .withBody "/joins/suggest" SuggestBody.read suggest,
  .withBody "/expressions/validate" (fun _ => FormulaBody.read) fun _ _ => validateFormula,
  .withBody "/state/fragment" FragmentBody.read mergeFragment]

def route? (path : String) : Option Route := routes.find? (·.isAt path)

/-- A path without the slashes behind it. -/
def withoutSlashes (path : String) : String :=
  .ofList (path.toList.reverse.dropWhile (· == '/')).reverse

/-- The answer to a request. Errors show the path of the route. Who asks with slashes behind the
path of a route is sent there. -/
def answer (s : Setup) (r : Request) : Response :=
  match route? r.path with
  | some route =>
    if route.method == r.method then route.respond s { r with path := route.path }
    else detail 405 "Method Not Allowed"
  | none =>
    if (route? (withoutSlashes r.path)).isSome then ⟨307, .null⟩
    else detail 404 "Not Found"

/-- What is logged from start to end. -/
def journal (settings : Settings) (catalog : Catalog) : List LogLine :=
  let columns := (catalog.tables.flatMap (·.columns)).length
  [⟨.info, s!"🚀 Starting {settings.name}..."⟩] ++ settings.report ++
    [⟨.info, s!"Catalog loaded: {catalog.name} " ++
        s!"({catalog.tables.length} tables, {columns} columns)"⟩,
      ⟨.info, s!"👋 {settings.name} shut down"⟩]

end QueryDraft.Service
