import QueryDraft.BadValue
import QueryDraft.Text.Lowercase
import QueryDraft.Text.Quoted
import QueryDraft.Text.Whole

/-!
# Settings

What can be set from outside, read from an environment of named texts, and the lines that are
logged about it.
-/

namespace QueryDraft

inductive Level where
  | info | warning
deriving DecidableEq, Repr

def Level.word : Level → String
  | info => "INFO"
  | warning => "WARNING"

/-- A line of the log. -/
structure LogLine where
  level : Level
  text : String
deriving DecidableEq, Repr

structure Settings where
  debug : Bool := true
  name : String := "SQL Query Composer"
  version : String := "1.0.0"
  defaultLimit : Int := 100
  catalog : String := "ecommerce"
  /-- What a comment of a preview starts with. -/
  commentMark : String := "--"
  host : String := "0.0.0.0"
  port : Int := 8000
  suggestsJoins : Bool := true
  usesHeuristic : Bool := true
deriving DecidableEq, Repr

namespace Settings

/-- A flag is set by the word `true` in any case. -/
def flag (environment : String → Option String) (name : String) (default : Bool) : Bool :=
  match environment name with
  | some s => Text.lowercase s == "true"
  | none => default

def number (environment : String → Option String) (name : String) (default : Int) :
    Except BadValue Int :=
  match environment name with
  | none => .ok default
  | some s => (Text.whole s).mapError (.ofWhole (Text.quoted s))

/-- The settings of an environment. -/
def ofEnvironment (environment : String → Option String) : Except BadValue Settings := do
  let usual : Settings := {}
  let defaultLimit ← number environment "DEFAULT_LIMIT" usual.defaultLimit
  let port ← number environment "APP_PORT" usual.port
  return {
    debug := flag environment "DEBUG" usual.debug
    defaultLimit
    catalog := (environment "SCHEMA_CATALOG").getD usual.catalog
    commentMark := (environment "PREVIEW_ERROR_PREFIX").getD usual.commentMark
    host := (environment "APP_HOST").getD usual.host
    port
    suggestsJoins := flag environment "ENABLE_JOIN_SUGGESTIONS" usual.suggestsJoins
    usesHeuristic := flag environment "ENABLE_CROSS_SCHEMA_HEURISTIC" usual.usesHeuristic }

/-- The names of the features and whether they are on. -/
def features (s : Settings) : List (String × Bool) :=
  [("enable_join_suggestions", s.suggestsJoins), ("enable_cross_schema_heuristic", s.usesHeuristic)]

/-- The least level that is logged. -/
def logLevel (s : Settings) : String := if s.debug then "DEBUG" else "INFO"

/-- The shape of a line of the log. -/
def logFormat : String := "%(asctime)s - %(name)s - %(levelname)s - %(message)s"

/-- What is logged about the settings. -/
def report (s : Settings) : List LogLine :=
  let disabled := s.features.filterMap fun (name, on) => if on then none else some name
  [⟨.info, s!"📦 Schema catalog: {s.catalog}"⟩,
    ⟨.info, s!"🔢 Default row limit: {s.defaultLimit}"⟩] ++
    (if s.defaultLimit ≤ 0 then
      [⟨.warning, "⚠️  DEFAULT_LIMIT is not positive. Generated queries will be rejected until " ++
        "a limit is set."⟩]
    else []) ++
    (if disabled.isEmpty then []
    else [⟨.info, "💡 Disabled features: " ++ ", ".intercalate disabled⟩]) ++
    (if s.debug then [⟨.info, "🚀 Starting SQL Query Composer (Debug Mode)"⟩] else [])

end Settings

end QueryDraft
