import QueryDraft.BadValue
import QueryDraft.Json.Display
import QueryDraft.Text.Whole

/-!
# Reading documents

A reading of a JSON value yields a value or all the issues found, each with the path to the place
where it lies. Readings are combined so that no issue hides another (`seq_faults`), and issues are
in the order of the fields and items they belong to.
-/

namespace QueryDraft

/-- A step into a document. -/
inductive Step where
  | key (name : String)
  | index (i : Nat)
deriving DecidableEq, Repr

namespace Step

/-- The part of a value that a step leads to. -/
def part? : Step → Json → Option Json
  | key name, v => v.entry? name
  | index i, .arr vs => vs[i]?
  | index _, _ => none

/-- Where a path leads: to the last value on it that is there. -/
def reach : List Step → Json → Json
  | [], v => v
  | step :: path, v =>
    match step.part? v with
    | some part => reach path part
    | none => v

end Step

/-- What is wrong with a value. -/
inductive Cause where
  | missing
  | notRecord
  | notRequestRecord
  | notText
  | notUnicode
  | notTuple
  | notList
  | notObject
  | notMember
  | notLiteral
  | wholeKind
  | wholeText
  | wholeFraction
  | wholeSize
  | notFinite
  | truthKind
  | truthText
  | notJson
  | refused (why : BadValue)
deriving DecidableEq, Repr

/-- The word for a cause. -/
def Cause.word : Cause → String
  | missing => "missing"
  | notRecord => "model_type"
  | notRequestRecord => "model_attributes_type"
  | notText => "string_type"
  | notUnicode => "string_unicode"
  | notTuple => "tuple_type"
  | notList => "list_type"
  | notObject => "dict_type"
  | notMember => "enum"
  | notLiteral => "literal_error"
  | wholeKind => "int_type"
  | wholeText => "int_parsing"
  | wholeFraction => "int_from_float"
  | wholeSize => "int_parsing_size"
  | notFinite => "finite_number"
  | truthKind => "bool_type"
  | truthText => "bool_parsing"
  | notJson => "json_invalid"
  | refused _ => "value_error"

structure Issue where
  path : List Step
  cause : Cause
deriving DecidableEq, Repr

namespace Issue

/-- The message of an issue; only a refused value has one. -/
def message? (i : Issue) : Option String :=
  match i.cause with
  | .refused why => some ("Value error, " ++ why.message)
  | _ => none

def stepDocument : Step → Json
  | .key name => .str name
  | .index i => .int i

/-- The issue as a document. -/
def document (i : Issue) : Json := .obj <|
  [("loc", .arr (i.path.map stepDocument)), ("type", .str i.cause.word)] ++
    (i.message?.map fun m => ("msg", .str m)).toList

/-- The issue inside a larger document. -/
def under (step : Step) (i : Issue) : Issue := { i with path := step :: i.path }

/-- The value that an issue is about; what is missing is missed in the value around it. -/
def subject (i : Issue) (v : Json) : Json := Step.reach i.path v

/-- Issues of a request say of a value that it is neither a record nor like one. -/
def inRequest (i : Issue) : Issue :=
  if i.cause = .notRecord then { i with cause := .notRequestRecord } else i

end Issue

inductive Reading (α : Type) where
  | value (a : α)
  | faults (issues : List Issue)

namespace Reading

variable {α β : Type}

def fault (cause : Cause) : Reading α := .faults [⟨[], cause⟩]

def map (f : α → β) : Reading α → Reading β
  | .value a => .value (f a)
  | .faults es => .faults es

def seq (f : Reading (α → β)) (a : Reading α) : Reading β :=
  match f, a with
  | .value f, .value a => .value (f a)
  | .value _, .faults es => .faults es
  | .faults es, .value _ => .faults es
  | .faults es, .faults es' => .faults (es ++ es')

instance : Applicative Reading where
  pure := .value
  map := map
  seq f a := seq f (a ())

/-- A check that looks at a value only if it could be read. -/
def andThen (a : Reading α) (f : α → Reading β) : Reading β :=
  match a with
  | .value a => f a
  | .faults es => .faults es

/-- The reading of a part, as part of the whole. -/
def under (step : Step) : Reading α → Reading α
  | .value a => .value a
  | .faults es => .faults (es.map (.under step))

def inRequest : Reading α → Reading α
  | .value a => .value a
  | .faults es => .faults (es.map .inRequest)

theorem seq_faults (es es' : List Issue) :
    seq (.faults es : Reading (α → β)) (.faults es') = .faults (es ++ es') := rfl

theorem seq_eq_value {f : Reading (α → β)} {a : Reading α} {b : β} :
    seq f a = .value b ↔ ∃ g x, f = .value g ∧ a = .value x ∧ g x = b := by
  cases f <;> cases a <;> simp [seq]

/-- Items read one by one, each knowing its place. -/
def itemsFrom (i : Nat) (read : Nat → Json → Reading α) : List Json → Reading (List α)
  | [] => .value []
  | v :: vs => List.cons <$> (read i v).under (.index i) <*> itemsFrom (i + 1) read vs

/-- The items of a list; `cause` is the complaint about anything else. -/
def items (cause : Cause) (read : Nat → Json → Reading α) : Json → Reading (List α)
  | .arr vs => itemsFrom 0 read vs
  | _ => fault cause

/-- The entries of a record. Keys that are no field's are passed over, torn ones among them. -/
def record (v : Json) : Reading (List (String × Json)) :=
  match v.entries? with
  | some entries => .value entries
  | none => fault .notRecord

/-- The entries of an object that may hold anything. -/
def object : Json → Reading (List (String × Json))
  | .obj entries => .value entries
  | .tornObj _ => fault .notUnicode
  | _ => fault .notObject

/-- The name of a field in documents, and its plain name, which is accepted too. -/
structure FieldName where
  document : String
  plain : String := document

/-- A field of a record, by its document name if it is there and else by its plain name. Without
either, the default counts; a field without a default is missing. -/
def field (name : FieldName) (default? : Option α) (read : Json → Reading α)
    (entries : List (String × Json)) : Reading α :=
  match Entries.last? entries name.document, Entries.last? entries name.plain with
  | some v, _ => (read v).under (.key name.document)
  | none, some v => (read v).under (.key name.plain)
  | none, none =>
    match default? with
    | some a => .value a
    | none => (fault .missing).under (.key name.document)

/-! ### Simple values -/

def text : Json → Reading String
  | .str s => .value s
  | .tornStr _ => fault .notUnicode
  | _ => fault .notText

def textOrNull : Json → Reading (Option String)
  | .null => .value none
  | v => some <$> text v

/-- A word of a closed set. -/
def member (ofWord? : String → Option α) : Json → Reading α
  | .str s => match ofWord? s with
    | some a => .value a
    | none => fault .notMember
  | _ => fault .notMember

/-- The numbers below this one have a sign and 63 binary digits. -/
def wordBound : Int := Int.pow 2 63

/-- A whole number of any size; one that is written with a fraction or an exponent must be small. -/
def whole : Json → Reading Int
  | .bool b => .value (if b then 1 else 0)
  | .int n => .value n
  | .float x =>
    let n := x.truncate?.getD 0
    if !x.isFinite then fault .notFinite
    else if !x.isWhole then fault .wholeFraction
    else if -wordBound < n && n < wordBound then .value n
    else fault .wholeSize
  | .str s => match Text.plainWhole s with
    | .ok n => .value n
    | .error .notWhole => fault .wholeText
    | .error (.tooManyDigits _) => fault .wholeSize
  | .tornStr _ => fault .notUnicode
  | _ => fault .wholeKind

/-- The words for true and false, in lower case. -/
def truthWords : List (String × Bool) :=
  [("1", true), ("on", true), ("t", true), ("true", true), ("y", true), ("yes", true),
    ("0", false), ("off", false), ("f", false), ("false", false), ("n", false), ("no", false)]

def truthOfNumber (n : Int) : Reading Bool :=
  if n = 0 then .value false else if n = 1 then .value true else fault .truthText

def truth : Json → Reading Bool
  | .bool b => .value b
  | .int n => if -wordBound ≤ n && n < wordBound then truthOfNumber n else fault .truthKind
  | .float x =>
    let n := x.truncate?.getD 0
    if x.isWhole && -wordBound < n && n < wordBound then truthOfNumber n else fault .truthKind
  | .str s => match Entries.first? truthWords (.ofList (s.toList.map Char.toLower)) with
    | some b => .value b
    | none => fault .truthText
  | .tornStr _ => fault .notUnicode
  | _ => fault .truthKind

end Reading

end QueryDraft
