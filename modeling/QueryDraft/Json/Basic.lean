import QueryDraft.Number.Binary64
import QueryDraft.OrderedMap
import QueryDraft.Text.Point

/-!
# JSON values

Whole numbers are kept apart from numbers with a fraction or an exponent. An object is the list of
its entries in the order of the text; of entries with one key the last one counts. A text is torn
if it holds half of a surrogate pair, an object if one of its keys is torn; nothing takes a torn
text for a name, so that the proper entries of a torn object are all that is looked up.
-/

namespace QueryDraft

inductive Json where
  | null
  | bool (b : Bool)
  | int (n : Int)
  | float (x : Binary64)
  | str (s : String)
  | arr (items : List Json)
  | obj (entries : List (String × Json))
  | tornStr (points : List Text.Point)
  | tornObj (entries : List (List Text.Point × Json))

namespace Json

instance : Inhabited Json := ⟨.null⟩

/-- A list of texts. -/
def texts (ss : List String) : Json := .arr (ss.map .str)

/-- A text, or null where there is none. -/
def optionalText : Option String → Json
  | some s => .str s
  | none => .null

/-- The text of some code points. -/
def ofPoints (ps : List Text.Point) : Json := (Text.Point.text? ps).elim (.tornStr ps) .str

/-- An entry whose key is no torn text. -/
def proper? (e : List Text.Point × Json) : Option (String × Json) :=
  (Text.Point.text? e.1).map (·, e.2)

/-- The object with some entries. -/
def ofEntries (es : List (List Text.Point × Json)) : Json :=
  (es.mapM proper?).elim (.tornObj es) .obj

/-- Null, false, zero and what is empty count as nothing. -/
def isNothing : Json → Bool
  | .null => true
  | .bool b => !b
  | .int n => n == 0
  | .float x => x.isZero
  | .str s => s.isEmpty
  | .arr items => items.isEmpty
  | .obj entries => entries.isEmpty
  | .tornStr points => points.isEmpty
  | .tornObj entries => entries.isEmpty

/-- The entries of an object, those with a torn key left out; values of other kinds have none. -/
def entries? : Json → Option (List (String × Json))
  | .obj entries => some entries
  | .tornObj entries => some (entries.filterMap proper?)
  | _ => none

/-- The entry of an object; values of other kinds have none. -/
def entry? (key : String) (v : Json) : Option Json :=
  v.entries?.bind fun es => Entries.last? es key

theorem ofPoints_ofText (s : String) : ofPoints (Text.Point.ofText s) = .str s := by
  simp [ofPoints, Text.Point.text?_eq_some_iff.2 rfl]

theorem proper?_ofText (k : String) (v : Json) :
    proper? (Text.Point.ofText k, v) = some (k, v) := by
  simp [proper?, Text.Point.text?_eq_some_iff.2 rfl]

theorem ofEntries_ofText (es : List (String × Json)) :
    ofEntries (es.map fun e => (Text.Point.ofText e.1, e.2)) = .obj es := by
  have h : (es.map fun e => (Text.Point.ofText e.1, e.2)).mapM proper? = some es := by
    induction es with
    | nil => rfl
    | cons e es ih => simp [proper?_ofText, ih]
  simp [ofEntries, h]

mutual

/-- Whether the value can be repeated in an answer: no number that is not finite, no torn text. -/
def isRepeatable : Json → Bool
  | .float x => x.isFinite
  | .arr items => areRepeatable items
  | .obj entries => entriesAreRepeatable entries
  | .tornStr _ | .tornObj _ => false
  | _ => true

def areRepeatable : List Json → Bool
  | [] => true
  | v :: vs => v.isRepeatable && areRepeatable vs

def entriesAreRepeatable : List (String × Json) → Bool
  | [] => true
  | (_, v) :: es => v.isRepeatable && entriesAreRepeatable es

end

end Json

end QueryDraft
