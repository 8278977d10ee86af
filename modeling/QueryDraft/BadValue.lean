import QueryDraft.Text.Whole

/-!
# Refused values

Why a single value is refused, whatever it was meant for. The values are kept as the text that the
message shows.
-/

namespace QueryDraft

inductive BadValue where
  | tableName (text : String)
  | columnName (text : String)
  | notMember (shown kind : String)
  | notWhole (shown : String)
  | tooManyDigits (count : Nat)
  /-- The value holds a number that is too long to be written. -/
  | longNumber
  | notANumber
  | unknownTable (name catalog : String)
  | duplicateTable (name : String)
  | unknownCatalog (name : String) (known : List String)
deriving DecidableEq, Repr

namespace BadValue

/-- How much of a value is shown where a whole number is expected. -/
def shownLength : Nat := 200

def message : BadValue → String
  | tableName text => s!"Invalid table identifier: '{text}'"
  | columnName text => s!"Invalid column identifier: '{text}'"
  | notMember shown kind => s!"{shown} is not a valid {kind}"
  | notWhole shown =>
    "invalid literal for int() with base 10: " ++ .ofList (shown.toList.take shownLength)
  | tooManyDigits count =>
    s!"Exceeds the limit ({Text.maxDigits} digits) for integer string conversion: " ++
      s!"value has {count} digits; use sys.set_int_max_str_digits() to increase the limit"
  | longNumber =>
    s!"Exceeds the limit ({Text.maxDigits} digits) for integer string conversion; " ++
      "use sys.set_int_max_str_digits() to increase the limit"
  | notANumber => "cannot convert float NaN to integer"
  | unknownTable name catalog => s!"Table '{name}' not found in schema '{catalog}'"
  | duplicateTable name => s!"Duplicate table '{name}' in schema"
  | unknownCatalog name known =>
    s!"Catalog '{name}' not found. Available: [" ++
      ", ".intercalate (known.map fun k => s!"'{k}'") ++ "]"

/-- Why a text is refused where a whole number is expected. -/
def ofWhole (shown : String) : Text.WholeFault → BadValue
  | .notWhole => notWhole shown
  | .tooManyDigits count => tooManyDigits count

end BadValue

end QueryDraft
