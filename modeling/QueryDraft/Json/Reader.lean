import QueryDraft.Json.Basic

/-!
# Reading JSON

A text is read if it is one JSON value between blanks. It is read by its code points: half of a
surrogate pair that stands in the text itself is no part of a pair, also beside an escaped half.
Besides JSON's own numbers, `NaN` and the infinities are read. The rules of a reading bound what a
text may hold; a text that goes beyond them is told from one that is no JSON, whichever shows
first.
-/

namespace QueryDraft.Json

open Text (Piece Point)

/-- What may stand in a text. -/
structure Rules where
  /-- How deep lists and objects may be nested, those without items not counted. -/
  depth : Nat
  /-- How many digits a whole number may have. -/
  digits : Nat
  /-- The bound on digits holds for the whole part of every number. -/
  boundsFractions : Bool
  /-- Half of a surrogate pair may stand alone. -/
  allowsHalves : Bool
  /-- Entries of an object with one key become one, at the first place and with the last value. -/
  mergesEntries : Bool

/-- Why a text is not read: it is no JSON, or it holds more than the rules allow. -/
inductive Unread where
  | malformed
  | excessive
deriving DecidableEq, Repr

/-- A reader takes what it reads off the front of the text. -/
abbrev Reader (α : Type) := List Point → Except Unread (α × List Point)

/-- The blanks that may stand between tokens. -/
def isGap (p : Point) : Bool :=
  p == .char ' ' || p == .char '\t' || p == .char '\n' || p == .char '\r'

def skipGap (ps : List Point) : List Point := ps.dropWhile isGap

/-! ### Texts -/

/-- The character of a one-letter escape. -/
def shortEscape? (c : Char) : Option Char :=
  if c = '"' || c = '\\' || c = '/' then some c
  else if c = 'b' then some '\x08'
  else if c = 'f' then some '\x0C'
  else if c = 'n' then some '\n'
  else if c = 'r' then some '\r'
  else if c = 't' then some '\t'
  else none

/-- The rest of a text after its opening quote. An escape by number is a 16-bit unit. -/
def readPieces : Reader (List Piece)
  | [] => .error .malformed
  | p :: ps =>
    if p = .char '"' then .ok ([], ps)
    else if p = .char '\\' then
      match ps with
      | .char 'u' :: .char h₁ :: .char h₂ :: .char h₃ :: .char h₄ :: ps =>
        match Text.hexNumber? [h₁, h₂, h₃, h₄] with
        | none => .error .malformed
        | some n => (readPieces ps).map fun (t, rest) => (.unit n :: t, rest)
      | .char e :: ps =>
        match shortEscape? e with
        | none => .error .malformed
        | some d => (readPieces ps).map fun (t, rest) => (.point (.char d) :: t, rest)
      | _ => .error .malformed
    else if p.char?.any (·.toNat < 0x20) then .error .malformed
    else (readPieces ps).map fun (t, rest) => (.point p :: t, rest)

/-- The rest of a text after its opening quote. -/
def readText (rules : Rules) (ps : List Point) : Except Unread (List Point × List Point) :=
  match readPieces ps with
  | .error e => .error e
  | .ok (t, rest) =>
    let t := Piece.points t
    if rules.allowsHalves || (Point.text? t).isSome then .ok (t, rest) else .error .malformed

/-! ### Numbers and words -/

/-- The value of decimal digits. -/
def decimal (ds : List Char) : Nat := Nat.ofDigitChars 10 ds 0

/-- The longest run of digits. -/
def digits : List Point → List Char × List Point
  | .char c :: ps =>
    if c.isDigit then
      let (ds, rest) := digits ps
      (c :: ds, rest)
    else ([], .char c :: ps)
  | ps => ([], ps)

/-- The digits before a decimal point: a zero stands alone. -/
def wholeDigits : List Point → List Char × List Point
  | .char '0' :: ps => (['0'], ps)
  | ps => digits ps

/-- The digits after a decimal point, if the point is there and at least one digit follows. -/
def fraction (ps : List Point) : Option (List Char) × List Point :=
  match ps with
  | .char '.' :: rest =>
    let (ds, rest) := digits rest
    if ds.isEmpty then (none, ps) else (some ds, rest)
  | _ => (none, ps)

/-- The sign of an exponent, true for minus. -/
def exponentSign : List Point → Bool × List Point
  | .char '-' :: ps => (true, ps)
  | .char '+' :: ps => (false, ps)
  | ps => (false, ps)

/-- An exponent, if its letter is there and at least one digit follows. -/
def exponent (ps : List Point) : Option Int × List Point :=
  match ps with
  | .char c :: rest =>
    if c = 'e' || c = 'E' then
      let (negative, rest) := exponentSign rest
      let (ds, rest) := digits rest
      if ds.isEmpty then (none, ps)
      else (some (if negative then -(decimal ds : Int) else decimal ds), rest)
    else (none, ps)
  | _ => (none, ps)

/-- A number without its sign, as long as it gets. -/
def readUnsigned (rules : Rules) (negative : Bool) (ps : List Point) :
    Except Unread (Json × List Point) :=
  let (whole, ps) := wholeDigits ps
  let (places?, ps) := fraction ps
  let (power?, ps) := exponent ps
  let isWhole := places?.isNone && power?.isNone
  if whole.isEmpty then .error .malformed
  else if rules.digits < whole.length && (isWhole || rules.boundsFractions) then
    .error .excessive
  else if isWhole then .ok (.int (if negative then -(decimal whole : Int) else decimal whole), ps)
  else
    let places := places?.getD []
    let value := decimal (whole ++ places)
    .ok (.float (.ofDecimal negative value (power?.getD 0 - places.length)), ps)

/-- Takes a word off the front of the text. -/
def word? (w : String) (v : Json) (ps : List Point) : Option (Json × List Point) :=
  if (Point.ofText w).isPrefixOf ps then some (v, ps.drop w.length) else none

/-- A value other than a list or an object. -/
def readScalar (rules : Rules) : Reader Json
  | .char '"' :: ps => (readText rules ps).map fun (t, rest) => (ofPoints t, rest)
  | .char '-' :: ps =>
    match word? "Infinity" (.float (.infinite true)) ps with
    | some read => .ok read
    | none => readUnsigned rules true ps
  | ps =>
    let named? := ((((word? "null" .null ps).or (word? "true" (.bool true) ps)).or
      (word? "false" (.bool false) ps)).or (word? "NaN" (.float .nan) ps)).or
      (word? "Infinity" (.float (.infinite false)) ps)
    match named? with
    | some read => .ok read
    | none => readUnsigned rules false ps

/-! ### Lists and objects -/

/-- The items of a list up to its closing bracket, at most `fuel` of them. -/
def readItems (value : Reader Json) : Nat → Reader (List Json)
  | 0, _ => .error .malformed
  | fuel + 1, ps =>
    match value ps with
    | .error e => .error e
    | .ok (v, rest) =>
      match skipGap rest with
      | .char ',' :: rest => (readItems value fuel rest).map fun (vs, rest) => (v :: vs, rest)
      | .char ']' :: rest => .ok ([v], rest)
      | _ => .error .malformed

/-- A key and its colon. -/
def readKey (rules : Rules) (ps : List Point) : Except Unread (List Point × List Point) :=
  match skipGap ps with
  | .char '"' :: ps =>
    match readText rules ps with
    | .error e => .error e
    | .ok (k, rest) =>
      match skipGap rest with
      | .char ':' :: rest => .ok (k, rest)
      | _ => .error .malformed
  | _ => .error .malformed

/-- The entries of an object up to its closing brace, at most `fuel` of them. -/
def readEntries (rules : Rules) (value : Reader Json) : Nat → Reader (List (List Point × Json))
  | 0, _ => .error .malformed
  | fuel + 1, ps =>
    match readKey rules ps with
    | .error e => .error e
    | .ok (k, rest) =>
      match value rest with
      | .error e => .error e
      | .ok (v, rest) =>
        match skipGap rest with
        | .char ',' :: rest =>
          (readEntries rules value fuel rest).map fun (es, rest) => ((k, v) :: es, rest)
        | .char '\x7d' :: rest => .ok ([(k, v)], rest)
        | _ => .error .malformed

/-- The object with some entries as they were read. -/
def object (rules : Rules) (es : List (List Point × Json)) : Json :=
  ofEntries (if rules.mergesEntries then Entries.merge es else es)

/-- A value whose items and entries are read by `inner`. -/
def readWith (rules : Rules) (inner : Reader Json) (ps : List Point) :
    Except Unread (Json × List Point) :=
  match skipGap ps with
  | .char '[' :: ps =>
    match skipGap ps with
    | .char ']' :: rest => .ok (.arr [], rest)
    | ps => (readItems inner (ps.length + 1) ps).map fun (vs, rest) => (.arr vs, rest)
  | .char '\x7b' :: ps =>
    match skipGap ps with
    | .char '\x7d' :: rest => .ok (.obj [], rest)
    | ps =>
      (readEntries rules inner (ps.length + 1) ps).map fun (es, rest) => (object rules es, rest)
  | ps => readScalar rules ps

/-- A value in which lists and objects are nested at most `depth` deep. -/
def readValue (rules : Rules) : (depth : Nat) → Reader Json
  | 0, ps => readWith rules (fun _ => .error .excessive) ps
  | depth + 1, ps => readWith rules (readValue rules depth) ps

/-- The value that some code points write. -/
def readPoints (rules : Rules) (ps : List Point) : Except Unread Json :=
  match readValue rules rules.depth ps with
  | .error e => .error e
  | .ok (v, rest) => if (skipGap rest).isEmpty then .ok v else .error .malformed

/-- The value that a text holds. -/
def read (rules : Rules) (s : String) : Except Unread Json := readPoints rules (Point.ofText s)

end QueryDraft.Json
