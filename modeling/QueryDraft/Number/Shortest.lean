import QueryDraft.Number.Binary64

/-!
# Shortest decimals

The decimal text of a binary number has the fewest digits that read back to it, and of the decimals
with so many digits the nearest one. A decimal point is written while it lies among or near the
digits, an exponent otherwise.
-/

namespace QueryDraft.Binary64

/-- The reals that round to `mantissa * 2 ^ exponent`, in units of a quarter of `2 ^ exponent`:
the number itself and the two ends, which belong to it iff `closed`. -/
structure Interval where
  value : Nat
  low : Nat
  high : Nat
  closed : Bool

def interval (mantissa : Nat) (exponent : Int) : Interval where
  value := 4 * mantissa
  low := if mantissa == Nat.pow 2 52 && -1074 < exponent then 4 * mantissa - 1 else 4 * mantissa - 2
  high := 4 * mantissa + 2
  closed := mantissa % 2 == 0

/-- One binary unit `2 ^ exponent` and one decimal unit `10 ^ place` as whole multiples of a common
measure. -/
def commonMeasure (exponent place : Int) : Nat × Nat :=
  let binary := if 0 ≤ exponent then (Nat.pow 2 exponent.toNat, 1) else (1, Nat.pow 2 (-exponent).toNat)
  let decimal := if 0 ≤ place then (Nat.pow 10 place.toNat, 1) else (1, Nat.pow 10 (-place).toNat)
  (binary.1 * decimal.2, decimal.1 * binary.2)

/-- The multiple of `10 ^ place` that reads back, the nearer one if two do. -/
def multipleAt? (mantissa : Nat) (exponent place : Int) : Option Nat :=
  let i := interval mantissa exponent
  let (unit, grid) := commonMeasure (exponent - 2) place
  let inside (k : Nat) : Bool :=
    if i.closed then i.low * unit ≤ k * grid && k * grid ≤ i.high * unit
    else i.low * unit < k * grid && k * grid < i.high * unit
  let below := i.value * unit / grid
  let above := below + 1
  match inside below && 0 < below, inside above with
  | false, false => none
  | true, false => some below
  | false, true => some above
  | true, true =>
    let toBelow := i.value * unit - below * grid
    let toAbove := above * grid - i.value * unit
    if toBelow < toAbove || (toBelow == toAbove && below % 2 == 0) then some below else some above

/-- The number of digits before the decimal point of `mantissa * 2 ^ exponent`; it is not positive
for a number with zeros after the point. -/
def magnitude (mantissa : Nat) (exponent : Int) : Int :=
  let guess : Int := ((mantissa.log2 : Int) + exponent) * 30103 / 100000
  let below (place : Int) : Bool :=
    let (unit, grid) := commonMeasure exponent place
    mantissa * unit < grid
  if below guess then guess else if below (guess + 1) then guess + 1 else guess + 2

/-- The shortest decimal `(digits, place)` that reads back, of value `digits * 10 ^ place`. -/
def shortest (mantissa : Nat) (exponent : Int) : Nat × Int :=
  let size := magnitude mantissa exponent
  let attempt (count : Nat) : Option (Nat × Int) :=
    let place := size - (count + 1 : Nat)
    (multipleAt? mantissa exponent place).map (·, place)
  ((List.range 17).findSome? attempt).getD (0, 0)

/-- The text of a positive decimal whose point stands after `point` digits. The point is written
for `-4 < point ≤ 16`; beyond that the first digit carries it and an exponent of at least two
digits follows. -/
def decimalText (digits : List Char) (point : Int) : String :=
  let zeros (n : Int) := List.replicate n.toNat '0'
  if -4 < point && point ≤ 16 then
    if point ≤ 0 then .ofList ('0' :: '.' :: zeros (-point) ++ digits)
    else if (digits.length : Int) ≤ point then
      .ofList (digits ++ zeros (point - digits.length) ++ ['.', '0'])
    else .ofList (digits.take point.toNat ++ '.' :: digits.drop point.toNat)
  else
    let fraction := if digits.length ≤ 1 then [] else '.' :: digits.drop 1
    let power := point - 1
    let sign := if power < 0 then '-' else '+'
    let places := Nat.toDigits 10 power.natAbs
    let pad := if places.length < 2 then ['0'] else []
    .ofList (digits.take 1 ++ fraction ++ 'e' :: sign :: pad ++ places)

/-- The decimal text of a number. -/
def text : Binary64 → String
  | .nan => "nan"
  | .infinite negative => if negative then "-inf" else "inf"
  | .finite negative mantissa exponent =>
    let sign := if negative then "-" else ""
    if mantissa == 0 then sign ++ "0.0"
    else
      let (digits, place) := shortest mantissa exponent
      let written := Nat.toDigits 10 digits
      let kept := (written.reverse.dropWhile (· == '0')).reverse
      sign ++ decimalText kept (written.length + place)

end QueryDraft.Binary64
