import QueryDraft.Text.Point

/-!
# Encodings

How the bytes of a JSON text are to be read. The text starts with an ASCII character, so the
zeros among its first four bytes tell the width of the units and their byte order. Units that are
halves of surrogate pairs are let through, and a byte order mark before bytes is passed over.
-/

namespace QueryDraft.Text

inductive Encoding where
  | bytes
  | units16 (bigEndian : Bool)
  | units32 (bigEndian : Bool)
deriving DecidableEq, Repr

namespace Encoding

/-- The encoding of a JSON text, told from its first bytes. -/
def ofBytes : List UInt8 → Encoding
  | a :: b :: c :: d :: _ =>
    if a = 0 then if b = 0 then units32 true else units16 true
    else if b = 0 then if c = 0 && d = 0 then units32 false else units16 false
    else bytes
  | [a, b] => if a = 0 then units16 true else if b = 0 then units16 false else bytes
  | _ => bytes

/-- The number that bytes write, the most significant byte first or last. -/
def number (bigEndian : Bool) (bs : List UInt8) : Nat :=
  (if bigEndian then bs else bs.reverse).foldl (256 * · + ·.toNat) 0

/-- The units of two bytes each; `none` if a byte is left over. -/
def unitsOfTwo (bigEndian : Bool) : List UInt8 → Option (List Nat)
  | [] => some []
  | a :: b :: rest => (unitsOfTwo bigEndian rest).map (number bigEndian [a, b] :: ·)
  | _ => none

/-- The units of four bytes each; `none` if bytes are left over. -/
def unitsOfFour (bigEndian : Bool) : List UInt8 → Option (List Nat)
  | [] => some []
  | a :: b :: c :: d :: rest =>
    (unitsOfFour bigEndian rest).map (number bigEndian [a, b, c, d] :: ·)
  | _ => none

/-- A text without the byte order mark that may stand before it. -/
def withoutMark (s : String) : String :=
  if s.toList.head? = some '\ufeff' then .ofList s.toList.tail else s

/-- The code points of a text; `none` if its bytes do not fit the encoding that they show. -/
def points? (s : String) : Option (List Point) :=
  let bytes := s.toUTF8.toList
  match ofBytes bytes with
  | .bytes => some (Point.ofText (withoutMark s))
  | .units16 bigEndian =>
    (unitsOfTwo bigEndian bytes).map fun ns => Piece.points (ns.map .unit)
  | .units32 bigEndian =>
    (unitsOfFour bigEndian bytes).bind fun ns =>
      if ns.all (· < 0x110000) then some (ns.map .ofNat) else none

end Encoding

end QueryDraft.Text
