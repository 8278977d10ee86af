import QueryDraft.Text.Digit

/-!
# SHA-1 and ids made from names

The 160-bit digest of a byte sequence: the padded message is taken in blocks of sixteen words, and
each block moves five chaining words through eighty rounds. The version 5 id of a name in the name
space of locators is cut from it (`nameId`): equal names have equal ids.
-/

namespace QueryDraft.Digest

/-- The five chaining words. -/
structure Chain where
  a : UInt32
  b : UInt32
  c : UInt32
  d : UInt32
  e : UInt32

namespace Chain

def start : Chain := ⟨0x67452301, 0xEFCDAB89, 0x98BADCFE, 0x10325476, 0xC3D2E1F0⟩

def add (x y : Chain) : Chain := ⟨x.a + y.a, x.b + y.b, x.c + y.c, x.d + y.d, x.e + y.e⟩

/-- The bytes of a word, most significant first. -/
def wordBytes (w : UInt32) : List UInt8 :=
  [(w >>> 24).toUInt8, (w >>> 16).toUInt8, (w >>> 8).toUInt8, w.toUInt8]

def bytes (x : Chain) : List UInt8 :=
  [x.a, x.b, x.c, x.d, x.e].flatMap wordBytes

end Chain

def rotateLeft (w n : UInt32) : UInt32 := (w <<< n) ||| (w >>> (32 - n))

/-- The eighty words of a block, latest first, from the ones made so far: each further word mixes
the words 3, 8, 14 and 16 places before it. -/
def extend : Nat → List UInt32 → List UInt32
  | 0, made => made
  | n + 1, made =>
    let back (i : Nat) := made.getD i 0
    extend n (rotateLeft (back 2 ^^^ back 7 ^^^ back 13 ^^^ back 15) 1 :: made)

/-- The mixing function and the constant of a round. -/
def mixing (round : Nat) (b c d : UInt32) : UInt32 × UInt32 :=
  if round < 20 then ((b &&& c) ||| ((~~~b) &&& d), 0x5A827999)
  else if round < 40 then (b ^^^ c ^^^ d, 0x6ED9EBA1)
  else if round < 60 then ((b &&& c) ||| (b &&& d) ||| (c &&& d), 0x8F1BBCDC)
  else (b ^^^ c ^^^ d, 0xCA62C1D6)

/-- One round on a word. -/
def step (x : Chain) (round : Nat) (word : UInt32) : Chain :=
  let (f, k) := mixing round x.b x.c x.d
  ⟨rotateLeft x.a 5 + f + x.e + k + word, x.a, rotateLeft x.b 30, x.c, x.d⟩

/-- The word that four bytes make. -/
def toWord (w x y z : UInt8) : UInt32 :=
  (w.toUInt32 <<< 24) ||| (x.toUInt32 <<< 16) ||| (y.toUInt32 <<< 8) ||| z.toUInt32

def toWords : List UInt8 → List UInt32
  | w :: x :: y :: z :: rest => toWord w x y z :: toWords rest
  | _ => []

/-- The chaining words after a block of sixteen words. -/
def block (x : Chain) (words : List UInt32) : Chain :=
  let schedule := (extend 64 words.reverse).reverse
  x.add (schedule.zipIdx.foldl (fun acc (word, round) => step acc round word) x)

/-- The message, a one bit, zeros, and its length in bits as eight bytes. -/
def padded (message : List UInt8) : List UInt8 :=
  let bits := 8 * message.length
  let zeros := (119 - message.length % 64) % 64
  let size := (List.range 8).map fun i => UInt8.ofNat (bits >>> (8 * (7 - i)))
  message ++ 0x80 :: List.replicate zeros 0 ++ size

/-- The chaining words after some blocks. -/
def absorb : Nat → Chain → List UInt32 → Chain
  | 0, x, _ => x
  | n + 1, x, words => absorb n (block x (words.take 16)) (words.drop 16)

/-- The digest, twenty bytes. -/
def sha1 (message : List UInt8) : List UInt8 :=
  let words := toWords (padded message)
  (absorb (words.length / 16) .start words).bytes

/-! ### Ids made from names -/

/-- The name space of locators. -/
def locatorSpace : List UInt8 :=
  [0x6B, 0xA7, 0xB8, 0x11, 0x9D, 0xAD, 0x11, 0xD1, 0x80, 0xB4, 0x00, 0xC0, 0x4F, 0xD4, 0x30, 0xC8]

/-- Marks the version in the seventh byte and the variant in the ninth. -/
def stamp (bytes : List UInt8) : List UInt8 :=
  (bytes.modify 6 fun b => (b &&& 0x0F) ||| 0x50).modify 8 fun b => (b &&& 0x3F) ||| 0x80

/-- Thirty-two hexadecimal digits in groups of 8, 4, 4, 4 and 12. -/
def grouped (digits : List Char) : List Char :=
  digits.take 8 ++ '-' :: (digits.drop 8).take 4 ++ '-' :: (digits.drop 12).take 4 ++
    '-' :: (digits.drop 16).take 4 ++ '-' :: (digits.drop 20).take 12

/-- The id of a name. -/
def nameId (name : String) : String :=
  let digest := sha1 (locatorSpace ++ name.toUTF8.toList)
  .ofList (grouped ((stamp (digest.take 16)).flatMap fun b => Text.hexDigits 2 b.toNat))

end QueryDraft.Digest
