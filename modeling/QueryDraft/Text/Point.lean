import QueryDraft.Text.Digit

/-!
# Code points

A text from outside may hold one half of a surrogate pair without the other. Such a text is no
Unicode text; it is kept as its code points, which tells it from every text (`text?_eq_some_iff`).
-/

namespace QueryDraft.Text

def isHighSurrogate (n : Nat) : Bool := 0xD800 ≤ n && n < 0xDC00

def isLowSurrogate (n : Nat) : Bool := 0xDC00 ≤ n && n < 0xE000

/-- The character that a pair of surrogates stands for. -/
def ofSurrogates (high low : Nat) : Char :=
  .ofNat (0x10000 + (high - 0xD800) * 0x400 + (low - 0xDC00))

/-- A character, or one half of a surrogate pair that stands alone. -/
inductive Point where
  | char (c : Char)
  | half (n : Nat)
deriving DecidableEq, Repr

namespace Point

/-- The code point of a number below `0x110000`. -/
def ofNat (n : Nat) : Point :=
  if isHighSurrogate n || isLowSurrogate n then half n else char (.ofNat n)

def char? : Point → Option Char
  | char c => some c
  | half _ => none

def ofText (s : String) : List Point := s.toList.map char

/-- The text of some code points, if all of them are characters. -/
def text? (ps : List Point) : Option String := (ps.mapM char?).map .ofList

/-- The code point where a text is written in JSON; a half is written as its escape. -/
def chars : Point → List Char
  | char c => [c]
  | half n => '\\' :: 'u' :: hexDigits 4 n

theorem mapM_char?_map_char (cs : List Char) : (cs.map char).mapM char? = some cs := by
  induction cs with
  | nil => rfl
  | cons c cs ih => simp [char?, ih]

theorem eq_map_char_of_mapM {ps : List Point} {cs : List Char} (h : ps.mapM char? = some cs) :
    ps = cs.map char := by
  induction ps generalizing cs with
  | nil => cases h; rfl
  | cons p ps ih =>
    cases p with
    | half n => simp [char?] at h
    | char c =>
      cases hps : ps.mapM char? with
      | none => simp [char?, hps] at h
      | some ds =>
        simp only [List.mapM_cons, char?, hps, Option.bind_eq_bind, Option.bind_some,
          Option.pure_def, Option.some.injEq] at h
        subst h
        simp [ih hps]

/-- The code points of a text are its characters, and no other code points are a text's. -/
theorem text?_eq_some_iff {ps : List Point} {s : String} :
    text? ps = some s ↔ ps = ofText s := by
  constructor
  · intro h
    obtain ⟨cs, hcs, rfl⟩ := Option.map_eq_some_iff.1 h
    simpa [ofText] using eq_map_char_of_mapM hcs
  · rintro rfl
    rw [text?, ofText, mapM_char?_map_char]
    simp

end Point

/-- Part of a text: a code point, or a 16-bit unit, which is a code point unless the other half of
a pair stands beside it as a unit. -/
inductive Piece where
  | point (p : Point)
  | unit (n : Nat)
deriving DecidableEq, Repr

namespace Piece

/-- The code points of a text, pairs of units being joined. -/
def points : List Piece → List Point
  | unit high :: unit low :: rest =>
    if isHighSurrogate high && isLowSurrogate low then
      .char (ofSurrogates high low) :: points rest
    else .ofNat high :: points (unit low :: rest)
  | unit n :: rest => .ofNat n :: points rest
  | point p :: rest => p :: points rest
  | [] => []

end Piece

end QueryDraft.Text
