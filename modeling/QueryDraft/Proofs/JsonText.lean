import Mathlib
import QueryDraft.Json.Reader
import QueryDraft.Json.Writer
import QueryDraft.Proofs.PartReading

/-!
# Written values are read back

A value `Fits` a reader's rules if its whole numbers and its nesting stay within them and no object
has a key twice. The text of such a value is read as this value, whatever characters its texts hold
(`read_text`): each reader takes off what the writer put there and leaves what follows, as long as
that is a mark that can stand behind a value (`Ended`).
-/

namespace QueryDraft.Json

open Text (Piece Point)

variable {rules : Rules} {rest : List Point}

/-- What follows a value inside a list or an object, or at the end of the text. -/
def Ended (rest : List Point) : Prop :=
  ∀ p ∈ rest.head?, p = .char ',' ∨ p = .char ']' ∨ p = .char '\x7d'

theorem ended_nil : Ended [] := by
  intro p hp
  cases hp

theorem ended_cons {c : Char} (hc : c = ',' ∨ c = ']' ∨ c = '\x7d') (rest : List Point) :
    Ended (.char c :: rest) := by
  rintro p ⟨⟩
  simpa using hc

theorem skipGap_cons {p : Point} (hp : isGap p = false) (ps : List Point) :
    skipGap (p :: ps) = p :: ps := by
  rw [skipGap, List.dropWhile_cons, hp]
  rfl

/-! ### Whole numbers -/

theorem digits_map_char {ds : List Char} (hds : ∀ c ∈ ds, c.isDigit = true) (hrest : Ended rest) :
    digits (ds.map .char ++ rest) = (ds, rest) := by
  induction ds with
  | nil =>
    cases rest with
    | nil => rfl
    | cons p rest =>
      rcases hrest p rfl with rfl | rfl | rfl <;> rfl
  | cons c ds ih =>
    rw [List.forall_mem_cons] at hds
    simp only [List.map_cons, List.cons_append, digits, hds.1, if_true, ih hds.2]

theorem toDigits_zero_or_head (n : Nat) : Nat.toDigits 10 n = ['0'] ∨
    ∃ c cs, Nat.toDigits 10 n = c :: cs ∧ c ≠ '0' := by
  induction n using Nat.strongRecOn with
  | ind n ih =>
    by_cases hn : n < 10
    · have hsmall : ∀ m < 10, Nat.digitChar m = '0' ∨ Nat.digitChar m ≠ '0' ∧ m ≠ 0 := by decide
      rw [Nat.toDigits_of_lt_base hn]
      rcases hsmall n hn with h | h
      · exact .inl (by rw [h])
      · exact .inr ⟨_, _, rfl, h.1⟩
    · have hle : 10 ≤ n := by omega
      rw [Nat.toDigits_of_base_le (by decide) hle]
      have hpos : 0 < n / 10 := by omega
      rcases ih (n / 10) (by omega) with h | ⟨c, cs, h, hc⟩
      · -- the digits in front are those of a positive number
        have hvalue : Nat.ofDigitChars 10 (Nat.toDigits 10 (n / 10)) 0 = n / 10 :=
          Nat.ofDigitChars_ten_toDigits
        rw [h] at hvalue
        have hzero : Nat.ofDigitChars 10 ['0'] 0 = 0 := by decide
        omega
      · exact .inr ⟨c, cs ++ [(n % 10).digitChar], by rw [h]; rfl, hc⟩

theorem wholeDigits_toDigits (n : Nat) (hrest : Ended rest) :
    wholeDigits ((Nat.toDigits 10 n).map .char ++ rest) = (Nat.toDigits 10 n, rest) := by
  have hdigits : ∀ c ∈ Nat.toDigits 10 n, c.isDigit = true :=
    fun c hc => Nat.isDigit_of_mem_toDigits (by decide) (by decide) hc
  rcases toDigits_zero_or_head n with h | ⟨c, cs, h, hc⟩
  · rw [h]
    rfl
  · rw [← digits_map_char hdigits hrest, h]
    simp only [List.map_cons, List.cons_append]
    unfold wholeDigits
    split
    · rename_i heq
      cases heq
      exact absurd rfl hc
    · rfl

theorem fraction_of_ended (hrest : Ended rest) : fraction rest = (none, rest) := by
  cases rest with
  | nil => rfl
  | cons p rest => rcases hrest p rfl with rfl | rfl | rfl <;> rfl

theorem exponent_of_ended (hrest : Ended rest) : exponent rest = (none, rest) := by
  cases rest with
  | nil => rfl
  | cons p rest => rcases hrest p rfl with rfl | rfl | rfl <;> rfl

theorem readUnsigned_toDigits {n : Nat} (negative : Bool)
    (hn : (Nat.toDigits 10 n).length ≤ rules.digits) (hrest : Ended rest) :
    readUnsigned rules negative ((Nat.toDigits 10 n).map .char ++ rest) =
      .ok (.int (if negative then -(n : Int) else n), rest) := by
  have hvalue : decimal (Nat.toDigits 10 n) = n := Nat.ofDigitChars_ten_toDigits
  have hne : (Nat.toDigits 10 n).isEmpty = false := by
    rw [List.isEmpty_eq_false_iff]
    exact Nat.toDigits_ne_nil
  have hfew : ¬ rules.digits < (Nat.toDigits 10 n).length := by omega
  simp only [readUnsigned, wholeDigits_toDigits n hrest, fraction_of_ended hrest,
    exponent_of_ended hrest, hne, hvalue]
  simp [hfew]

theorem word?_eq_none (w : String) (v : Json) {c d : Char} {cs : List Char}
    (hw : w.toList = d :: cs) (h : d ≠ c) (ps : List Point) : word? w v (.char c :: ps) = none := by
  have hprefix : (Point.ofText w).isPrefixOf (.char c :: ps) = false := by
    rw [Point.ofText, hw]
    simp [List.isPrefixOf, h]
  rw [word?, hprefix]
  rfl

theorem readScalar_digits {c : Char} (hc : c.isDigit = true) (ps : List Point) :
    readScalar rules (.char c :: ps) = readUnsigned rules false (.char c :: ps) := by
  have hne : ∀ d : Char, d.isDigit = false → d ≠ c := by
    rintro d hd rfl
    rw [hc] at hd
    cases hd
  have hnull := word?_eq_none "null" .null rfl (hne 'n' rfl) ps
  have htrue := word?_eq_none "true" (.bool true) rfl (hne 't' rfl) ps
  have hfalse := word?_eq_none "false" (.bool false) rfl (hne 'f' rfl) ps
  have hnan := word?_eq_none "NaN" (.float .nan) rfl (hne 'N' rfl) ps
  have hinf := word?_eq_none "Infinity" (.float (.infinite false)) rfl (hne 'I' rfl) ps
  unfold readScalar
  split
  · rename_i heq
    cases heq
    exact absurd hc (by decide)
  · rename_i heq
    cases heq
    exact absurd hc (by decide)
  · simp only [hnull, htrue, hfalse, hnan, hinf, Option.or_none]

theorem readScalar_minus {c : Char} (hc : c.isDigit = true) (ps : List Point) :
    readScalar rules (.char '-' :: .char c :: ps) = readUnsigned rules true (.char c :: ps) := by
  have hne : 'I' ≠ c := by
    rintro rfl
    cases hc
  have hinf := word?_eq_none "Infinity" (.float (.infinite true)) rfl hne ps
  simp only [readScalar, hinf]

theorem exists_digit (n : Nat) : ∃ c cs, Nat.toDigits 10 n = c :: cs ∧ c.isDigit = true := by
  obtain ⟨c, cs, h⟩ := List.exists_cons_of_ne_nil (Nat.toDigits_ne_nil (n := n) (b := 10))
  have hmem : c ∈ Nat.toDigits 10 n := h ▸ List.mem_cons_self ..
  exact ⟨c, cs, h, Nat.isDigit_of_mem_toDigits (by decide) (by decide) hmem⟩

/-- The text of a whole number starts with a minus or a digit. -/
theorem exists_head_intChars (n : Int) : ∃ c cs, intChars n = c :: cs ∧ isGap (.char c) = false ∧
    c ≠ '[' ∧ c ≠ '\x7b' ∧ c ≠ ']' := by
  obtain ⟨c, cs, hcs, hc⟩ := exists_digit n.natAbs
  have hne : ∀ d : Char, d.isDigit = false → c ≠ d := by
    rintro d hd rfl
    rw [hc] at hd
    cases hd
  unfold intChars
  rw [hcs]
  split_ifs
  · exact ⟨'-', c :: cs, rfl, rfl, by decide⟩
  · refine ⟨c, cs, rfl, ?_, hne '[' rfl, hne '\x7b' rfl, hne ']' rfl⟩
    simp [isGap, hne ' ' rfl, hne '\t' rfl, hne '\n' rfl, hne '\r' rfl]

theorem readScalar_intChars {n : Int} (hn : (Nat.toDigits 10 n.natAbs).length ≤ rules.digits)
    (hrest : Ended rest) :
    readScalar rules ((intChars n).map .char ++ rest) = .ok (.int n, rest) := by
  obtain ⟨c, cs, hcs, hc⟩ := exists_digit n.natAbs
  have hread := fun negative => readUnsigned_toDigits negative hn hrest
  rw [hcs] at hread
  simp only [List.map_cons, List.cons_append] at hread
  unfold intChars
  rw [hcs]
  split_ifs with hneg
  · have habs : -(n.natAbs : Int) = n := by omega
    simp only [List.map_cons, List.cons_append]
    rw [readScalar_minus hc, hread true, if_pos rfl, habs]
  · have habs : (n.natAbs : Int) = n := by omega
    simp only [List.map_cons, List.cons_append]
    rw [readScalar_digits hc, hread false, if_neg Bool.false_ne_true, habs]

/-! ### Texts -/

theorem hexNumber?_hexDigits : ∀ n < 0x20, Text.hexNumber? (Text.hexDigits 4 n) = some n := by
  decide

/-- A control character is written by its number, which is no half of a pair. -/
theorem points_unit {n : Nat} (hn : n < 0x20) (t : List Piece) :
    Piece.points (.unit n :: t) = .char (.ofNat n) :: Piece.points t := by
  have hhigh : Text.isHighSurrogate n = false := by
    simp only [Text.isHighSurrogate, Bool.and_eq_false_iff, decide_eq_false_iff_not]
    omega
  have hlow : Text.isLowSurrogate n = false := by
    simp only [Text.isLowSurrogate, Bool.and_eq_false_iff, decide_eq_false_iff_not]
    omega
  have hpoint : Point.ofNat n = .char (.ofNat n) := by simp [Point.ofNat, hhigh, hlow]
  cases t with
  | nil => simp [Piece.points, hpoint]
  | cons p t => cases p <;> simp [Piece.points, hhigh, hpoint]

theorem readPieces_quote (ps : List Point) : readPieces (.char '"' :: ps) = .ok ([], ps) := by
  unfold readPieces
  rfl

theorem readPieces_plain {c : Char} (hquote : c ≠ '"') (hback : c ≠ '\\') (hcontrol : ¬ c.toNat < 0x20)
    (ps : List Point) : readPieces (.char c :: ps) =
      (readPieces ps).map fun (t, rest) => (.point (.char c) :: t, rest) := by
  have hall : (Point.char c).char?.any (·.toNat < 0x20) = false := by
    simpa [Point.char?] using hcontrol
  rw [readPieces.eq_def]
  simp only [Point.char.injEq, if_neg hquote, if_neg hback, hall]
  rfl

theorem readPieces_short {e d : Char} (he : shortEscape? e = some d) (ps : List Point) :
    readPieces (.char '\\' :: .char e :: ps) =
      (readPieces ps).map fun (t, rest) => (.point (.char d) :: t, rest) := by
  have hu : e ≠ 'u' := by
    rintro rfl
    cases he
  have hquote : ('\\' : Char) ≠ '"' := by decide
  rw [readPieces.eq_def]
  simp only [Point.char.injEq, if_neg hquote, if_true]
  split
  · rename_i heq
    injection heq with h _
    injection h with h
    exact absurd h hu
  · rename_i heq
    injection heq with h h'
    injection h with h
    subst h h'
    rw [he]
  · rename_i h
    exact absurd rfl (h e ps)

theorem readPieces_unit {h₁ h₂ h₃ h₄ : Char} {n : Nat}
    (hn : Text.hexNumber? [h₁, h₂, h₃, h₄] = some n) (ps : List Point) :
    readPieces (.char '\\' :: .char 'u' :: .char h₁ :: .char h₂ :: .char h₃ :: .char h₄ :: ps) =
      (readPieces ps).map fun (t, rest) => (.unit n :: t, rest) := by
  have hquote : ('\\' : Char) ≠ '"' := by decide
  rw [readPieces.eq_def]
  simp only [Point.char.injEq, if_neg hquote, if_true, hn]

/-- How a character stands between quotes: by a letter, by its number, or as it is. -/
theorem escaped_cases (c : Char) : (∃ e, escaped c = ['\\', e] ∧ shortEscape? e = some c) ∨
    (c.toNat < 0x20 ∧ escaped c = '\\' :: 'u' :: Text.hexDigits 4 c.toNat) ∨
    (c ≠ '"' ∧ c ≠ '\\' ∧ ¬ c.toNat < 0x20 ∧ escaped c = [c]) := by
  unfold escaped
  split_ifs with hquote hback hb ht hn hf hr hcontrol
  · exact .inl ⟨'"', rfl, by rw [hquote]; rfl⟩
  · exact .inl ⟨'\\', rfl, by rw [hback]; rfl⟩
  · exact .inl ⟨'b', rfl, by rw [hb]; rfl⟩
  · exact .inl ⟨'t', rfl, by rw [ht]; rfl⟩
  · exact .inl ⟨'n', rfl, by rw [hn]; rfl⟩
  · exact .inl ⟨'f', rfl, by rw [hf]; rfl⟩
  · exact .inl ⟨'r', rfl, by rw [hr]; rfl⟩
  · exact .inr (.inl ⟨hcontrol, rfl⟩)
  · exact .inr (.inr ⟨hquote, hback, hcontrol, rfl⟩)
/-- A character between quotes is read as one piece, which is this character. -/
theorem readPieces_escaped (c : Char) : ∃ p : Piece,
    (∀ ps, readPieces ((escaped c).map .char ++ ps) =
      (readPieces ps).map fun (t, rest) => (p :: t, rest)) ∧
    ∀ t, Piece.points (p :: t) = .char c :: Piece.points t := by
  rcases escaped_cases c with ⟨e, hescaped, he⟩ | ⟨hcontrol, hescaped⟩ |
    ⟨hquote, hback, hcontrol, hescaped⟩
  · refine ⟨.point (.char c), fun ps => ?_, fun t => rfl⟩
    rw [hescaped]
    exact readPieces_short he ps
  · refine ⟨.unit c.toNat, fun ps => ?_, fun t => ?_⟩
    · have hhex := hexNumber?_hexDigits c.toNat hcontrol
      rw [hescaped]
      exact readPieces_unit hhex ps
    · rw [points_unit hcontrol, Char.ofNat_toNat]
  · refine ⟨.point (.char c), fun ps => ?_, fun t => rfl⟩
    rw [hescaped]
    exact readPieces_plain hquote hback hcontrol ps

theorem readPieces_flatMap_escaped (cs : List Char) (rest : List Point) :
    ∃ t, readPieces ((cs.flatMap escaped).map .char ++ .char '"' :: rest) = .ok (t, rest) ∧
      Piece.points t = cs.map .char := by
  induction cs with
  | nil => exact ⟨[], readPieces_quote rest, rfl⟩
  | cons c cs ih =>
    obtain ⟨t, ht, hpoints⟩ := ih
    obtain ⟨p, hp, hpoint⟩ := readPieces_escaped c
    refine ⟨p :: t, ?_, ?_⟩
    · rw [List.flatMap_cons, List.map_append, List.append_assoc, hp, ht]
      rfl
    · rw [hpoint, hpoints, List.map_cons]

theorem readText_quoted (s : String) (rest : List Point) :
    readText rules ((s.toList.flatMap escaped).map .char ++ .char '"' :: rest) =
      .ok (Point.ofText s, rest) := by
  obtain ⟨t, ht, hpoints⟩ := readPieces_flatMap_escaped s.toList rest
  have htext : Point.text? (Piece.points t) = some s := Point.text?_eq_some_iff.2 hpoints
  simp only [readText, ht]
  rw [htext, Option.isSome_some, Bool.or_true, if_pos rfl, hpoints]
  rfl

theorem map_quotedChars (s : String) (rest : List Point) :
    (quotedChars s).map .char ++ rest =
      .char '"' :: ((s.toList.flatMap escaped).map .char ++ .char '"' :: rest) := by
  simp [quotedChars]

theorem readKey_quoted (rules : Rules) (s : String) (rest : List Point) :
    readKey rules ((quotedChars s).map .char ++ .char ':' :: rest) = .ok (Point.ofText s, rest) := by
  have hcolon := skipGap_cons (p := .char ':') rfl rest
  rw [readKey, map_quotedChars, skipGap_cons rfl]
  simp only [readText_quoted, hcolon]

/-! ### Lists and objects -/

theorem itemChars_cons {vs : List Json} (v : Json) (h : vs ≠ []) :
    itemChars (v :: vs) = v.chars ++ ',' :: itemChars vs := by
  cases vs with
  | nil => exact absurd rfl h
  | cons w vs => rfl

theorem entryChars_cons {es : List (String × Json)} (k : String) (v : Json) (h : es ≠ []) :
    entryChars ((k, v) :: es) = quotedChars k ++ ':' :: v.chars ++ ',' :: entryChars es := by
  cases es with
  | nil => exact absurd rfl h
  | cons e es => rfl

/-- The reader `value` takes the text of `v` off the front of a text. -/
def Takes (value : Reader Json) (v : Json) : Prop :=
  ∀ rest, Ended rest → value (v.chars.map .char ++ rest) = .ok (v, rest)

theorem readItems_itemChars {value : Reader Json} {vs : List Json} {fuel : Nat} (hne : vs ≠ [])
    (hvs : ∀ v ∈ vs, Takes value v) (hfuel : vs.length ≤ fuel) (rest : List Point) :
    readItems value fuel ((itemChars vs).map .char ++ .char ']' :: rest) = .ok (vs, rest) := by
  induction vs generalizing fuel with
  | nil => exact absurd rfl hne
  | cons v vs ih =>
    obtain ⟨fuel, rfl⟩ : ∃ n, fuel = n + 1 := ⟨fuel - 1, by simp at hfuel; omega⟩
    rw [List.forall_mem_cons] at hvs
    by_cases hlast : vs = []
    · subst hlast
      have hread := hvs.1 (.char ']' :: rest) (ended_cons (.inr (.inl rfl)) rest)
      have hgap := skipGap_cons (p := .char ']') rfl rest
      simp only [itemChars, readItems, hread, hgap]
    · have hread := hvs.1 _ (ended_cons (.inl rfl) ((itemChars vs).map .char ++ .char ']' :: rest))
      have hgap := skipGap_cons (p := .char ',') rfl ((itemChars vs).map .char ++ .char ']' :: rest)
      have hfuel' : vs.length ≤ fuel := by simpa using hfuel
      have hvs' := ih hlast hvs.2 hfuel'
      rw [itemChars_cons v hlast, List.map_append, List.append_assoc, List.map_cons, List.cons_append]
      simp only [readItems, hread, hgap, hvs']
      rfl

theorem readEntries_entryChars (rules : Rules) {value : Reader Json} {es : List (String × Json)} {fuel : Nat}
    (hne : es ≠ []) (hes : ∀ e ∈ es, Takes value e.2) (hfuel : es.length ≤ fuel)
    (rest : List Point) :
    readEntries rules value fuel ((entryChars es).map .char ++ .char '\x7d' :: rest) =
      .ok (es.map fun e => (Point.ofText e.1, e.2), rest) := by
  induction es generalizing fuel with
  | nil => exact absurd rfl hne
  | cons e es ih =>
    obtain ⟨k, v⟩ := e
    obtain ⟨fuel, rfl⟩ : ∃ n, fuel = n + 1 := ⟨fuel - 1, by simp at hfuel; omega⟩
    rw [List.forall_mem_cons] at hes
    by_cases hlast : es = []
    · subst hlast
      have hread := hes.1 (.char '\x7d' :: rest) (ended_cons (.inr (.inr rfl)) rest)
      have hgap := skipGap_cons (p := .char '\x7d') rfl rest
      have hkey := readKey_quoted rules k (v.chars.map .char ++ .char '\x7d' :: rest)
      simp only [entryChars, List.map_append, List.map_cons, List.append_assoc, List.cons_append,
        readEntries, hkey, hread, hgap, List.map_nil]
    · have hread :=
        hes.1 _ (ended_cons (.inl rfl) ((entryChars es).map .char ++ .char '\x7d' :: rest))
      have hgap :=
        skipGap_cons (p := .char ',') rfl ((entryChars es).map .char ++ .char '\x7d' :: rest)
      have hkey := readKey_quoted rules k
        (v.chars.map .char ++ .char ',' :: ((entryChars es).map .char ++ .char '\x7d' :: rest))
      have hfuel' : es.length ≤ fuel := by simpa using hfuel
      have hes' := ih hlast hes.2 hfuel'
      rw [entryChars_cons k v hlast]
      simp only [List.map_append, List.map_cons, List.append_assoc, List.cons_append, readEntries,
        hkey, hread, hgap, hes']
      rfl

/-! ### Values -/

/-- The value keeps within the rules: no whole number has too many digits, lists and objects are
nested at most `depth` deep, and no object has a key twice. Fractions are left out. -/
inductive Fits (rules : Rules) : Nat → Json → Prop
  | null (depth : Nat) : Fits rules depth .null
  | bool (depth : Nat) (b : Bool) : Fits rules depth (.bool b)
  | int (depth : Nat) {n : Int} (hn : (Nat.toDigits 10 n.natAbs).length ≤ rules.digits) :
    Fits rules depth (.int n)
  | str (depth : Nat) (s : String) : Fits rules depth (.str s)
  | arr {depth : Nat} {vs : List Json} (hvs : ∀ v ∈ vs, Fits rules depth v) :
    Fits rules (depth + 1) (.arr vs)
  | obj {depth : Nat} {es : List (String × Json)} (hkeys : (es.map Prod.fst).Nodup)
    (hes : ∀ e ∈ es, Fits rules depth e.2) : Fits rules (depth + 1) (.obj es)

/-- The text of a value starts with a mark, a letter or a digit. -/
theorem Fits.exists_head {depth : Nat} {v : Json} (h : Fits rules depth v) :
    ∃ c cs, v.chars = c :: cs ∧ isGap (.char c) = false ∧ c ≠ ']' := by
  cases h with
  | null => exact ⟨'n', _, rfl, rfl, by decide⟩
  | bool depth b =>
    cases b
    · exact ⟨'f', _, rfl, rfl, by decide⟩
    · exact ⟨'t', _, rfl, rfl, by decide⟩
  | @int depth n hn =>
    obtain ⟨c, cs, hcs, hgap, hc⟩ := exists_head_intChars n
    exact ⟨c, cs, hcs, hgap, hc.2.2⟩
  | str depth s => exact ⟨'"', _, rfl, rfl, by decide⟩
  | arr => exact ⟨'[', _, rfl, rfl, by decide⟩
  | obj => exact ⟨'\x7b', _, rfl, rfl, by decide⟩

theorem exists_head_itemChars {depth : Nat} {vs : List Json} (hne : vs ≠ [])
    (hvs : ∀ v ∈ vs, Fits rules depth v) :
    ∃ c cs, itemChars vs = c :: cs ∧ isGap (.char c) = false ∧ c ≠ ']' := by
  obtain ⟨v, vs, rfl⟩ := List.exists_cons_of_ne_nil hne
  obtain ⟨c, cs, hcs, hgap, hc⟩ := (hvs v (List.mem_cons_self ..)).exists_head
  by_cases hlast : vs = []
  · subst hlast
    exact ⟨c, cs, hcs, hgap, hc⟩
  · exact ⟨c, cs ++ ',' :: itemChars vs, by rw [itemChars_cons v hlast, hcs]; rfl, hgap, hc⟩

theorem exists_head_entryChars {es : List (String × Json)} (hne : es ≠ []) :
    ∃ cs, entryChars es = '"' :: cs := by
  obtain ⟨⟨k, v⟩, es, rfl⟩ := List.exists_cons_of_ne_nil hne
  by_cases hlast : es = []
  · subst hlast
    exact ⟨_, rfl⟩
  · exact ⟨_, by rw [entryChars_cons k v hlast]; rfl⟩

theorem length_le_length_itemChars (vs : List Json) : vs.length ≤ (itemChars vs).length + 1 := by
  induction vs with
  | nil => simp
  | cons v vs ih =>
    by_cases hlast : vs = []
    · simp [hlast]
    · rw [itemChars_cons v hlast]
      simp only [List.length_cons, List.length_append]
      omega

theorem length_le_length_entryChars (es : List (String × Json)) :
    es.length ≤ (entryChars es).length + 1 := by
  induction es with
  | nil => simp
  | cons e es ih =>
    obtain ⟨k, v⟩ := e
    by_cases hlast : es = []
    · simp [hlast]
    · rw [entryChars_cons k v hlast]
      simp only [List.length_cons, List.length_append]
      omega

theorem object_map_ofText {es : List (String × Json)} (h : (es.map Prod.fst).Nodup) :
    object rules (es.map fun e => (Point.ofText e.1, e.2)) = .obj es := by
  have hkeys : ((es.map fun e => (Point.ofText e.1, e.2)).map Prod.fst).Nodup := by
    have hinj : Function.Injective Point.ofText := by
      intro s s' hs
      have hs' := Point.text?_eq_some_iff.2 hs
      rw [Point.text?_eq_some_iff.2 rfl] at hs'
      exact Option.some_inj.1 hs'
    have hmap : (es.map fun e => (Point.ofText e.1, e.2)).map Prod.fst =
        (es.map Prod.fst).map Point.ofText := by simp
    rw [hmap]
    exact h.map hinj
  unfold object
  rw [Entries.merge_of_nodup hkeys, ite_self, ofEntries_ofText]

theorem readWith_scalar {inner : Reader Json} {c : Char} (hgap : isGap (.char c) = false)
    (hlist : c ≠ '[') (hobject : c ≠ '\x7b') (ps : List Point) :
    readWith rules inner (.char c :: ps) = readScalar rules (.char c :: ps) := by
  unfold readWith
  rw [skipGap_cons hgap]
  split
  · rename_i heq
    injection heq with heq _
    injection heq with heq
    exact absurd heq hlist
  · rename_i heq
    injection heq with heq _
    injection heq with heq
    exact absurd heq hobject
  · rfl

theorem readWith_list {inner : Reader Json} {c : Char} (hgap : isGap (.char c) = false)
    (hclose : c ≠ ']') (ps : List Point) :
    readWith rules inner (.char '[' :: .char c :: ps) =
      (readItems inner (ps.length + 2) (.char c :: ps)).map fun (vs, rest) => (.arr vs, rest) := by
  unfold readWith
  rw [skipGap_cons rfl]
  simp only [skipGap_cons hgap]
  split
  · rename_i heq
    injection heq with heq _
    injection heq with heq
    exact absurd heq hclose
  · rfl

theorem readWith_object {inner : Reader Json} (ps : List Point) :
    readWith rules inner (.char '\x7b' :: .char '"' :: ps) =
      (readEntries rules inner (ps.length + 2) (.char '"' :: ps)).map fun (es, rest) =>
        (object rules es, rest) := by
  unfold readWith
  rw [skipGap_cons rfl]
  simp only [skipGap_cons (p := .char '"') rfl]
  rfl

/-- Values other than lists and objects are read in one go, whatever reads what is inside. -/
theorem takes_scalar {inner : Reader Json} {depth : Nat} {v : Json} (h : Fits rules depth v)
    (hlist : ∀ vs, v ≠ .arr vs) (hobject : ∀ es, v ≠ .obj es) : Takes (readWith rules inner) v := by
  intro rest hrest
  cases h with
  | null => rfl
  | bool depth b => cases b <;> rfl
  | @int depth n hn =>
    obtain ⟨c, cs, hcs, hgap, hopen, hbrace, _⟩ := exists_head_intChars n
    have hread := readScalar_intChars hn hrest
    rw [hcs, List.map_cons, List.cons_append] at hread
    show readWith rules inner ((intChars n).map .char ++ rest) = _
    rw [hcs, List.map_cons, List.cons_append, readWith_scalar hgap hopen hbrace, hread]
  | str depth s =>
    show readWith rules inner ((quotedChars s).map .char ++ rest) = _
    rw [map_quotedChars, readWith_scalar rfl (by decide) (by decide)]
    simp only [readScalar, readText_quoted]
    show Except.ok (ofPoints (Point.ofText s), rest) = _
    rw [ofPoints_ofText]
  | arr => exact absurd rfl (hlist _)
  | obj => exact absurd rfl (hobject _)

theorem takes_arr {inner : Reader Json} {depth : Nat} {vs : List Json}
    (hvs : ∀ v ∈ vs, Fits rules depth v) (hinner : ∀ v ∈ vs, Takes inner v) :
    Takes (readWith rules inner) (.arr vs) := by
  intro rest _
  have hchars : (chars (.arr vs)).map .char ++ rest =
      .char '[' :: ((itemChars vs).map .char ++ .char ']' :: rest) := by simp [chars]
  rw [hchars]
  by_cases hnil : vs = []
  · subst hnil
    rfl
  · obtain ⟨c, cs, hcs, hgap, hc⟩ := exists_head_itemChars hnil hvs
    have hfuel : vs.length ≤ (cs.map Point.char ++ .char ']' :: rest).length + 2 := by
      have hlength := length_le_length_itemChars vs
      rw [hcs] at hlength
      simp only [List.length_cons, List.length_append, List.length_map] at hlength ⊢
      omega
    have hitems := readItems_itemChars hnil hinner hfuel rest
    rw [hcs, List.map_cons, List.cons_append] at hitems ⊢
    rw [readWith_list hgap hc, hitems]
    rfl

theorem takes_obj {inner : Reader Json} {es : List (String × Json)}
    (hkeys : (es.map Prod.fst).Nodup) (hinner : ∀ e ∈ es, Takes inner e.2) :
    Takes (readWith rules inner) (.obj es) := by
  intro rest _
  have hchars : (chars (.obj es)).map .char ++ rest =
      .char '\x7b' :: ((entryChars es).map .char ++ .char '\x7d' :: rest) := by simp [chars]
  rw [hchars]
  by_cases hnil : es = []
  · subst hnil
    rfl
  · obtain ⟨cs, hcs⟩ := exists_head_entryChars hnil
    have hfuel : es.length ≤ (cs.map Point.char ++ .char '\x7d' :: rest).length + 2 := by
      have hlength := length_le_length_entryChars es
      rw [hcs] at hlength
      simp only [List.length_cons, List.length_append, List.length_map] at hlength ⊢
      omega
    have hentries := readEntries_entryChars rules hnil hinner hfuel rest
    rw [hcs, List.map_cons, List.cons_append] at hentries ⊢
    rw [readWith_object, hentries]
    show Except.ok (object rules _, rest) = _
    rw [object_map_ofText hkeys]

theorem takes_readValue {depth : Nat} {v : Json} (h : Fits rules depth v) :
    Takes (readValue rules depth) v := by
  have hscalar : ∀ {depth v}, Fits rules depth v → (∀ vs, v ≠ .arr vs) → (∀ es, v ≠ .obj es) →
      Takes (readValue rules depth) v := by
    intro depth v h hlist hobject
    cases depth <;> exact takes_scalar h hlist hobject
  induction h with
  | null depth => exact hscalar (.null depth) (by simp) (by simp)
  | bool depth b => exact hscalar (.bool depth b) (by simp) (by simp)
  | int depth hn => exact hscalar (.int depth hn) (by simp) (by simp)
  | str depth s => exact hscalar (.str depth s) (by simp) (by simp)
  | arr hvs ih => exact takes_arr hvs ih
  | obj hkeys hes ih => exact takes_obj hkeys ih

/-- The text of a value that keeps within the rules is read as this value. -/
theorem read_text {v : Json} (h : Fits rules rules.depth v) : read rules v.text = .ok v := by
  have hread := takes_readValue h [] ended_nil
  rw [List.append_nil] at hread
  unfold read readPoints text Point.ofText
  rw [String.toList_ofList, hread]
  rfl

end QueryDraft.Json
