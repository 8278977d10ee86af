import Mathlib
import QueryDraft.Text.Lowercase

/-!
# Trimmed texts and sanitized aliases

`Trimmed p cs`: no character of the class `p` stands at either end of `cs`. Trimming makes a text
so and leaves one alone that is so. A sanitized alias holds no blank
(`isBlank_of_mem_sanitizeAlias`), is not empty unless the name is blank (`sanitizeAlias_ne_empty`)
and is its own sanitized form (`sanitizeAlias_idem`): no lower-case form of a character is blank or
has a lower-case form of its own, which is read off the runs of the table.
-/

namespace QueryDraft.Text

/-! ### Trimming -/

section trim

variable {p : Char → Bool} {cs : List Char}

structure Trimmed (p : Char → Bool) (cs : List Char) : Prop where
  head : ∀ c ∈ cs.head?, p c = false
  last : ∀ c ∈ cs.getLast?, p c = false

theorem trim_eq_rdropWhile (p : Char → Bool) (cs : List Char) :
    trim p cs = (cs.dropWhile p).rdropWhile p := rfl

theorem trimmed_trim (p : Char → Bool) (cs : List Char) : Trimmed p (trim p cs) := by
  rw [trim_eq_rdropWhile]
  refine ⟨fun c hc => ?_, fun c hc => ?_⟩
  · obtain ⟨rest, hrest⟩ := List.head?_eq_some_iff.1 hc
    obtain ⟨suffix, hsuffix⟩ := List.rdropWhile_prefix p (cs.dropWhile p)
    have hhead : (cs.dropWhile p).head? = some c := by rw [← hsuffix, hrest]; rfl
    have := List.head?_dropWhile_not p cs
    rwa [hhead] at this
  · have hne : (cs.dropWhile p).rdropWhile p ≠ [] := by
      rintro h
      rw [h] at hc
      cases hc
    have := List.rdropWhile_last_not p (cs.dropWhile p) hne
    rw [List.getLast?_eq_some_getLast hne, Option.mem_some_iff] at hc
    rwa [hc, Bool.not_eq_true] at this

theorem Trimmed.trim_eq (h : Trimmed p cs) : trim p cs = cs := by
  have hfront : cs.dropWhile p = cs := by
    rw [List.dropWhile_eq_self_iff]
    intro hl
    rw [h.head cs[0] (by rw [List.head?_eq_getElem?]; simp)]
    exact Bool.false_ne_true
  rw [trim_eq_rdropWhile, hfront, List.rdropWhile_eq_self_iff]
  intro hne
  rw [h.last (cs.getLast hne) (List.getLast?_eq_some_getLast hne)]
  exact Bool.false_ne_true

theorem trim_trim (p : Char → Bool) (cs : List Char) : trim p (trim p cs) = trim p cs :=
  (trimmed_trim p cs).trim_eq

theorem mem_of_mem_trim {c : Char} (h : c ∈ trim p cs) : c ∈ cs :=
  List.dropWhile_subset p ((List.rdropWhile_prefix p _).subset h)

/-- Trimming drops characters of the class only. -/
theorem count_trim {a : Char} (ha : p a = false) (cs : List Char) :
    (trim p cs).count a = cs.count a := by
  have hdrop (l : List Char) : (l.dropWhile p).count a = l.count a := by
    have hnone : (l.takeWhile p).count a = 0 := by
      rw [List.count_eq_zero]
      intro h
      simp [List.mem_takeWhile_imp h] at ha
    conv_rhs => rw [← List.takeWhile_append_dropWhile (p := p) (l := l)]
    rw [List.count_append, hnone, Nat.zero_add]
  rw [trim, List.count_reverse, hdrop, List.count_reverse, hdrop]

theorem trim_eq_nil_iff : trim p cs = [] ↔ ∀ c ∈ cs, p c = true := by
  constructor
  · intro h c hc
    by_contra hp
    have hp : p c = false := by simpa using hp
    have hcount := count_trim hp cs
    rw [h, List.count_nil, eq_comm, List.count_eq_zero] at hcount
    exact hcount hc
  · intro h
    rw [List.eq_nil_iff_forall_not_mem]
    intro c hc
    have := trimmed_trim p cs
    obtain ⟨d, ds, hd⟩ := List.exists_cons_of_ne_nil (List.ne_nil_of_mem hc)
    have hhead := this.head d (by rw [hd]; rfl)
    rw [h d (mem_of_mem_trim (by rw [hd]; exact List.mem_cons_self ..))] at hhead
    cases hhead

theorem isBlankText_eq_false_iff {s : String} :
    isBlankText s = false ↔ trim isBlank s.toList ≠ [] := by
  rw [Ne, trim_eq_nil_iff, ← Bool.not_eq_true, isBlankText, List.all_eq_true]

theorem strip_strip (s : String) : strip (strip s) = strip s := by
  simp only [strip, String.toList_ofList, trim_trim]

theorem isBlankText_strip (s : String) : isBlankText (strip s) = isBlankText s := by
  rw [Bool.eq_iff_iff, ← Bool.not_eq_false, ← Bool.not_eq_false, not_iff_not,
    isBlankText_eq_false_iff, isBlankText_eq_false_iff, strip, String.toList_ofList, trim_trim]

theorem count_strip {a : Char} (ha : isBlank a = false) (s : String) :
    (strip s).toList.count a = s.toList.count a := by
  rw [strip, String.toList_ofList, count_trim ha]

end trim

/-! ### Underscores for blanks -/

theorem underscoreRuns_eq_self {cs : List Char} (h : ∀ c ∈ cs, isBlank c = false) :
    underscoreRuns cs = cs := by
  induction cs with
  | nil => rfl
  | cons c cs ih =>
    rw [List.forall_mem_cons] at h
    simp [underscoreRuns, h.1, ih h.2]

theorem underscoreRuns_ne_nil {cs : List Char} (h : cs ≠ []) : underscoreRuns cs ≠ [] := by
  induction cs with
  | nil => exact absurd rfl h
  | cons c cs ih =>
    unfold underscoreRuns
    split_ifs with hc hnext
    · refine ih ?_
      rintro rfl
      simp at hnext
    · simp
    · simp

/-! ### Lower case -/

namespace Lowercase

/-- A run of the table. -/
abbrev Run := Nat × Nat × Nat × Int

namespace Run

/-- The character with the number `n` is in the run. -/
def Covers (r : Run) (n : Nat) : Prop :=
  r.1 ≤ n ∧ n ≤ r.2.1 ∧ (n - r.1) % r.2.2.1 = 0

/-- The number of the first form that the run gives. -/
def lowest (r : Run) : Nat := (r.1 + r.2.2.2).toNat

/-- The number of the last form that the run gives. -/
def highest (r : Run) : Nat := (r.2.1 + r.2.2.2).toNat

/-- No form that the run gives has a number between `low` and `high`. -/
def misses (r : Run) (low high : Nat) : Bool := r.highest.blt low || high.blt r.lowest

/-- No form that the run gives is in the other run: it lies outside of it or, where the other run
takes every second character, between its characters. -/
def avoids (r other : Run) : Bool :=
  r.misses other.1 other.2.1 ||
    ((r.1.beq r.2.1 || r.2.2.1.beq 2) && other.2.2.1.beq 2 && ((r.lowest + other.1) % 2).beq 1)

theorem lt_or_lt_of_misses {r : Run} {low high n m : Nat} (h : r.misses low high = true)
    (hn : r.Covers n) (hm : (m : Int) = n + r.2.2.2) : m < low ∨ high < m := by
  obtain ⟨hlow, hhigh, _⟩ := hn
  simp only [misses, lowest, highest, Bool.or_eq_true, Nat.blt_eq] at h
  omega

theorem not_covers_of_avoids {r other : Run} {n m : Nat} (h : r.avoids other = true)
    (h0 : 0 ≤ r.1 + r.2.2.2) (hn : r.Covers n) (hm : (m : Int) = n + r.2.2.2) :
    ¬ other.Covers m := by
  rintro ⟨hlow, hhigh, hstep⟩
  simp only [avoids, Bool.or_eq_true, Bool.and_eq_true, Nat.beq_eq] at h
  rcases h with h | ⟨⟨hr, hother⟩, hodd⟩
  · have := lt_or_lt_of_misses h hn hm
    omega
  · obtain ⟨hn₁, hn₂, hn₃⟩ := hn
    rw [hother] at hstep
    rw [lowest] at hodd
    rcases hr with hr | hr
    · omega
    · rw [hr] at hn₃
      omega

end Run

/-- The blank characters as closed ranges of numbers. -/
def blankRanges : List (Nat × Nat) :=
  [(0x09, 0x0D), (0x1C, 0x20), (0x85, 0x85), (0xA0, 0xA0), (0x1680, 0x1680), (0x2000, 0x200A),
    (0x2028, 0x2029), (0x202F, 0x202F), (0x205F, 0x205F), (0x3000, 0x3000)]

theorem exists_range_of_isBlank {c : Char} (h : isBlank c = true) :
    ∃ r ∈ blankRanges, r.1 ≤ c.toNat ∧ c.toNat ≤ r.2 := by
  simp only [isBlank, isSpace, Bool.or_eq_true, Bool.and_eq_true, decide_eq_true_eq,
    beq_iff_eq] at h
  simp only [blankRanges, List.exists_mem_cons_iff]
  omega

set_option maxRecDepth 10000 in
theorem all_runs_avoid : runs.all (fun r => runs.all (Run.avoids r)) = true := by decide +kernel

theorem runs_avoid : ∀ r ∈ runs, ∀ other ∈ runs, Run.avoids r other = true := by
  have := all_runs_avoid
  simpa only [List.all_eq_true] using this

theorem runs_miss_blanks : ∀ r ∈ runs, ∀ b ∈ blankRanges, Run.misses r b.1 b.2 = true := by
  decide +kernel

theorem runs_miss_dottedI : ∀ r ∈ runs, Run.misses r 'İ'.toNat 'İ'.toNat = true := by
  decide +kernel

theorem runs_nonneg : ∀ r ∈ runs, 0 ≤ r.1 + r.2.2.2 := by decide +kernel

theorem not_covers_zero : ∀ r ∈ runs, ¬ Run.Covers r 0 := by
  have : ∀ r ∈ runs, 0 < r.1 := by decide +kernel
  exact fun r hr h => absurd h.1 (Nat.not_le_of_lt (this r hr))

/-- The number of a character that is made from a number: the number, or zero where no character
has it. -/
theorem toNat_ofNat (m : Nat) : (Char.ofNat m).toNat = m ∨ (Char.ofNat m).toNat = 0 := by
  unfold Char.ofNat
  split
  · exact .inl rfl
  · exact .inr rfl

/-- A character is its own lower-case form, or that form is given by a run. -/
theorem simple_cases (c : Char) :
    (simple c = c ∧ ∀ r ∈ runs, ¬ Run.Covers r c.toNat) ∨
      ∃ r ∈ runs, Run.Covers r c.toNat ∧
        ((simple c).toNat = 0 ∨ ((simple c).toNat : Int) = c.toNat + r.2.2.2) := by
  unfold simple
  split
  · rename_i first last step distance h
    refine .inr ⟨_, List.mem_of_find?_eq_some h, ?_, ?_⟩
    · have := List.find?_some h
      simpa [Run.Covers, and_assoc] using this
    · show (Char.ofNat _).toNat = 0 ∨ ((Char.ofNat _).toNat : Int) = c.toNat + distance
      rcases toNat_ofNat (c.toNat + distance).toNat with hm | hm <;> omega
  · rename_i h
    refine .inl ⟨rfl, fun r hr => ?_⟩
    have := List.find?_eq_none.1 h r hr
    simpa [Run.Covers, and_assoc] using this

theorem simple_of_not_covers {c : Char} (h : ∀ r ∈ runs, ¬ Run.Covers r c.toNat) : simple c = c := by
  rcases simple_cases c with ⟨hc, _⟩ | ⟨r, hr, hcov, _⟩
  · exact hc
  · exact absurd hcov (h r hr)

theorem simple_simple (c : Char) : simple (simple c) = simple c := by
  rcases simple_cases c with ⟨hc, _⟩ | ⟨r, hr, hcov, hm | hm⟩
  · rw [hc, hc]
  · refine simple_of_not_covers fun other ho => ?_
    rw [hm]
    exact not_covers_zero other ho
  · exact simple_of_not_covers fun other ho =>
      Run.not_covers_of_avoids (runs_avoid r hr other ho) (runs_nonneg r hr) hcov hm

theorem isBlank_simple {c : Char} (h : isBlank c = false) : isBlank (simple c) = false := by
  rcases simple_cases c with ⟨hc, _⟩ | ⟨r, hr, hcov, hm⟩
  · rw [hc, h]
  · rw [← Bool.not_eq_true]
    intro hb
    obtain ⟨b, hb, hlow, hhigh⟩ := exists_range_of_isBlank hb
    have hpos : ∀ b ∈ blankRanges, 0 < b.1 := by decide
    rcases hm with hm | hm
    · have := hpos b hb
      omega
    · have := Run.lt_or_lt_of_misses (runs_miss_blanks r hr b hb) hcov hm
      omega

theorem simple_ne_dottedI {c : Char} (h : c ≠ 'İ') : simple c ≠ 'İ' := by
  rcases simple_cases c with ⟨hc, _⟩ | ⟨r, hr, hcov, hm⟩
  · rwa [hc]
  · intro heq
    rw [heq] at hm
    rcases hm with hm | hm
    · exact absurd hm (by decide)
    · have := Run.lt_or_lt_of_misses (runs_miss_dottedI r hr) hcov hm
      omega

/-- The characters that lowering leaves alone wherever they stand. -/
structure IsLower (c : Char) : Prop where
  simple_eq : simple c = c
  ne_sigma : c ≠ 'Σ'
  ne_dottedI : c ≠ 'İ'

theorem simple_sigma : simple 'Σ' = 'σ' := by decide +kernel

theorem isLower_simple {c : Char} (h : c ≠ 'İ') : IsLower (simple c) := by
  refine ⟨simple_simple c, fun hs => ?_, simple_ne_dottedI h⟩
  have := simple_simple c
  rw [hs, simple_sigma] at this
  exact absurd this (by decide)

theorem isLower_of_mem_inContext {before after : List Char} {c a : Char}
    (ha : a ∈ inContext before c after) : IsLower a := by
  unfold inContext at ha
  split_ifs at ha with hsigma hfinal hdotted
  · rw [List.mem_singleton.1 ha]
    exact ⟨by decide +kernel, by decide, by decide⟩
  · rw [List.mem_singleton.1 ha]
    exact ⟨by decide +kernel, by decide, by decide⟩
  · rcases List.mem_pair.1 ha with rfl | rfl
    exacts [⟨by decide +kernel, by decide, by decide⟩, ⟨by decide +kernel, by decide, by decide⟩]
  · rw [List.mem_singleton.1 ha]
    exact isLower_simple hdotted

theorem isBlank_of_mem_inContext {before after : List Char} {c a : Char} (hc : isBlank c = false)
    (ha : a ∈ inContext before c after) : isBlank a = false := by
  unfold inContext at ha
  split_ifs at ha with hsigma hfinal hdotted
  · rw [List.mem_singleton.1 ha]
    decide
  · rw [List.mem_singleton.1 ha]
    decide
  · rcases List.mem_pair.1 ha with rfl | rfl
    exacts [by decide, by decide]
  · rw [List.mem_singleton.1 ha]
    exact isBlank_simple hc

theorem inContext_ne_nil (before : List Char) (c : Char) (after : List Char) :
    inContext before c after ≠ [] := by
  unfold inContext
  split_ifs <;> simp

theorem inContext_of_isLower {c : Char} (h : IsLower c) (before after : List Char) :
    inContext before c after = [c] := by
  rw [inContext, if_neg h.ne_sigma, if_neg h.ne_dottedI, h.simple_eq]

theorem isLower_of_mem_lowerAfter {before cs : List Char} {a : Char}
    (ha : a ∈ lowerAfter before cs) : IsLower a := by
  induction cs generalizing before with
  | nil => cases ha
  | cons c cs ih =>
    rcases List.mem_append.1 ha with ha | ha
    exacts [isLower_of_mem_inContext ha, ih ha]

theorem isBlank_of_mem_lowerAfter {before cs : List Char} {a : Char}
    (h : ∀ c ∈ cs, isBlank c = false) (ha : a ∈ lowerAfter before cs) : isBlank a = false := by
  induction cs generalizing before with
  | nil => cases ha
  | cons c cs ih =>
    rw [List.forall_mem_cons] at h
    rcases List.mem_append.1 ha with ha | ha
    exacts [isBlank_of_mem_inContext h.1 ha, ih h.2 ha]

theorem lowerAfter_ne_nil {cs : List Char} (h : cs ≠ []) (before : List Char) :
    lowerAfter before cs ≠ [] := by
  obtain ⟨c, cs, rfl⟩ := List.exists_cons_of_ne_nil h
  exact List.append_ne_nil_of_left_ne_nil (inContext_ne_nil before c cs) _

theorem lowerAfter_of_isLower {cs : List Char} (h : ∀ c ∈ cs, IsLower c) (before : List Char) :
    lowerAfter before cs = cs := by
  induction cs generalizing before with
  | nil => rfl
  | cons c cs ih =>
    rw [List.forall_mem_cons] at h
    rw [lowerAfter, inContext_of_isLower h.1, ih h.2, List.singleton_append]

end Lowercase

/-! ### Sanitized aliases -/

theorem isBlank_of_mem_sanitizeAlias {s : String} {c : Char} (h : c ∈ (sanitizeAlias s).toList) :
    isBlank c = false := by
  rw [sanitizeAlias, lowercase, String.toList_ofList, String.toList_ofList] at h
  refine Lowercase.isBlank_of_mem_lowerAfter (fun a ha => ?_) h
  have := all_underscoreRuns (trim isBlank s.toList)
  rw [List.all_eq_true] at this
  simpa using this a ha

theorem sanitizeAlias_ne_empty {s : String} (h : isBlankText s = false) : sanitizeAlias s ≠ "" := by
  intro hs
  have : (sanitizeAlias s).toList = [] := by rw [hs]; rfl
  rw [sanitizeAlias, lowercase, String.toList_ofList, String.toList_ofList] at this
  exact Lowercase.lowerAfter_ne_nil (underscoreRuns_ne_nil (isBlankText_eq_false_iff.1 h)) [] this

theorem sanitizeAlias_idem (s : String) : sanitizeAlias (sanitizeAlias s) = sanitizeAlias s := by
  have hblank : ∀ c ∈ (sanitizeAlias s).toList, isBlank c = false :=
    fun c hc => isBlank_of_mem_sanitizeAlias hc
  have htrim : trim isBlank (sanitizeAlias s).toList = (sanitizeAlias s).toList :=
    Trimmed.trim_eq ⟨fun c hc => hblank c (List.mem_of_mem_head? hc),
      fun c hc => hblank c (List.mem_of_getLast? hc)⟩
  have hlower : ∀ c ∈ (sanitizeAlias s).toList, Lowercase.IsLower c := fun c hc => by
    rw [sanitizeAlias, lowercase, String.toList_ofList] at hc
    exact Lowercase.isLower_of_mem_lowerAfter hc
  conv_lhs => rw [sanitizeAlias]
  rw [htrim, underscoreRuns_eq_self hblank, lowercase, String.toList_ofList,
    Lowercase.lowerAfter_of_isLower hlower, String.ofList_toList]

theorem isBlankText_of_ne_empty {s : String} (hs : s ≠ "")
    (h : ∀ c ∈ s.toList, isBlank c = false) : isBlankText s = false := by
  rw [isBlankText, List.all_eq_false]
  obtain ⟨c, cs, hc⟩ := List.exists_cons_of_ne_nil (fun h => hs (String.toList_inj.1 h) : s.toList ≠ [])
  refine ⟨c, by rw [hc]; exact List.mem_cons_self .., ?_⟩
  rw [h c (by rw [hc]; exact List.mem_cons_self ..)]
  exact Bool.false_ne_true

end QueryDraft.Text
