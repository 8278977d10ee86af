import Mathlib
import QueryDraft.Catalog.Samples
import QueryDraft.Proofs.IdentifierText
import QueryDraft.Proofs.Outcome

/-!
# What stands in a condition

A condition is made of the column, the operator and one operand for each value of the filter
(`Filter.sql_eq_ok`). A value that names no parameter and is neither a truth value nor quoted is
written as it stands, and is then a number (`isNumeral_iff`): in the digits of any script, and with
a line break behind it where the value is not one of a list. Without these it is a number as SQL has
them (`Filter.number_of_unquoted`).
-/

namespace QueryDraft

open Sql

/-! ### The values of a list -/

namespace Sql

open Text

variable {value v : String}

theorem mem_listValues_iff : v ∈ listValues value ↔
    ∃ part ∈ value.toList.splitOn ',', v = strip (.ofList part) ∧ v ≠ "" := by
  simp only [listValues, List.mem_filter, List.mem_map]
  constructor
  · rintro ⟨⟨part, hpart, rfl⟩, hne⟩
    exact ⟨part, hpart, rfl, by simpa [String.isEmpty_iff] using hne⟩
  · rintro ⟨part, hpart, rfl, hne⟩
    exact ⟨⟨part, hpart, rfl⟩, by simpa [String.isEmpty_iff] using hne⟩

theorem trimmed_of_mem_listValues (h : v ∈ listValues value) : Trimmed isBlank v.toList := by
  obtain ⟨part, -, rfl, -⟩ := mem_listValues_iff.1 h
  rw [strip, String.toList_ofList]
  exact trimmed_trim isBlank _

theorem ne_empty_of_mem_listValues (h : v ∈ listValues value) : v ≠ "" := by
  obtain ⟨-, -, -, hne⟩ := mem_listValues_iff.1 h
  exact hne

theorem comma_not_mem_of_mem_listValues (h : v ∈ listValues value) : ',' ∉ v.toList := by
  obtain ⟨part, hpart, rfl, -⟩ := mem_listValues_iff.1 h
  rw [strip, String.toList_ofList, String.toList_ofList]
  exact fun hmem => not_mem_of_mem_splitOn hpart (mem_of_mem_trim hmem)

end Sql

/-! ### Operands -/

namespace Sql

variable {type : TypeClass} {value : String}

theorem isParameter_iff : isParameter value = true ↔ ∃ name, name ≠ "" ∧ value = ":" ++ name := by
  constructor
  · intro h
    unfold isParameter at h
    split at h
    · rename_i c cs hvalue
      refine ⟨.ofList (c :: cs), by simp, String.toList_inj.1 ?_⟩
      simp [hvalue, String.toList_append]
    · cases h
  · rintro ⟨name, hne, rfl⟩
    obtain ⟨c, cs, hname⟩ := List.exists_cons_of_ne_nil fun h => hne (String.toList_inj.1 h)
    unfold isParameter
    rw [String.toList_append, hname]
    rfl

theorem isParameter_eq_false_of_head (h : value.toList.head? ≠ some ':') : isParameter value = false := by
  rw [← Bool.not_eq_true, isParameter_iff]
  rintro ⟨name, -, rfl⟩
  exact h (by rw [String.toList_append]; rfl)

theorem Operand.ofPattern_eq_parameter_iff :
    Operand.ofPattern value = .parameter value ↔ isParameter value = true := by
  unfold ofPattern
  split_ifs with h <;> simp [h]

theorem Operand.ofValue_eq_parameter_iff :
    Operand.ofValue type value = .parameter value ↔ isParameter value = true := by
  unfold ofValue
  by_cases h : isParameter value = true
  · simp [h]
  · rw [if_neg h]
    cases type with
    | truth => simp only; split_ifs <;> simp [h]
    | text => simp [h]
    | number | unknown => simp only; split_ifs <;> simp [h]

/-- A value that is no parameter is a truth value, a number or a quoted text. -/
theorem Operand.ofValue_cases (h : isParameter value = false) :
    (∃ b, ofValue type value = .truth b) ∨ ofValue type value = .quoted value ∨
      ofValue type value = .numeral value ∧ isNumeral value = true := by
  unfold ofValue
  rw [h, if_neg Bool.false_ne_true]
  cases type with
  | truth =>
    simp only
    split_ifs
    exacts [.inl ⟨true, rfl⟩, .inl ⟨false, rfl⟩, .inr (.inl rfl)]
  | text => exact .inr (.inl rfl)
  | number | unknown =>
    simp only
    split_ifs with hnumeral
    exacts [.inr (.inr ⟨rfl, hnumeral⟩), .inr (.inl rfl)]

end Sql

namespace Filter

variable {f : Filter} {type : TypeClass} {value : String}

/-- What a value of the filter is written as. -/
def operand (f : Filter) (type : TypeClass) (value : String) : Operand :=
  if f.operator.isPattern then .ofPattern value else .ofValue type value

/-- The condition of the filter with its operands written out. -/
def condition (f : Filter) (operands : List String) : String :=
  if f.operator.isUnary then s!"{f.column.text} {f.operator.word}"
  else if f.operator = .isIn then s!"{f.column.text} IN (" ++ ", ".intercalate operands ++ ")"
  else s!"{f.column.text} {f.operator.word} " ++ ", ".intercalate operands

theorem operands_eq : f.operands type = f.candidates.map (f.operand type) := by
  unfold operands operand
  split_ifs <;> rfl

/-- A condition that can be written is its column, its operator and what its values are written as. -/
theorem sql_eq_ok (h : f.operator = .isIn → f.candidates ≠ []) :
    f.sql type = .ok (f.condition (f.candidates.map fun v => (f.operand type v).sql)) := by
  have hoperands : (f.operands type).map Operand.sql =
      f.candidates.map fun v => (f.operand type v).sql := by
    rw [operands_eq, List.map_map]
    rfl
  unfold sql condition
  simp only [hoperands]
  split_ifs with hunary hin hempty
  · rfl
  · exact absurd (List.map_eq_nil_iff.1 (List.isEmpty_iff.1 hempty)) (h hin)
  · rfl
  · rfl

theorem operand_eq_parameter_iff :
    f.operand type value = .parameter value ↔ isParameter value = true := by
  unfold operand
  split_ifs
  exacts [Operand.ofPattern_eq_parameter_iff, Operand.ofValue_eq_parameter_iff]

end Filter

/-! ### Numbers -/

namespace Sql

/-- One or more digits of some kind. -/
def IsRun (digit : Char → Bool) (cs : List Char) : Prop := cs ≠ [] ∧ ∀ c ∈ cs, digit c = true

/-- Digits, and perhaps a point and more digits behind it. -/
inductive IsUnsigned (digit : Char → Bool) : List Char → Prop
  | whole {ds : List Char} (hds : IsRun digit ds) : IsUnsigned digit ds
  | fraction {ds ps : List Char} (hds : IsRun digit ds) (hps : IsRun digit ps) :
    IsUnsigned digit (ds ++ '.' :: ps)

/-- An unsigned number, perhaps with a minus before it. -/
inductive IsNumber (digit : Char → Bool) : List Char → Prop
  | plain {cs : List Char} (hcs : IsUnsigned digit cs) : IsNumber digit cs
  | negative {cs : List Char} (hcs : IsUnsigned digit cs) : IsNumber digit ('-' :: cs)

variable {digit digit' : Char → Bool} {cs ds rest : List Char} {value : String}

theorem IsUnsigned.ne_nil (h : IsUnsigned digit cs) : cs ≠ [] := by
  cases h with
  | whole hds => exact hds.1
  | fraction hds hps => exact List.append_ne_nil_of_left_ne_nil hds.1 _

theorem IsUnsigned.mem (h : IsUnsigned digit cs) : ∀ c ∈ cs, digit c = true ∨ c = '.' := by
  cases h with
  | whole hds => exact fun c hc => .inl (hds.2 c hc)
  | fraction hds hps =>
    rw [List.forall_mem_append, List.forall_mem_cons]
    exact ⟨fun c hc => .inl (hds.2 c hc), .inr rfl, fun c hc => .inl (hps.2 c hc)⟩

theorem IsNumber.mem (h : IsNumber digit cs) : ∀ c ∈ cs, digit c = true ∨ c = '.' ∨ c = '-' := by
  cases h with
  | plain hcs => exact fun c hc => (hcs.mem c hc).imp_right .inl
  | negative hcs =>
    rw [List.forall_mem_cons]
    exact ⟨.inr (.inr rfl), fun c hc => (hcs.mem c hc).imp_right .inl⟩

theorem not_isNumber_of_mem {c : Char} (hc : c ∈ cs) (hdigit : digit c = false) (hpoint : c ≠ '.')
    (hminus : c ≠ '-') : ¬ IsNumber digit cs := by
  intro h
  rcases h.mem c hc with h | h | h
  · rw [hdigit] at h
    cases h
  · exact hpoint h
  · exact hminus h

theorem IsRun.mono (h : IsRun digit cs) (hdigit : ∀ c ∈ cs, digit c = true → digit' c = true) :
    IsRun digit' cs :=
  ⟨h.1, fun c hc => hdigit c hc (h.2 c hc)⟩

theorem IsUnsigned.mono (h : IsUnsigned digit cs)
    (hdigit : ∀ c ∈ cs, digit c = true → digit' c = true) : IsUnsigned digit' cs := by
  cases h with
  | whole hds => exact .whole (hds.mono hdigit)
  | fraction hds hps =>
    rw [List.forall_mem_append, List.forall_mem_cons] at hdigit
    exact .fraction (hds.mono hdigit.1) (hps.mono hdigit.2.2)

theorem IsNumber.mono (h : IsNumber digit cs)
    (hdigit : ∀ c ∈ cs, digit c = true → digit' c = true) : IsNumber digit' cs := by
  cases h with
  | plain hcs => exact .plain (hcs.mono hdigit)
  | negative hcs => exact .negative (hcs.mono (List.forall_mem_cons.1 hdigit).2)

theorem isEnd_iff : isEnd cs = true ↔ cs = [] ∨ cs = ['\n'] := by
  unfold isEnd
  split
  · simp
  · simp
  · rename_i hnil hbreak
    exact iff_of_false Bool.false_ne_true (not_or.2 ⟨hnil, hbreak⟩)

/-- A run of digits is what is taken off in front of what does not start with one. -/
theorem dropWhile_append_of_isRun (hds : IsRun digit ds) (hrest : ∀ c ∈ rest.head?, digit c = false) :
    (ds ++ rest).dropWhile digit = rest := by
  rw [List.dropWhile_append_of_pos hds.2]
  cases rest with
  | nil => rfl
  | cons c rest => rw [List.dropWhile_cons, hrest c rfl, if_neg Bool.false_ne_true]

theorem isRun_takeWhile (h : (cs.dropWhile digit).length < cs.length) :
    IsRun digit (cs.takeWhile digit) := by
  refine ⟨fun hnil => ?_, fun c hc => List.mem_takeWhile_imp hc⟩
  have hlength := congrArg List.length (List.takeWhile_append_dropWhile (p := digit) (l := cs))
  rw [hnil, List.nil_append] at hlength
  omega

theorem head_of_isEnd (h : isEnd cs = true) : ∀ c ∈ cs.head?, Text.isDigit c = false := by
  rcases isEnd_iff.1 h with rfl | rfl
  · simp
  · rintro c ⟨⟩
    decide

theorem isUnsignedNumeral_iff : isUnsignedNumeral cs = true ↔
    ∃ ds rest, cs = ds ++ rest ∧ IsUnsigned Text.isDigit ds ∧ isEnd rest = true := by
  constructor
  · intro h
    have hcs := List.takeWhile_append_dropWhile (p := Text.isDigit) (l := cs)
    unfold isUnsignedNumeral at h
    rw [Bool.and_eq_true, decide_eq_true_eq] at h
    obtain ⟨hwhole, h⟩ := h
    have hwhole := isRun_takeWhile hwhole
    split at h
    · rename_i places hplaces
      rw [Bool.and_eq_true, decide_eq_true_eq] at h
      have hps := List.takeWhile_append_dropWhile (p := Text.isDigit) (l := places)
      refine ⟨_, _, ?_, .fraction hwhole (isRun_takeWhile h.1), h.2⟩
      rw [List.append_assoc, List.cons_append, hps, ← hplaces, hcs]
    · exact ⟨_, _, hcs.symm, .whole hwhole, h⟩
  · rintro ⟨ds, rest, rfl, hds, hrest⟩
    have hhead := head_of_isEnd hrest
    cases hds with
    | whole hds =>
      have hpos := List.length_pos_iff.2 hds.1
      unfold isUnsignedNumeral
      rw [dropWhile_append_of_isRun hds hhead]
      rcases isEnd_iff.1 hrest with rfl | rfl <;> simp [hpos, isEnd]
    | @fraction ds ps hds hps =>
      have hpoint : ∀ c ∈ ('.' :: (ps ++ rest)).head?, Text.isDigit c = false := by
        rintro c ⟨⟩
        decide
      unfold isUnsignedNumeral
      rw [List.append_assoc, List.cons_append, dropWhile_append_of_isRun hds hpoint]
      simp only
      rw [dropWhile_append_of_isRun hps hhead, hrest]
      have hdspos := List.length_pos_iff.2 hds.1
      have hpspos := List.length_pos_iff.2 hps.1
      simp only [List.length_append, List.length_cons, Bool.and_true, Bool.and_eq_true, decide_eq_true_eq]
      omega

/-- A value counts as a number if it is one, or if it is one and a line break. -/
theorem isNumeral_iff : isNumeral value = true ↔
    ∃ cs rest, value.toList = cs ++ rest ∧ IsNumber Text.isDigit cs ∧ isEnd rest = true := by
  unfold isNumeral
  split
  · rename_i cs hvalue
    rw [isUnsignedNumeral_iff, hvalue]
    constructor
    · rintro ⟨ds, rest, rfl, hds, hrest⟩
      exact ⟨'-' :: ds, rest, rfl, .negative hds, hrest⟩
    · rintro ⟨ds, rest, hcs, hds, hrest⟩
      cases hds with
      | plain hds =>
        -- no digit and no point is a minus
        obtain ⟨d, ds, rfl⟩ := List.exists_cons_of_ne_nil hds.ne_nil
        cases hcs
        rcases hds.mem '-' (List.mem_cons_self ..) with hminus | hminus
        exacts [absurd hminus (by decide), absurd hminus (by decide)]
      | negative hds =>
        cases hcs
        exact ⟨_, rest, rfl, hds, hrest⟩
  · rename_i hvalue
    rw [isUnsignedNumeral_iff]
    constructor
    · rintro ⟨ds, rest, hcs, hds, hrest⟩
      exact ⟨ds, rest, hcs, .plain hds, hrest⟩
    · rintro ⟨ds, rest, hcs, hds, hrest⟩
      cases hds with
      | plain hds => exact ⟨ds, rest, hcs, hds, hrest⟩
      | negative hds => exact absurd hcs (hvalue _)

end Sql

/-- A value that starts with no colon and is written neither as a truth value nor in quotes is written
as it stands. It is a number then, in the digits of any script and, unless it is one of a list,
perhaps with a line break behind it. If its digits are those of ASCII and it ends in no line break, it
is a number of SQL. -/
theorem Filter.number_of_unquoted {f : Filter} {type : TypeClass} {value : String}
    (hpattern : f.operator.isPattern = false) (hvalue : value ∈ f.candidates)
    (hcolon : value.toList.head? ≠ some ':') (htrue : (f.operand type value).sql ≠ "TRUE")
    (hfalse : (f.operand type value).sql ≠ "FALSE")
    (hquoted : (f.operand type value).sql ≠ quote value) :
    f.sql type = .ok (f.condition (f.candidates.map fun v => (f.operand type v).sql)) ∧
      (f.operand type value).sql = value ∧
      (∃ cs rest, value.toList = cs ++ rest ∧ IsNumber Text.isDigit cs ∧
        (rest = [] ∨ f.operator ≠ .isIn ∧ rest = ['\n'])) ∧
      ((∀ c ∈ value.toList, Text.isDigit c = true → c.isDigit = true) →
        value.toList.getLast? ≠ some '\n' → IsNumber Char.isDigit value.toList) := by
  have hoperand : f.operand type value = .ofValue type value := by
    rw [operand, hpattern, if_neg Bool.false_ne_true]
  have hparameter := isParameter_eq_false_of_head hcolon
  rw [hoperand] at htrue hfalse hquoted ⊢
  refine ⟨sql_eq_ok fun _ => List.ne_nil_of_mem hvalue, ?_⟩
  rcases @Operand.ofValue_cases type value hparameter with ⟨b, h⟩ | h | ⟨h, hnumeral⟩
  · rw [h] at htrue hfalse
    cases b
    exacts [absurd rfl hfalse, absurd rfl htrue]
  · rw [h] at hquoted
    exact absurd rfl hquoted
  · obtain ⟨cs, rest, hcs, hnumber, hrest⟩ := isNumeral_iff.1 hnumeral
    refine ⟨by rw [h]; rfl, ⟨cs, rest, hcs, hnumber, ?_⟩, fun hascii hlast => ?_⟩
    · rcases isEnd_iff.1 hrest with rfl | rfl
      · exact .inl rfl
      · -- the values of a list are trimmed
        refine .inr ⟨fun hin => ?_, rfl⟩
        rw [candidates_of_isIn hin] at hvalue
        have hsolid := (trimmed_of_mem_listValues hvalue).last '\n' (by simp [hcs])
        exact absurd hsolid (by decide)
    · rcases isEnd_iff.1 hrest with rfl | rfl
      · rw [List.append_nil] at hcs
        rw [hcs] at hascii ⊢
        exact hnumber.mono hascii
      · exact absurd (by simp [hcs]) hlast

namespace Sample

/-- A condition on the id of the users. -/
def userIds (operator : Operator) (value : String) : Filter :=
  ⟨"f", ⟨⟨"public", "users"⟩, "id"⟩, operator, value⟩

theorem number_of_unquoted_list :
    (userIds .isIn "7, -12.50").sql .number = .ok "public.users.id IN (7, -12.50)" ∧
      "-12.50" ∈ (userIds .isIn "7, -12.50").candidates ∧
      IsNumber Char.isDigit "-12.50".toList := by
  have hvalue : "-12.50" ∈ (userIds .isIn "7, -12.50").candidates := by decide
  obtain ⟨hsql, -, -, hnumber⟩ := @Filter.number_of_unquoted (userIds .isIn "7, -12.50")
    .number _ (by rfl) hvalue (by decide) (by decide) (by decide) (by decide)
  have hdigits : ∀ c ∈ "-12.50".toList, Text.isDigit c = true → c.isDigit = true := by
    have hall : ("-12.50".toList.all fun c => !Text.isDigit c || c.isDigit) = true := by decide
    intro c hc hdigit
    have := List.all_eq_true.1 hall c hc
    rwa [hdigit] at this
  exact ⟨hsql, hvalue, hnumber hdigits (by decide)⟩

/-- An Arabic digit is written as it stands, and so is the line break behind a number. -/
theorem number_of_unquoted_foreign :
    (userIds .equal "٣").sql (Draft.typeClass .shop ⟨⟨"public", "users"⟩, "id"⟩) =
        .ok "public.users.id = ٣" ∧
      (userIds .equal "5\n").sql (Draft.typeClass .shop ⟨⟨"public", "users"⟩, "id"⟩) =
        .ok "public.users.id = 5\n" ∧
      ∀ value ∈ ["٣", "5\n"], value.toList.head? ≠ some ':' ∧ value ≠ "TRUE" ∧ value ≠ "FALSE" ∧
        value ≠ quote value ∧ ¬ IsNumber Char.isDigit value.toList := by
  refine ⟨by decide, by decide, List.forall_mem_cons.2 ⟨?_, List.forall_mem_singleton.2 ?_⟩⟩
  · exact ⟨by decide, by decide, by decide, by decide,
      not_isNumber_of_mem (c := '٣') (by decide) (by decide) (by decide) (by decide)⟩
  · exact ⟨by decide, by decide, by decide, by decide,
      not_isNumber_of_mem (c := '\n') (by decide) (by decide) (by decide) (by decide)⟩

end Sample

end QueryDraft
