import Mathlib
import QueryDraft.Proofs.Conditions

/-!
# Quoted texts are read back

`readLiteral?` reads a literal by the rule of SQL: it starts with a quote, a doubled quote inside
stands for one, and the first quote that is not doubled closes it. `readList?` reads literals between
parentheses, with a comma and a blank between two of them. Whatever a text holds, a quoted text is
read as this text, and a list of quoted values as these values, with what follows left over
(`quoted_read_back`).
-/

namespace QueryDraft

open Sql

namespace Sql

open Text

/-! ### Reading literals -/

/-- What is left of a literal behind its first quote, and what follows the literal. -/
def literalRest? : List Char → Option (List Char × List Char)
  | [] => none
  | '\'' :: '\'' :: cs => (literalRest? cs).map fun (value, rest) => ('\'' :: value, rest)
  | '\'' :: cs => some ([], cs)
  | c :: cs => (literalRest? cs).map fun (value, rest) => (c :: value, rest)

/-- The value of the literal that a text starts with, and what follows it. -/
def readLiteral? : List Char → Option (String × List Char)
  | '\'' :: cs => (literalRest? cs).map fun (value, rest) => (.ofList value, rest)
  | _ => none

theorem length_of_literalRest? {cs value rest : List Char} (h : literalRest? cs = some (value, rest)) :
    rest.length < cs.length := by
  fun_induction literalRest? cs generalizing value with
  | case1 => cases h
  | case2 cs ih =>
    obtain ⟨⟨value', rest'⟩, hcs, heq⟩ := Option.map_eq_some_iff.1 h
    cases heq
    have := ih hcs
    simp only [List.length_cons]
    omega
  | case3 cs =>
    cases h
    simp
  | case4 c cs _ _ ih =>
    obtain ⟨⟨value', rest'⟩, hcs, heq⟩ := Option.map_eq_some_iff.1 h
    cases heq
    have := ih hcs
    simp only [List.length_cons]
    omega

theorem length_of_readLiteral? {cs rest : List Char} {value : String}
    (h : readLiteral? cs = some (value, rest)) : rest.length < cs.length := by
  unfold readLiteral? at h
  split at h
  · obtain ⟨⟨value', rest'⟩, hcs, heq⟩ := Option.map_eq_some_iff.1 h
    cases heq
    have := length_of_literalRest? hcs
    simp only [List.length_cons]
    omega
  · cases h

/-- The values of literals with a comma and a blank between two of them, and what follows the last. -/
def readLiterals? (cs : List Char) : Option (List String × List Char) :=
  match _ : readLiteral? cs with
  | none => none
  | some (value, ',' :: ' ' :: more) =>
    (readLiterals? more).map fun (values, rest) => (value :: values, rest)
  | some (value, rest) => some ([value], rest)
termination_by cs.length
decreasing_by
  have := length_of_readLiteral? ‹readLiteral? cs = _›
  simp only [List.length_cons] at this
  omega

/-- The values of a list in parentheses, and what follows it. -/
def readList? : List Char → Option (List String × List Char)
  | '(' :: cs =>
    match readLiterals? cs with
    | some (values, ')' :: rest) => some (values, rest)
    | _ => none
  | _ => none

theorem readLiterals?_of_more {cs more : List Char} {value : String}
    (h : readLiteral? cs = some (value, ',' :: ' ' :: more)) :
    readLiterals? cs = (readLiterals? more).map fun (values, rest) => (value :: values, rest) := by
  rw [readLiterals?]
  split <;> simp_all

theorem readLiterals?_of_close {cs rest : List Char} {value : String}
    (h : readLiteral? cs = some (value, ')' :: rest)) :
    readLiterals? cs = some ([value], ')' :: rest) := by
  rw [readLiterals?]
  split <;> simp_all

/-! ### Reading what was written -/

/-- The characters of a text as they stand between quotes. -/
def doubled (cs : List Char) : List Char :=
  cs.flatMap fun c => if c = '\'' then ['\'', '\''] else [c]

theorem toList_quote (value : String) : (quote value).toList = '\'' :: doubled value.toList ++ ['\''] := by
  rw [quote, String.toList_ofList]
  rfl

theorem literalRest?_close {rest : List Char} (h : rest.head? ≠ some '\'') :
    literalRest? ('\'' :: rest) = some ([], rest) := by
  cases rest with
  | nil => rfl
  | cons c rest =>
    have hc : c ≠ '\'' := fun hc => h (congrArg some hc)
    rw [literalRest?]
    simpa using hc

theorem literalRest?_doubled (cs : List Char) {rest : List Char} (h : rest.head? ≠ some '\'') :
    literalRest? (doubled cs ++ '\'' :: rest) = some (cs, rest) := by
  induction cs with
  | nil => exact literalRest?_close h
  | cons c cs ih =>
    rw [doubled, List.flatMap_cons, List.append_assoc, ← doubled]
    by_cases hc : c = '\''
    · subst hc
      simp [literalRest?, ih]
    · rw [if_neg hc, List.singleton_append, literalRest?, ih]
      · rfl
      · exact fun _ hquote => absurd hquote hc
      · exact hc

theorem readLiteral?_quote (value : String) {rest : List Char} (h : rest.head? ≠ some '\'') :
    readLiteral? ((quote value).toList ++ rest) = some (value, rest) := by
  rw [toList_quote, List.append_assoc, List.cons_append, readLiteral?, List.singleton_append,
    literalRest?_doubled _ h]
  simp

theorem readLiterals?_quote {values : List String} (h : values ≠ []) (rest : List Char) :
    readLiterals? ((", ".intercalate (values.map quote)).toList ++ ')' :: rest) =
      some (values, ')' :: rest) := by
  induction values with
  | nil => exact absurd rfl h
  | cons value values ih =>
    cases values with
    | nil =>
      rw [List.map_singleton, String.intercalate_singleton]
      exact readLiterals?_of_close (readLiteral?_quote value (by simp))
    | cons next values =>
      have hchars : (", ".intercalate ((value :: next :: values).map quote)).toList ++ ')' :: rest =
          (quote value).toList ++
            ',' :: ' ' :: ((", ".intercalate ((next :: values).map quote)).toList ++ ')' :: rest) := by
        rw [List.map_cons, List.map_cons, String.intercalate_cons_cons, String.toList_append,
          String.toList_append, List.append_assoc, List.append_assoc]
        rfl
      rw [hchars, readLiterals?_of_more (readLiteral?_quote value (by simp)), ih (by simp)]
      rfl

theorem readList?_quote {values : List String} (h : values ≠ []) (rest : List Char) :
    readList? (("(" ++ ", ".intercalate (values.map quote) ++ ")").toList ++ rest) =
      some (values, rest) := by
  have hchars : ("(" ++ ", ".intercalate (values.map quote) ++ ")").toList ++ rest =
      '(' :: ((", ".intercalate (values.map quote)).toList ++ ')' :: rest) := by
    simp [String.toList_append]
  rw [hchars, readList?, readLiterals?_quote h]
  rfl

/-! ### Splitting what was joined -/

theorem strip_of_trimmed {value : String} (h : Trimmed isBlank value.toList) : strip value = value := by
  rw [strip, h.trim_eq, String.ofList_toList]

/-- Values of a list, joined by commas, are the values of this text. -/
theorem listValues_intercalate {value : String} {values : List String}
    (h : ∀ v ∈ values, v ∈ listValues value) : listValues (",".intercalate values) = values := by
  cases values with
  | nil => decide
  | cons v values =>
    have hparts : (",".intercalate (v :: values)).toList.splitOn ',' =
        (v :: values).map String.toList := by
      rw [String.toList_intercalate]
      refine List.splitOn_intercalate ',' (fun part hpart => ?_) (by simp)
      obtain ⟨w, hw, rfl⟩ := List.mem_map.1 hpart
      exact comma_not_mem_of_mem_listValues (h w hw)
    have hstrip : ((v :: values).map String.toList).map (fun part => strip (.ofList part)) =
        v :: values := by
      rw [List.map_map]
      refine (List.map_congr_left fun w hw => ?_).trans (List.map_id _)
      rw [Function.comp_apply, String.ofList_toList]
      exact strip_of_trimmed (trimmed_of_mem_listValues (h w hw))
    have hkept : ∀ w ∈ v :: values, (!w.isEmpty) = true := fun w hw => by
      simpa [String.isEmpty_iff] using ne_empty_of_mem_listValues (h w hw)
    rw [listValues, hparts, hstrip, List.filter_eq_self.2 hkept]

end Sql

namespace Filter

variable {f : Filter}

/-- In a list on a column of texts, a value that starts with no colon is quoted. -/
theorem operand_eq_quoted {value : String} (hin : f.operator = .isIn)
    (hcolon : value.toList.head? ≠ some ':') : f.operand .text value = .quoted value := by
  simp [operand, hin, Operator.isPattern, Operand.ofValue, isParameter_eq_false_of_head hcolon]

/-- The condition of a list of texts: its values in quotes, in parentheses. -/
theorem sql_eq_quoted (hin : f.operator = .isIn) (hvalues : listValues f.value ≠ [])
    (hcolon : ∀ v ∈ listValues f.value, v.toList.head? ≠ some ':') :
    f.sql .text = .ok (f.column.text ++ " IN " ++
      ("(" ++ ", ".intercalate ((listValues f.value).map quote) ++ ")")) := by
  have hquoted : (f.candidates.map fun v => (f.operand .text v).sql) =
      (listValues f.value).map quote := by
    rw [candidates_of_isIn hin]
    refine List.map_congr_left fun v hv => ?_
    rw [operand_eq_quoted hin (hcolon v hv)]
    rfl
  rw [sql_eq_ok fun _ => by rwa [candidates_of_isIn hin], hquoted, condition,
    if_neg (by rw [hin]; decide), if_pos hin]
  exact congrArg Except.ok (by simp only [toString, show " IN (" = " IN " ++ "(" from rfl, String.append_assoc])

/-- A quoted text is read as this text, whatever follows that does not start with a quote. A list of
quoted values is read as these values, and joined by commas they are split into themselves. -/
theorem quoted_read_back :
    (∀ (value : String) (rest : List Char), rest.head? ≠ some '\'' →
      readLiteral? ((quote value).toList ++ rest) = some (value, rest)) ∧
    (∀ f : Filter, f.operator = .isIn → (∀ v ∈ listValues f.value, v.toList.head? ≠ some ':') →
      (listValues f.value = [] ∧ f.sql .text = .error (.noValues f.column)) ∨
      ∃ list, f.sql .text = .ok (f.column.text ++ " IN " ++ list) ∧
        ∀ rest, readList? (list.toList ++ rest) = some (listValues f.value, rest)) ∧
    ∀ value, listValues (",".intercalate (listValues value)) = listValues value := by
  refine ⟨fun value rest => readLiteral?_quote value, fun f hin hcolon => ?_,
    fun value => listValues_intercalate fun v hv => hv⟩
  by_cases hvalues : listValues f.value = []
  · exact .inl ⟨hvalues, sql_eq_error_iff.2 ⟨hin, hvalues, rfl⟩⟩
  · exact .inr ⟨_, sql_eq_quoted hin hvalues hcolon, readList?_quote hvalues⟩

end Filter

namespace Sample

/-- A list of names of the users. -/
def namedUsers (value : String) : Filter :=
  ⟨"f", ⟨⟨"public", "users"⟩, "name"⟩, .isIn, value⟩

theorem quoted_read_back_names :
    (∃ list, (namedUsers " O'Brien, ') OR ('1'='1 ,, '' ").sql .text =
        .ok ("public.users.name IN " ++ list) ∧
      ∀ rest, readList? (list.toList ++ rest) =
        some (["O'Brien", "') OR ('1'='1", "''"], rest)) ∧
      readLiteral? ((quote "O'Brien''").toList ++ [')']) = some ("O'Brien''", [')']) := by
  obtain ⟨hliteral, hlist, -⟩ := Filter.quoted_read_back
  have hvalues : listValues (namedUsers " O'Brien, ') OR ('1'='1 ,, '' ").value =
      ["O'Brien", "') OR ('1'='1", "''"] := by
    decide
  have hnames := hlist (namedUsers " O'Brien, ') OR ('1'='1 ,, '' ") rfl (by rw [hvalues]; decide)
  rw [hvalues] at hnames
  exact ⟨hnames.resolve_left fun h => List.cons_ne_nil _ _ h.1, hliteral _ _ (by decide)⟩

end Sample

end QueryDraft
