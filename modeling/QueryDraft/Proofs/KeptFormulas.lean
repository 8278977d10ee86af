import Mathlib
import QueryDraft.Proofs.Edits
import QueryDraft.Proofs.SanitizedAlias

/-!
# Formulas as they are kept

A formula is kept under its sanitized alias, with the blanks around its expression taken away. What
was accepted is accepted in this form too and for the same reasons (`formulaFault?_sanitized`), and
a formula that is added in this form is kept as it comes (`addFormula_sanitized_eq_ok_iff`).
-/

namespace QueryDraft

namespace Text

theorem sanitizeAlias_of_isBlankText {s : String} (h : isBlankText s = true) :
    sanitizeAlias s = "" := by
  rw [isBlankText, List.all_eq_true] at h
  rw [sanitizeAlias, trim_eq_nil_iff.2 h]
  rfl

theorem isBlankText_sanitizeAlias (s : String) : isBlankText (sanitizeAlias s) = isBlankText s := by
  cases h : isBlankText s with
  | false =>
    exact isBlankText_of_ne_empty (sanitizeAlias_ne_empty h) fun _ => isBlank_of_mem_sanitizeAlias
  | true =>
    rw [sanitizeAlias_of_isBlankText h]
    rfl

theorem strip_eq_empty_iff {s : String} : strip s = "" ↔ isBlankText s = true := by
  rw [← String.toList_inj, strip, String.toList_ofList, isBlankText, List.all_eq_true]
  exact trim_eq_nil_iff

theorem sanitizeAlias_eq_empty_iff {s : String} : sanitizeAlias s = "" ↔ strip s = "" := by
  rw [strip_eq_empty_iff]
  refine ⟨fun h => ?_, sanitizeAlias_of_isBlankText⟩
  by_contra hblank
  exact sanitizeAlias_ne_empty (Bool.not_eq_true _ ▸ hblank) h

end Text

namespace Draft

open Text (sanitizeAlias strip)

variable {d d' : Draft}

theorem formulaFault?_sanitized (name expression : String) :
    formulaFault? (sanitizeAlias name) (strip expression) = formulaFault? name expression := by
  have hopened : (strip expression).toList.count '(' = expression.toList.count '(' :=
    Text.count_strip (by decide) expression
  have hclosed : (strip expression).toList.count ')' = expression.toList.count ')' :=
    Text.count_strip (by decide) expression
  simp only [formulaFault?, Text.isBlankText_sanitizeAlias, Text.isBlankText_strip, hopened, hclosed]

theorem addFormula_sanitized_eq_ok_iff {id name expression : String} :
    d.addFormula ⟨id, sanitizeAlias name, strip expression⟩ = .ok d' ↔
      formulaFault? name expression = none ∧ sanitizeAlias name ∉ d.formulas.map Formula.name ∧
        d' = { d with
          formulas := d.formulas ++ [⟨id, sanitizeAlias name, strip expression⟩] } := by
  rw [addFormula_eq_ok_iff, formulaFault?_sanitized, Text.sanitizeAlias_idem, Text.strip_strip]

/-- A sanitized alias is its own sanitized form, has no blank and is empty only if nothing but blanks
was given. So every pair of an alias and an expression is judged as the pair that would be kept of
it is, and this pair, if its alias is free, is kept as it is. -/
theorem sanitized_formula_stands (name : String) :
    sanitizeAlias (sanitizeAlias name) = sanitizeAlias name ∧
    (∀ c ∈ (sanitizeAlias name).toList, Text.isBlank c = false) ∧
    (sanitizeAlias name = "" ↔ strip name = "") ∧
    ∀ expression,
      formulaFault? (sanitizeAlias name) (strip expression) = formulaFault? name expression ∧
      ∀ (d d' : Draft) (id : String),
        d.addFormula ⟨id, sanitizeAlias name, strip expression⟩ = .ok d' ↔
          formulaFault? name expression = none ∧
          sanitizeAlias name ∉ d.formulas.map Formula.name ∧
          d' = { d with
            formulas := d.formulas ++ [⟨id, sanitizeAlias name, strip expression⟩] } :=
  ⟨Text.sanitizeAlias_idem name, fun _ => Text.isBlank_of_mem_sanitizeAlias,
    Text.sanitizeAlias_eq_empty_iff, fun expression =>
      ⟨formulaFault?_sanitized name expression, fun _ _ _ => addFormula_sanitized_eq_ok_iff⟩⟩

end Draft

/-- A capital sigma at the end of a word and a dotted capital I, each with blanks beside it. -/
example : Text.sanitizeAlias " ΟΔΟΣ \u2003İd\t" = "οδος_i\u0307d" := by decide +kernel

end QueryDraft
