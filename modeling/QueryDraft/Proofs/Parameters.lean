import Mathlib
import QueryDraft.Proofs.Conditions
import QueryDraft.Proofs.Selecting

/-!
# Parameters

What a condition has as a parameter is any value that is a colon with something behind it
(`isParameter_iff`). What is reported is the identifier right behind such a colon, if there is one
(`parameterName?_eq_some_iff`), each once and in the order in which the values show them
(`listsShown_distinct`). The two agree on filters whose parameters are a colon and an identifier and
nothing else (`Filter.parameters_agree`); other values are written in full, whatever follows the name.
-/

namespace QueryDraft

open Sql

/-! ### In order of first appearance -/

section order

variable {α β : Type} {shows shows' : β → α → Prop} {vs : List β} {as : List α} {a b : α}

/-- A value shows `a`, and neither it nor one before it shows `b`. -/
def ShownBefore (shows : β → α → Prop) (vs : List β) (a b : α) : Prop :=
  ∃ before v after, vs = before ++ v :: after ∧ shows v a ∧ ∀ u ∈ before ++ [v], ¬ shows u b

/-- The list has what the values show, each once and in the order in which they first show it. -/
structure ListsShown (shows : β → α → Prop) (vs : List β) (as : List α) : Prop where
  mem_iff : ∀ a, a ∈ as ↔ ∃ v ∈ vs, shows v a
  ordered : as.Pairwise (ShownBefore shows vs)

theorem mem_append_cons {u v : β} {before after : List β} (h : u ∈ before ++ [v]) :
    u ∈ before ++ v :: after := by
  rw [List.append_cons]
  exact List.mem_append_left after h

theorem ShownBefore.append (h : ShownBefore shows vs a b) (ws : List β) :
    ShownBefore shows (vs ++ ws) a b := by
  obtain ⟨before, v, after, rfl, ha, hb⟩ := h
  exact ⟨before, v, after ++ ws, by simp, ha, hb⟩

/-- What no value shows comes after all that one shows. -/
theorem shownBefore_of_not_shown (ha : ∃ v ∈ vs, shows v a) (hb : ∀ v ∈ vs, ¬ shows v b) :
    ShownBefore shows vs a b := by
  obtain ⟨v, hv, ha⟩ := ha
  obtain ⟨before, after, rfl⟩ := List.append_of_mem hv
  exact ⟨before, v, after, rfl, ha, fun u hu => hb u (mem_append_cons hu)⟩

theorem ShownBefore.congr (h : ∀ v ∈ vs, ∀ a, shows v a ↔ shows' v a) (hab : ShownBefore shows vs a b) :
    ShownBefore shows' vs a b := by
  obtain ⟨before, v, after, rfl, ha, hb⟩ := hab
  refine ⟨before, v, after, rfl, (h v (by simp) a).1 ha, fun u hu hub => hb u hu ?_⟩
  exact (h u (mem_append_cons hu) b).2 hub

theorem ListsShown.congr (h : ∀ v ∈ vs, ∀ a, shows v a ↔ shows' v a) (has : ListsShown shows vs as) :
    ListsShown shows' vs as where
  mem_iff a := by
    rw [has.mem_iff]
    exact exists_congr fun v => and_congr_right fun hv => h v hv a
  ordered := has.ordered.imp (ShownBefore.congr h)

/-- Dropping repetitions keeps the first appearances: by induction on the values, the last one adds
what it shows at the end unless it is there already. -/
theorem listsShown_distinct [DecidableEq α] (f : β → Option α) (vs : List β) :
    ListsShown (fun v a => f v = some a) vs (distinct (vs.filterMap f)) := by
  induction vs using List.reverseRecOn with
  | nil => exact ⟨by simp [distinct], .nil⟩
  | append_singleton vs v ih =>
    refine ⟨fun a => by rw [mem_distinct, List.mem_filterMap], ?_⟩
    have hkept : (distinct (vs.filterMap f)).Pairwise
        (ShownBefore (fun v a => f v = some a) (vs ++ [v])) := ih.ordered.imp fun h => h.append [v]
    cases hv : f v with
    | none => simpa [List.filterMap_append, hv] using hkept
    | some a =>
      rw [List.filterMap_append, List.filterMap_cons_some hv, List.filterMap_nil, distinct_concat]
      by_cases ha : a ∈ distinct (vs.filterMap f)
      · rwa [insertLast_of_mem ha]
      · rw [insertLast_of_not_mem ha, List.pairwise_append]
        refine ⟨hkept, List.pairwise_singleton _ a, fun b hb c hc => ?_⟩
        rw [List.mem_singleton.1 hc]
        have hnew : ∀ u ∈ vs, ¬ f u = some a := fun u hu hua => ha ((ih.mem_iff a).2 ⟨u, hu, hua⟩)
        exact (shownBefore_of_not_shown ((ih.mem_iff b).1 hb) hnew).append [v]

end order

/-! ### Names of parameters -/

namespace Sql

variable {value name : String}

/-- A letter or underscore and then letters, digits and underscores, all of ASCII. -/
def IsIdentifier (name : String) : Prop :=
  ∃ c cs, name.toList = c :: cs ∧ isNameStart c = true ∧ ∀ d ∈ cs, isNameChar d = true

theorem isIdentifier_of_all {c : Char} {cs : List Char} (h : name.toList = c :: cs)
    (hc : isNameStart c = true) (hcs : cs.all isNameChar = true) : IsIdentifier name :=
  ⟨c, cs, h, hc, List.all_eq_true.1 hcs⟩

/-- The value is a colon and the identifier, and nothing else. -/
def IsPlaceholder (value name : String) : Prop := IsIdentifier name ∧ value = ":" ++ name

/-- The value is a colon, the identifier, and what does not continue the identifier. -/
def OpensWith (value name : String) : Prop :=
  IsIdentifier name ∧ ∃ rest, value = ":" ++ name ++ rest ∧ ∀ c ∈ rest.toList.head?, isNameChar c = false

theorem parameterName?_eq_some_iff : parameterName? value = some name ↔ OpensWith value name := by
  constructor
  · intro h
    unfold parameterName? at h
    split at h
    · rename_i c cs hvalue
      split_ifs at h with hc
      cases h
      refine ⟨⟨c, cs.takeWhile isNameChar, by simp, hc, fun d hd => List.mem_takeWhile_imp hd⟩,
        .ofList (cs.dropWhile isNameChar), String.toList_inj.1 ?_, ?_⟩
      · simp [String.toList_append, hvalue]
      · rw [String.toList_ofList]
        intro d hd
        have := List.head?_dropWhile_not isNameChar cs
        rw [hd] at this
        simpa using this
    · cases h
  · rintro ⟨⟨c, cs, hname, hc, hcs⟩, rest, rfl, hrest⟩
    have hvalue : (":" ++ name ++ rest).toList = ':' :: c :: (cs ++ rest.toList) := by
      simp [String.toList_append, hname]
    have hstop : rest.toList.takeWhile isNameChar = [] := by
      cases hlist : rest.toList with
      | nil => rfl
      | cons d ds => rw [List.takeWhile_cons, hrest d (by rw [hlist]; rfl), if_neg Bool.false_ne_true]
    unfold parameterName?
    rw [hvalue]
    simp only
    rw [if_pos hc, List.takeWhile_append_of_pos hcs, hstop, List.append_nil, ← hname,
      String.ofList_toList]

theorem isParameter_of_isPlaceholder (h : IsPlaceholder value name) : isParameter value = true := by
  obtain ⟨⟨c, cs, hname, -⟩, rfl⟩ := h
  exact isParameter_iff.2 ⟨name, fun hnil => by simp [hnil] at hname, rfl⟩

theorem opensWith_of_isPlaceholder (h : IsPlaceholder value name) : OpensWith value name :=
  ⟨h.1, "", by rw [h.2, String.append_empty], by simp⟩

theorem isParameter_of_opensWith (h : OpensWith value name) : isParameter value = true := by
  obtain ⟨⟨c, cs, hname, -⟩, rest, rfl, -⟩ := h
  refine isParameter_iff.2 ⟨name ++ rest, fun hnil => ?_, String.append_assoc⟩
  have hlist := congrArg String.toList hnil
  rw [String.toList_append, hname] at hlist
  cases hlist

/-- A value that is a placeholder opens with its name and with no other. -/
theorem opensWith_iff_isPlaceholder (h : isParameter value = true → ∃ name, IsPlaceholder value name) :
    OpensWith value name ↔ IsPlaceholder value name := by
  refine ⟨fun hopens => ?_, opensWith_of_isPlaceholder⟩
  obtain ⟨name', hname'⟩ := h (isParameter_of_opensWith hopens)
  have hsome := parameterName?_eq_some_iff.2 (opensWith_of_isPlaceholder hname')
  rw [parameterName?_eq_some_iff.2 hopens] at hsome
  cases hsome
  exact hname'

end Sql

/-! ### What is written and what is reported -/

namespace Filter

variable {f : Filter} {type : TypeClass} {value : String}

/-- A colon with nothing behind it is a text like any other. -/
theorem operand_colon (f : Filter) (type : TypeClass) : f.operand type ":" = .quoted ":" := by
  unfold operand
  split_ifs
  · rfl
  · cases type <;> decide

theorem parameters_of_compile {catalog : Catalog} {d : Draft} {c : Compiled}
    (h : d.compile catalog = .ok c) : c.parameters = parameterNames d.filters := by
  obtain ⟨htables, -, -⟩ := Draft.exists_compile_iff.1 ⟨c, h⟩
  obtain ⟨base, hbase⟩ := Option.isSome_iff_exists.1 (List.isSome_head?.2 htables)
  obtain ⟨-, -, -, -, -, -, rfl⟩ := Draft.parts_of_compile hbase h
  rfl

/-- Of the values of some filters those that are a colon and something more are written as parameters,
as they stand. The names that they open with are reported, each once and in the order in which they
first appear. If whatever stands behind such a colon is an identifier, then the parameters that are
written and those that are reported are the same, and no value that starts with a colon writes anything
else, unless it is the colon alone, in quotes. -/
theorem parameters_agree (fs : List Filter) (type : Filter → TypeClass) :
    (∀ f ∈ fs, (f.operator = .isIn → f.candidates ≠ []) →
      f.sql (type f) = .ok (f.condition (f.candidates.map fun v => (f.operand (type f) v).sql))) ∧
    (∀ catalog d c, d.filters = fs → Draft.compile catalog d = .ok c →
      c.parameters = parameterNames fs) ∧
    (∀ f ∈ fs, ∀ v ∈ f.candidates,
      f.operand (type f) v = .parameter v ↔ ∃ rest, rest ≠ "" ∧ v = ":" ++ rest) ∧
    ListsShown OpensWith (fs.flatMap candidates) (parameterNames fs) ∧
    ((∀ f ∈ fs, ∀ v ∈ f.candidates, ∀ rest, rest ≠ "" → v = ":" ++ rest → IsIdentifier rest) →
      (∀ f ∈ fs, ∀ v ∈ f.candidates,
        f.operand (type f) v = .parameter v ↔ ∃ name, IsPlaceholder v name) ∧
      ListsShown IsPlaceholder (fs.flatMap candidates) (parameterNames fs) ∧
      ∀ f ∈ fs, ∀ v ∈ f.candidates, v.toList.head? = some ':' →
        (f.operand (type f) v).sql = v ∧ (∃ name, IsPlaceholder v name) ∨
          v = ":" ∧ (f.operand (type f) v).sql = quote v) := by
  have hwritten : ∀ f ∈ fs, ∀ v ∈ f.candidates,
      f.operand (type f) v = .parameter v ↔ ∃ rest, rest ≠ "" ∧ v = ":" ++ rest := by
    intro f _ v _
    rw [operand_eq_parameter_iff, isParameter_iff]
  have hshown : ListsShown OpensWith (fs.flatMap candidates) (parameterNames fs) :=
    (listsShown_distinct parameterName? (fs.flatMap candidates)).congr
      fun _ _ _ => parameterName?_eq_some_iff
  refine ⟨fun f _ h => sql_eq_ok h, fun catalog d c hfs hc => hfs ▸ parameters_of_compile hc, hwritten,
    hshown, fun hnames => ?_⟩
  have hplaceholder : ∀ f ∈ fs, ∀ v ∈ f.candidates, isParameter v = true → ∃ name, IsPlaceholder v name := by
    intro f hf v hv hparameter
    obtain ⟨rest, hne, rfl⟩ := isParameter_iff.1 hparameter
    exact ⟨rest, hnames f hf _ hv rest hne rfl, rfl⟩
  refine ⟨fun f hf v hv => ?_, hshown.congr fun v hv name => ?_, fun f hf v hv hcolon => ?_⟩
  · rw [operand_eq_parameter_iff]
    exact ⟨hplaceholder f hf v hv, fun ⟨_, h⟩ => isParameter_of_isPlaceholder h⟩
  · obtain ⟨f, hf, hv⟩ := List.mem_flatMap.1 hv
    exact opensWith_iff_isPlaceholder (hplaceholder f hf v hv)
  · cases hparameter : isParameter v with
    | true =>
      have hsql : f.operand (type f) v = .parameter v := operand_eq_parameter_iff.2 hparameter
      exact .inl ⟨by rw [hsql]; rfl, hplaceholder f hf v hv hparameter⟩
    | false =>
      obtain ⟨cs, hcs⟩ := List.head?_eq_some_iff.1 hcolon
      obtain rfl : cs = [] := by
        cases cs with
        | nil => rfl
        | cons c cs => simp [isParameter, hcs] at hparameter
      obtain rfl : v = ":" := String.toList_inj.1 hcs
      exact .inr ⟨rfl, by rw [operand_colon]; rfl⟩

end Filter

namespace Sample

/-- Parameters of their own, in a list and as a pattern, one of them twice. -/
def parametrized : List Filter :=
  [userIds .greater ":least", userIds .isIn "7, :other ,:least", userIds .like ":_1", userIds .isNull ":x"]

theorem parameters_agree_parametrized :
    Filter.parameterNames parametrized = ["least", "other", "_1"] ∧
      (∀ f ∈ parametrized, ∀ v ∈ f.candidates, ∀ rest, rest ≠ "" → v = ":" ++ rest →
        IsIdentifier rest) ∧
      ListsShown IsPlaceholder (parametrized.flatMap Filter.candidates) ["least", "other", "_1"] := by
  have hparameters : Filter.parameterNames parametrized = ["least", "other", "_1"] := by decide
  have hnames : ∀ f ∈ parametrized, ∀ v ∈ f.candidates, ∀ rest, rest ≠ "" → v = ":" ++ rest →
      IsIdentifier rest := by
    intro f hf v hv rest hne hrest
    have hcandidates : parametrized.flatMap Filter.candidates =
        [":least", "7", ":other", ":least", ":_1"] := by decide
    have hmem : v ∈ [":least", "7", ":other", ":least", ":_1"] :=
      hcandidates ▸ List.mem_flatMap.2 ⟨f, hf, hv⟩
    have hvalue : v.toList = ':' :: rest.toList := by
      rw [hrest, String.toList_append]
      rfl
    simp only [List.mem_cons, List.not_mem_nil, or_false] at hmem
    rcases hmem with rfl | rfl | rfl | rfl | rfl
    · exact isIdentifier_of_all (List.cons.inj hvalue).2.symm (by decide) (by decide)
    · exact absurd (List.cons.inj hvalue).1 (by decide)
    · exact isIdentifier_of_all (List.cons.inj hvalue).2.symm (by decide) (by decide)
    · exact isIdentifier_of_all (List.cons.inj hvalue).2.symm (by decide) (by decide)
    · exact isIdentifier_of_all (List.cons.inj hvalue).2.symm (by decide) (by decide)
  obtain ⟨-, -, -, -, hagree⟩ := Filter.parameters_agree parametrized fun _ => .number
  obtain ⟨-, hshown, -⟩ := hagree hnames
  exact ⟨hparameters, hnames, hparameters ▸ hshown⟩

/-- The value goes on behind the name: all of it is written, the name is reported. -/
theorem parameters_agree_continued :
    (userIds .equal ":p OR 1=1").sql .number = .ok "public.users.id = :p OR 1=1" ∧
      (userIds .equal ":p OR 1=1").operand .number ":p OR 1=1" = .parameter ":p OR 1=1" ∧
      Filter.parameterNames [userIds .equal ":p OR 1=1"] = ["p"] ∧
      ¬ ∃ name, IsPlaceholder ":p OR 1=1" name := by
  refine ⟨by decide, by decide, by decide, ?_⟩
  rintro ⟨name, ⟨c, cs, hname, -, hcs⟩, hvalue⟩
  have hchars : ":p OR 1=1".toList = ':' :: c :: cs := by
    rw [hvalue, String.toList_append, hname]
    rfl
  have hblank : ' ' ∈ cs := by
    rw [← (List.cons.inj (List.cons.inj hchars).2).2]
    decide
  exact absurd (hcs ' ' hblank) (by decide)

end Sample

end QueryDraft
