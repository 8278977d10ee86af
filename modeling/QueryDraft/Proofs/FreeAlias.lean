import Mathlib
import QueryDraft.Proofs.SelectList

/-!
# Names that are not in use

The search for a free name, as a relation without a bound (`Search`), ends whatever names are in use:
the numbered names are all different, so one more of them than there are names in use cannot all be
in use. What it ends with is the name that an aggregate gets (`isAliasFor_freeAlias`), and of names
that are given one after the other none was reserved or given before (`freeAliases_concat`). Hence the
names that a query introduces are all different (`freeAliases_distinct`).
-/

namespace QueryDraft

namespace Sql

variable {used used' : List String} {name found : String} {c : ColumnId} {a : Aggregate} {n : Nat}

/-! ### Numbered names -/

theorem numbered_of_pos (name : String) (h : 0 < n) : numbered name n = name ++ "_" ++ toString n := by
  cases n with
  | zero => exact absurd h (Nat.lt_irrefl 0)
  | succ n => rfl

theorem numbered_injective (name : String) : Function.Injective (numbered name) := by
  have hlonger : ∀ n, name ≠ name ++ "_" ++ toString (n + 1) := by
    intro n h
    have hlength := congrArg String.length h
    have hone : "_".length = 1 := rfl
    simp only [String.length_append] at hlength
    omega
  intro m n h
  cases m with
  | zero =>
    cases n with
    | zero => rfl
    | succ n => exact absurd h (hlonger n)
  | succ m =>
    cases n with
    | zero => exact absurd h.symm (hlonger m)
    | succ n =>
      refine Nat.repr_injective (String.toList_inj.1 ?_)
      have hlist := congrArg String.toList h
      simpa [numbered] using hlist

/-- Some numbered name is free, and its number is at most that of the names in use. -/
theorem exists_numbered_not_mem (used : List String) (name : String) :
    ∃ n ≤ used.length, numbered name n ∉ used := by
  by_contra! h
  have hsubset : (List.range (used.length + 1)).map (numbered name) ⊆ used := by
    intro s hs
    obtain ⟨n, hn, rfl⟩ := List.mem_map.1 hs
    exact h n (Nat.le_of_lt_succ (List.mem_range.1 hn))
  have hnodup : ((List.range (used.length + 1)).map (numbered name)).Nodup :=
    List.nodup_range.map (numbered_injective name)
  have hle := (List.subperm_of_subset hnodup hsubset).length_le
  rw [List.length_map, List.length_range] at hle
  omega

/-! ### The search -/

/-- Numbered names are tried from `n` on, until one is found that is free. -/
inductive Search (used : List String) (name : String) : (n : Nat) → (found : String) → Prop
  | free {n : Nat} (h : numbered name n ∉ used) : Search used name n (numbered name n)
  | taken {n : Nat} {found : String} (h : numbered name n ∈ used)
    (rest : Search used name (n + 1) found) : Search used name n found

theorem search_of_least {m : Nat} (hfree : numbered name n ∉ used)
    (hleast : ∀ k, m ≤ k → k < n → numbered name k ∈ used) (hle : m ≤ n) :
    Search used name m (numbered name n) := by
  -- towards the start: the search from the found name ends at once, and each name before is taken
  induction hle using Nat.decreasingInduction with
  | self => exact .free hfree
  | of_succ k hk ih =>
    exact .taken (hleast k le_rfl hk) (ih fun i hi hin => hleast i (Nat.le_of_succ_le hi) hin)

/-- The first free name is that of the least number that makes it free. -/
theorem exists_firstFree (used : List String) (name : String) :
    ∃ n, firstFree used name = numbered name n ∧ numbered name n ∉ used ∧
      ∀ m < n, numbered name m ∈ used := by
  obtain ⟨k, hk, hfree⟩ := exists_numbered_not_mem used name
  obtain ⟨n, hn⟩ : ∃ n, (List.range (used.length + 1)).find? (numbered name · ∉ used) = some n := by
    refine Option.isSome_iff_exists.1 (List.find?_isSome.2 ⟨k, ?_, by simpa using hfree⟩)
    exact List.mem_range.2 (Nat.lt_succ_of_le hk)
  refine ⟨n, by rw [firstFree, hn]; rfl, ?_⟩
  simpa using (List.find?_range_eq_some.1 hn).imp_right And.right

/-! ### The name of an aggregate -/

/-- The name of an aggregate with its table before it. -/
def tableAlias (c : ColumnId) (a : Aggregate) : String := c.table.table ++ "_" ++ plainAlias c a

/-- The name that an aggregate gets where others are in use: its own if it is free, else with the table
before it, else with the least number behind that. The search for it ends with this name. -/
structure IsAliasFor (used : List String) (c : ColumnId) (a : Aggregate) (name : String) : Prop where
  free : name ∉ used
  plain : plainAlias c a ∉ used → name = plainAlias c a
  searched : plainAlias c a ∈ used → Search used (tableAlias c a) 0 name
  table : plainAlias c a ∈ used → tableAlias c a ∉ used → name = tableAlias c a
  numbered : plainAlias c a ∈ used → tableAlias c a ∈ used → ∃ n, 0 < n ∧
    name = tableAlias c a ++ "_" ++ toString n ∧
    ∀ m, 0 < m → m < n → tableAlias c a ++ "_" ++ toString m ∈ used

theorem isAliasFor_freeAlias (used : List String) (c : ColumnId) (a : Aggregate) :
    IsAliasFor used c a (freeAlias used c a) := by
  have hfreeAlias : freeAlias used c a =
      if plainAlias c a ∈ used then firstFree used (tableAlias c a) else plainAlias c a := rfl
  rw [hfreeAlias]
  split_ifs with hplain
  · obtain ⟨n, hn, hfree, hleast⟩ := exists_firstFree used (tableAlias c a)
    rw [hn]
    constructor
    case free => exact hfree
    case plain => exact fun hnot => absurd hplain hnot
    case searched =>
      exact fun _ => search_of_least hfree (fun k _ hk => hleast k hk) (Nat.zero_le n)
    case table =>
      intro _ htable
      cases n with
      | zero => rfl
      | succ n => exact absurd (hleast 0 n.succ_pos) htable
    case numbered =>
      intro _ htable
      have hpos : 0 < n := by
        rw [Nat.pos_iff_ne_zero]
        rintro rfl
        exact hfree htable
      refine ⟨n, hpos, numbered_of_pos _ hpos, fun m hm hmn => ?_⟩
      rw [← numbered_of_pos _ hm]
      exact hleast m hmn
  · exact ⟨hplain, fun _ => rfl, fun h => absurd h hplain, fun h => absurd h hplain,
      fun h => absurd h hplain⟩

theorem Search.congr (h : ∀ s, s ∈ used ↔ s ∈ used') (hsearch : Search used name n found) :
    Search used' name n found := by
  induction hsearch with
  | free hfree => exact .free (mt (h _).2 hfree)
  | taken htaken _ ih => exact .taken ((h _).1 htaken) ih

/-- Only which names are in use matters. -/
theorem IsAliasFor.congr (h : ∀ s, s ∈ used ↔ s ∈ used') (halias : IsAliasFor used c a name) :
    IsAliasFor used' c a name where
  free := mt (h _).2 halias.free
  plain := fun hplain => halias.plain (mt (h _).1 hplain)
  searched := fun hplain => (halias.searched ((h _).2 hplain)).congr h
  table := fun hplain htable => halias.table ((h _).2 hplain) (mt (h _).1 htable)
  numbered := by
    intro hplain htable
    obtain ⟨n, hpos, hname, hleast⟩ := halias.numbered ((h _).2 hplain) ((h _).2 htable)
    exact ⟨n, hpos, hname, fun m hm hmn => (h _).1 (hleast m hm hmn)⟩

/-! ### One name after the other -/

variable {calls before after : List (ColumnId × Aggregate)}

theorem freeAliases_append (used : List String) (before after : List (ColumnId × Aggregate)) :
    freeAliases used (before ++ after) = freeAliases used before ++
      freeAliases ((freeAliases used before).reverse ++ used) after := by
  induction before generalizing used with
  | nil => rfl
  | cons call before ih =>
    simp only [List.cons_append, freeAliases, ih, List.reverse_cons, List.append_assoc,
      List.nil_append]

/-- Whatever names were given before, the next aggregate gets one that is neither reserved nor among
them. -/
theorem freeAliases_concat (reserved : List String) (before : List (ColumnId × Aggregate))
    (c : ColumnId) (a : Aggregate) :
    ∃ name, freeAliases reserved (before ++ [(c, a)]) = freeAliases reserved before ++ [name] ∧
      IsAliasFor (reserved ++ freeAliases reserved before) c a name := by
  refine ⟨_, freeAliases_append reserved before [(c, a)], (isAliasFor_freeAlias _ c a).congr ?_⟩
  simp [or_comm]

/-- No name that was in use is given. -/
theorem not_mem_freeAliases (hname : name ∈ used) : name ∉ freeAliases used calls := by
  induction calls generalizing used with
  | nil => exact List.not_mem_nil
  | cons call calls ih =>
    have hfree := (isAliasFor_freeAlias used call.1 call.2).free
    exact List.not_mem_cons_of_ne_of_not_mem (ne_of_mem_of_not_mem hname hfree)
      (ih (List.mem_cons_of_mem _ hname))

theorem nodup_freeAliases (used : List String) (calls : List (ColumnId × Aggregate)) :
    (freeAliases used calls).Nodup := by
  induction calls generalizing used with
  | nil => exact .nil
  | cons call calls ih => exact List.nodup_cons.2 ⟨not_mem_freeAliases (List.mem_cons_self ..), ih _⟩

end Sql

/-! ### The names of a query -/

namespace Draft

open Sql

variable {catalog : Catalog} {d : Draft} {items : List SelectItem}

theorem filterMap_name?_columnItems (used : List String) (cs : List ColumnId) :
    ∃ calls, (d.columnItems used cs).filterMap SelectItem.name? = freeAliases used calls := by
  induction cs generalizing used with
  | nil => exact ⟨[], rfl⟩
  | cons c cs ih =>
    unfold columnItems
    by_cases h : d.aggregate c = .none
    · simpa only [h, if_true, List.filterMap_cons, SelectItem.name?] using ih used
    · obtain ⟨calls, hcalls⟩ := ih (freeAlias used c (d.aggregate c) :: used)
      refine ⟨(c, d.aggregate c) :: calls, ?_⟩
      simp only [h, if_false, List.filterMap_cons, SelectItem.name?, hcalls, freeAliases]

theorem filterMap_name?_formulas (fs : List Formula) :
    (fs.map fun f => SelectItem.formula f.expression f.name).filterMap SelectItem.name? =
      fs.map Formula.name := by
  rw [List.filterMap_map]
  exact congrFun List.filterMap_eq_map fs

theorem nodup_names (haliases : (d.formulas.map Formula.name).Nodup)
    (h : d.selectItems catalog = .ok items) : (items.filterMap SelectItem.name?).Nodup := by
  rcases selectItems_eq_ok_iff.1 h with ⟨_, rfl⟩ | ⟨_, _, rfl⟩
  · simp [List.filterMap_map, Function.comp_def, SelectItem.name?]
  · obtain ⟨calls, hcalls⟩ :=
      d.filterMap_name?_columnItems (d.formulas.map Formula.name) (d.resultColumns catalog)
    rw [List.filterMap_append, hcalls, filterMap_name?_formulas, List.nodup_append]
    refine ⟨nodup_freeAliases _ calls, haliases, ?_⟩
    rintro name hgiven _ hreserved rfl
    exact not_mem_freeAliases hreserved hgiven

/-- Every aggregate gets the name that it should have among those that are reserved or were given
before, and the search for it ends. So the names that a query introduces are all different. -/
theorem freeAliases_distinct :
    (∀ reserved before c a, ∃ name,
      freeAliases reserved (before ++ [(c, a)]) = freeAliases reserved before ++ [name] ∧
      IsAliasFor (reserved ++ freeAliases reserved before) c a name) ∧
    ∀ (catalog : Catalog) (d : Draft) (compiled : Compiled), d.compile catalog = .ok compiled →
      ∃ items, d.selectItems catalog = .ok items ∧
        (∃ clauses, compiled.sql = assemble (selectClause (items.map SelectItem.sql) :: clauses)) ∧
        (items.filterMap SelectItem.name?).Nodup := by
  refine ⟨freeAliases_concat, fun catalog d compiled h => ?_⟩
  obtain ⟨_, _, haliases, items, hitems, hsql⟩ := exists_items_of_compile h
  exact ⟨items, hitems, hsql, nodup_names (checkAliases_eq_ok_iff.1 haliases).2 hitems⟩

end Draft

namespace Sample

open Sql

/-- What a sum of the refunds would be called by itself, and with its table. -/
def reservedNames : List String := ["amount_usd_sum", "refunds_amount_usd_sum"]

def refundSum : ColumnId × Aggregate := (refunds.column "amount_usd", .sum)

theorem freeAliases_refundSum :
    freeAliases reservedNames [refundSum, refundSum] =
      ["refunds_amount_usd_sum_1", "refunds_amount_usd_sum_2"] := by rfl

theorem freeAliases_distinct_totals :
    (∃ compiled, totals.compile .multiSchema = .ok compiled) ∧
      (totalItems.filterMap SelectItem.name?).Nodup ∧
      IsAliasFor (reservedNames ++ ["refunds_amount_usd_sum_1"]) refundSum.1 refundSum.2
        "refunds_amount_usd_sum_2" := by
  obtain ⟨hcalls, hnames⟩ := Draft.freeAliases_distinct
  obtain ⟨compiled, hcompiled⟩ := exists_compile_totals
  obtain ⟨items, hitems, _, hnodup⟩ := hnames _ _ _ hcompiled
  rw [selectItems_totals] at hitems
  cases hitems
  refine ⟨⟨compiled, hcompiled⟩, hnodup, ?_⟩
  obtain ⟨name, hname, halias⟩ := hcalls reservedNames [refundSum] refundSum.1 refundSum.2
  have hsecond : ["refunds_amount_usd_sum_1", "refunds_amount_usd_sum_2"] =
      ["refunds_amount_usd_sum_1", name] := freeAliases_refundSum.symm.trans hname
  rw [(List.cons.inj (List.cons.inj hsecond).2).1]
  exact halias

end Sample

end QueryDraft
