import Mathlib
import QueryDraft.Proofs.RoundTrip

/-!
# Fragments that can be applied

Entries of a fragment that are of no use are left out, whatever their values are, except where names
are expected: an entry that is no text ends the replay, and so does a section that cannot be gone
through. Nor is an entry left out that cannot be shown, since the log shows what is. Of each step it is
told which entries it may pass over (`PassesOver`), hence when a section is replayed to its end
(`replaySection_eq_ok_iff`). A fragment is applied if and only if its own sections are such and all
that a replay that cannot fail leaves out can be shown, and then the result is that of this replay
(`applyFragment_usable`).
-/

namespace QueryDraft

/-! ### Shapes of sections -/

namespace Json

/-- Nothing, or something to be gone through, each listed item of which has a property. A text is gone
through by its characters and an object by its keys, which are texts. -/
def IsListOf (p : Json → Prop) : Json → Prop
  | .arr vs => ∀ v ∈ vs, p v
  | .str _ | .tornStr _ | .obj _ | .tornObj _ => True
  | v => v.isNothing = true

/-- Nothing, or an object. -/
def IsObjectOrNothing : Json → Prop
  | .obj _ | .tornObj _ => True
  | v => v.isNothing = true

theorem isText_ofPoints (ps : List Text.Point) : (ofPoints ps).IsText := by
  unfold ofPoints
  cases Text.Point.text? ps <;> trivial

variable {p : Json → Prop} {v : Json}

theorem isObjectOrNothing_of_isNothing (h : v.isNothing = true) : v.IsObjectOrNothing := by
  cases v with
  | obj es => trivial
  | tornObj es => trivial
  | _ => exact h

theorem isListOf_iff (hp : ∀ v : Json, v.IsText → p v) : v.IsListOf p ↔
    v.isNothing = true ∨ ∃ vs, Argument.items v = .ok vs ∧ ∀ w ∈ vs, p w := by
  cases v with
  | arr vs =>
    simp only [IsListOf, isNothing, Argument.items, Except.ok.injEq, exists_eq_left', List.isEmpty_iff]
    constructor
    · exact .inr
    · rintro (rfl | h)
      · exact fun _ hv => absurd hv List.not_mem_nil
      · exact h
  | str s =>
    exact iff_of_true trivial (.inr ⟨_, rfl, List.forall_mem_map.2 fun _ _ => hp _ trivial⟩)
  | tornStr ps =>
    exact iff_of_true trivial (.inr ⟨_, rfl, List.forall_mem_map.2 fun _ _ => hp _ (isText_ofPoints _)⟩)
  | obj es =>
    exact iff_of_true trivial (.inr ⟨_, rfl, List.forall_mem_map.2 fun _ _ => hp _ trivial⟩)
  | tornObj es =>
    exact iff_of_true trivial (.inr ⟨_, rfl, List.forall_mem_map.2 fun _ _ => hp _ (isText_ofPoints _)⟩)
  | _ => simp [IsListOf, Argument.items]

end Json

namespace Draft

variable {catalog? : Option Catalog} {es fragment : List (String × Json)} {name : String}
  {d : Draft} {ids : IdSupply} {kind : EntryKind} {i : Nat} {r r' : Replay}

/-- A document's own section of some name, if there is one, has a property. -/
def AtSection (es : List (String × Json)) (name : String) (q : Json → Prop) : Prop :=
  ∀ v, Entries.last? es name = some v → q v

theorem sectionItems_usable_iff {p : Json → Prop} (hp : ∀ v : Json, v.IsText → p v) :
    (∃ vs, sectionItems es name = .ok vs ∧ ∀ v ∈ vs, p v) ↔ AtSection es name (Json.IsListOf p) := by
  unfold sectionItems AtSection
  cases Entries.last? es name with
  | none => simp
  | some v =>
    simp only [Option.some.injEq, forall_eq', Json.isListOf_iff hp]
    by_cases hnothing : v.isNothing = true
    · simp [hnothing]
    · simp [hnothing]

theorem sectionEntries_usable_iff :
    (∃ ps, sectionEntries es name = .ok ps ∧ ∀ e ∈ ps, e.1.IsText) ↔
      AtSection es name Json.IsObjectOrNothing := by
  unfold sectionEntries AtSection
  cases Entries.last? es name with
  | none => simp
  | some v =>
    simp only [Option.some.injEq, forall_eq']
    by_cases hnothing : v.isNothing = true
    · simp [hnothing, Json.isObjectOrNothing_of_isNothing]
    · simp only [hnothing, Bool.false_eq_true, if_false]
      cases v with
      | obj entries => exact iff_of_true ⟨_, rfl, List.forall_mem_map.2 fun _ _ => trivial⟩ trivial
      | tornObj entries =>
        exact iff_of_true ⟨_, rfl, List.forall_mem_map.2 fun _ _ => Json.isText_ofPoints _⟩ trivial
      | _ => exact iff_of_false (by rintro ⟨_, h, _⟩; cases h) hnothing

/-! ### Failures that let an entry be passed over -/

section passing

variable {α β : Type}

/-- The outcome is no failure that ends a replay. -/
def Passes (x : Except Failure α) : Prop := ∀ e, x = .error e → e.isDroppable = true

theorem Passes.ok (a : α) : Passes (.ok a) := by
  rintro e ⟨⟩

theorem Passes.error {e : Failure} (h : e.isDroppable = true) : Passes (.error e : Except Failure α) := by
  rintro _ ⟨⟩
  exact h

theorem Passes.bind {x : Except Failure α} {f : α → Except Failure β} (hx : Passes x)
    (hf : ∀ a, Passes (f a)) : Passes (x >>= f) := by
  cases x with
  | ok a => exact hf a
  | error e => exact .error (hx e rfl)

theorem Passes.orFail (x : Reading α) : Passes x.orFail := by
  cases x with
  | value a => exact .ok a
  | faults issues => exact .error rfl

theorem Passes.acceptOrFail (x : Except BadValue α) : Passes (acceptOrFail x) := by
  cases x with
  | ok a => exact .ok a
  | error why => exact .error rfl

theorem Passes.fault (x : Except Fault α) : Passes (x.mapError Failure.fault) := by
  cases x with
  | ok a => exact .ok a
  | error fault => exact .error rfl

theorem Passes.known {p : Prop} [Decidable p] {x : Except Failure α} (hx : Passes x) :
    Passes (if p then x else throw .notInCatalog) := by
  split_ifs
  · exact hx
  · exact .error rfl

end passing

section names

variable {v : Json}

theorem passes_table (h : v.IsText) : Passes (Argument.table v) := by
  cases v with
  | str s => exact .acceptOrFail _
  | tornStr ps => exact .error rfl
  | _ => cases h

theorem passes_column (h : v.IsText) : Passes (Argument.column v) := by
  cases v with
  | str s => exact .acceptOrFail _
  | tornStr ps => exact .error rfl
  | _ => cases h

theorem passes_knownColumn (h : v.IsText) : Passes (knownColumn catalog? v) :=
  (passes_column h).bind fun _ => .known (.ok _)

theorem passes_aggregate (v : Json) : Passes (Argument.aggregate v) := by
  unfold Argument.aggregate Argument.member
  simp only
  split
  · exact .ok _
  · exact .error rfl

end names

/-! ### Which entries a step passes over -/

section steps

variable {α : Type} {step : String → α → Draft → Except Failure Draft} {p : α → Prop}

/-- The step passes over the entries with a property, if it cannot use them, and over no others. -/
structure PassesOver (step : String → α → Draft → Except Failure Draft) (p : α → Prop) : Prop where
  passes : ∀ {v}, p v → ∀ fresh d, Passes (step fresh v d)
  ends : ∀ {v}, ¬ p v → ∀ fresh d, step fresh v d = .error .notAName

theorem PassesOver.of_passes (h : ∀ v fresh d, Passes (step fresh v d)) :
    PassesOver step fun _ => True :=
  ⟨fun _ => h _, fun hnot => absurd trivial hnot⟩

theorem passesOver_table : PassesOver (fun _ => replayTable catalog?) Json.IsText where
  passes h _ _ := (passes_table h).bind fun _ => .known (.ok _)
  ends h _ _ := by
    rw [replayTable, Argument.table_of_not_isText h]
    rfl

theorem passesOver_column : PassesOver (fun _ => replayColumn catalog?) Json.IsText where
  passes h _ _ := (passes_knownColumn h).bind fun _ => .ok _
  ends h _ _ := by
    rw [replayColumn, knownColumn_of_not_isText h]
    rfl

theorem passesOver_aggregation :
    PassesOver (fun _ => replayAggregation catalog?) fun e => e.1.IsText where
  passes h _ _ := (passes_knownColumn h).bind fun _ => (passes_aggregate _).bind fun _ => .ok _
  ends h _ _ := by
    rw [replayAggregation, knownColumn_of_not_isText h]
    rfl

theorem passesOver_groupBy : PassesOver (fun _ => replayGroupBy catalog?) Json.IsText where
  passes := by
    intro v h _ d
    refine (passes_knownColumn h).bind fun c => ?_
    split_ifs
    · exact .ok _
    · exact .fault _
  ends h _ _ := by
    rw [replayGroupBy, knownColumn_of_not_isText h]
    rfl

theorem passesOver_join : PassesOver (replayJoin catalog?) fun _ => True :=
  .of_passes fun _ _ _ => (Passes.orFail _).bind fun _ => .known (.fault _)

theorem passesOver_filter : PassesOver (replayFilter catalog?) fun _ => True :=
  .of_passes fun _ _ _ => (Passes.orFail _).bind fun _ => .known (.fault _)

theorem passesOver_sort : PassesOver (replaySort catalog?) fun _ => True :=
  .of_passes fun _ _ _ => (Passes.orFail _).bind fun _ => .known (.fault _)

theorem passesOver_formula : PassesOver replayFormula fun _ => True :=
  .of_passes fun _ _ _ => (Passes.orFail _).bind fun _ => .fault _

/-! ### Replays that cannot fail -/

/-- A replay together with what it left out. -/
structure Lenient extends Replay where
  leftOut : List Json := []

namespace Lenient

/-- All that was left out can be shown. -/
def IsShown (r : Lenient) : Prop := ∀ v ∈ r.leftOut, v.isShowable = true

def leaveOut (r : Lenient) (kind : EntryKind) (v : Json) : Lenient :=
  { r with dropped := r.dropped ++ [kind], leftOut := r.leftOut ++ [v] }

theorem isShown_leaveOut_iff {r : Lenient} {v : Json} :
    (r.leaveOut kind v).IsShown ↔ r.IsShown ∧ v.isShowable = true := by
  rw [IsShown, leaveOut, List.forall_mem_append, List.forall_mem_singleton]
  rfl

end Lenient

/-- Replays the entries of one kind in order and leaves out those that fail. -/
def replayLeniently (kind : EntryKind) (shown : α → Json)
    (step : String → α → Draft → Except Failure Draft) (ids : IdSupply) :
    (i : Nat) → List α → Lenient → Lenient
  | _, [], r => r
  | i, v :: vs, r =>
    match step (ids.branch i).id v r.draft with
    | .ok d => replayLeniently kind shown step ids (i + 1) vs { r with draft := d }
    | .error _ => replayLeniently kind shown step ids (i + 1) vs (r.leaveOut kind (shown v))

/-- A replay whose entries could be shown so far gets to its end if it meets only entries that it
passes over if need be, and if it can show those too. -/
theorem replayEach_eq_ok_iff_forall (h : PassesOver step p) {shown : α → Json} {vs : List α}
    {l : Lenient} : l.IsShown ∧ replayEach kind shown step ids i vs l.toReplay = .ok r' ↔
      (∀ v ∈ vs, p v) ∧ (replayLeniently kind shown step ids i vs l).IsShown ∧
        r' = (replayLeniently kind shown step ids i vs l).toReplay := by
  induction vs generalizing i l with
  | nil => simp [replayEach, replayLeniently, eq_comm]
  | cons v vs ih =>
    rw [replayEach_cons_eq_ok_iff, replayLeniently, List.forall_mem_cons]
    by_cases hv : p v
    · cases hstep : step (ids.branch i).id v l.draft with
      | ok d =>
        have hl : l.IsShown ↔ ({ l with draft := d } : Lenient).IsShown := Iff.rfl
        simp only [Except.ok.injEq, exists_eq_left', reduceCtorEq, false_and, exists_false, or_false,
          hv, true_and, hl]
        exact ih
      | error e =>
        have hdrop := h.passes hv _ _ e hstep
        have hrest := ih (i := i + 1) (l := l.leaveOut kind (shown v))
        rw [Lenient.isShown_leaveOut_iff, and_assoc] at hrest
        simp only [Except.error.injEq, exists_eq_left', reduceCtorEq, false_and, exists_false,
          false_or, hdrop, hv, true_and]
        exact hrest
    · simp [h.ends hv, Failure.isDroppable, hv]

/-- The same of entries that have to be found first; where there are none to be found the lenient
replay goes through none. -/
theorem replayFound_eq_ok_iff (h : PassesOver step p) {shown : α → Json}
    {found : Except Failure (List α)} {l : Lenient} :
    (l.IsShown ∧ ∃ vs, found = .ok vs ∧ replayEach kind shown step ids i vs l.toReplay = .ok r') ↔
      (∃ vs, found = .ok vs ∧ ∀ v ∈ vs, p v) ∧
        (replayLeniently kind shown step ids i (found.toOption.getD []) l).IsShown ∧
        r' = (replayLeniently kind shown step ids i (found.toOption.getD []) l).toReplay := by
  constructor
  · rintro ⟨hl, vs, rfl, hrun⟩
    obtain ⟨hall, hend⟩ := (replayEach_eq_ok_iff_forall h).1 ⟨hl, hrun⟩
    exact ⟨⟨vs, rfl, hall⟩, hend⟩
  · rintro ⟨⟨vs, rfl, hall⟩, hend⟩
    obtain ⟨hl, hrun⟩ := (replayEach_eq_ok_iff_forall h).2 ⟨hall, hend⟩
    exact ⟨hl, vs, rfl, hrun⟩

end steps

section sections

variable {step : String → Json → Draft → Except Failure Draft} {p : Json → Prop} {l : Lenient}

/-- A section that cannot be gone through counts as one without entries. -/
def replaySectionLeniently (es : List (String × Json)) (name : String) (kind : EntryKind)
    (ids : IdSupply) (step : String → Json → Draft → Except Failure Draft) (l : Lenient) : Lenient :=
  replayLeniently kind id step ids 0 ((sectionItems es name).toOption.getD []) l

theorem replaySection_eq_ok_iff (h : PassesOver step p) (hp : ∀ v : Json, v.IsText → p v) :
    l.IsShown ∧ replaySection es name kind ids step l.toReplay = .ok r' ↔
      AtSection es name (Json.IsListOf p) ∧
        (replaySectionLeniently es name kind ids step l).IsShown ∧
        r' = (replaySectionLeniently es name kind ids step l).toReplay := by
  rw [← sectionItems_usable_iff hp, replaySection, bind_eq_ok_iff]
  exact replayFound_eq_ok_iff h

/-- The aggregates, likewise; those that are left out are shown by their columns. -/
def replayAggregationsLeniently (catalog? : Option Catalog) (es : List (String × Json))
    (ids : IdSupply) (l : Lenient) : Lenient :=
  replayLeniently .aggregation Prod.fst (fun _ => replayAggregation catalog?) ids 0
    ((sectionEntries es "aggregations").toOption.getD []) l

theorem replayAggregations_eq_ok_iff :
    (l.IsShown ∧ ∃ ps, sectionEntries es "aggregations" = .ok ps ∧
      replayEach .aggregation Prod.fst (fun _ => replayAggregation catalog?) ids 0 ps l.toReplay =
        .ok r') ↔
    AtSection es "aggregations" Json.IsObjectOrNothing ∧
      (replayAggregationsLeniently catalog? es ids l).IsShown ∧
      r' = (replayAggregationsLeniently catalog? es ids l).toReplay := by
  rw [← sectionEntries_usable_iff]
  exact replayFound_eq_ok_iff passesOver_aggregation

end sections

/-! ### Whole fragments -/

/-- The sections of a document are nothing or can be gone through, those of names hold nothing but
texts, and that of aggregates is nothing or an object. -/
structure IsUsable (es : List (String × Json)) : Prop where
  names : ∀ name ∈ ["selectedTables", "selectedColumns", "groupBy"],
    AtSection es name (Json.IsListOf Json.IsText)
  records : ∀ name ∈ ["joins", "filters", "orderBy", "calculatedColumns"],
    AtSection es name (Json.IsListOf fun _ => True)
  aggregations : AtSection es "aggregations" Json.IsObjectOrNothing

theorem atSection_of_last? {q : Json → Prop} {v : Json} (h : Entries.last? es name = some v)
    (hv : q v) : AtSection es name q := by
  intro w hw
  cases h.symm.trans hw
  exact hv

theorem isListOf_texts {α : Type} (f : α → String) (xs : List α) :
    (Json.texts (xs.map f)).IsListOf Json.IsText := by
  intro v hv
  obtain ⟨s, _, rfl⟩ := List.mem_map.1 hv
  trivial

theorem isListOf_records {α : Type} (f : α → Json) (xs : List α) :
    (Json.arr (xs.map f)).IsListOf fun _ => True :=
  fun _ _ => trivial

/-- The document of a draft is usable. -/
theorem isUsable_entries (d : Draft) : IsUsable d.entries where
  names := by
    simp only [List.forall_mem_cons]
    exact ⟨atSection_of_last? rfl (isListOf_texts TableId.text d.tables),
      atSection_of_last? rfl (isListOf_texts ColumnId.text d.columns),
      atSection_of_last? rfl (isListOf_texts ColumnId.text d.groupBy), List.forall_mem_nil _⟩
  records := by
    simp only [List.forall_mem_cons]
    exact ⟨atSection_of_last? rfl (isListOf_records Join.document d.joins),
      atSection_of_last? rfl (isListOf_records Filter.document d.filters),
      atSection_of_last? rfl (isListOf_records SortKey.document d.orderBy),
      atSection_of_last? rfl (isListOf_records Formula.document d.formulas), List.forall_mem_nil _⟩
  aggregations := atSection_of_last? (v := .obj d.aggregationEntries) rfl trivial

theorem atSection_putAll_iff {q : Json → Prop} (h : AtSection d.entries name q) :
    AtSection (Entries.putAll d.entries fragment) name q ↔ AtSection fragment name q := by
  unfold AtSection
  rw [Entries.last?_putAll d.nodup_entries]
  cases Entries.last? fragment name with
  | some v => rfl
  | none => exact iff_of_true h (fun v hv => by cases hv)

/-- Merged over the document of a draft, a fragment is usable if its own sections are. -/
theorem isUsable_putAll_iff : IsUsable (Entries.putAll d.entries fragment) ↔ IsUsable fragment := by
  have hd := d.isUsable_entries
  constructor
  · intro h
    exact {
      names := fun name hname => (atSection_putAll_iff (hd.names name hname)).1 (h.names name hname)
      records := fun name hname =>
        (atSection_putAll_iff (hd.records name hname)).1 (h.records name hname)
      aggregations := (atSection_putAll_iff hd.aggregations).1 h.aggregations }
  · intro h
    exact {
      names := fun name hname => (atSection_putAll_iff (hd.names name hname)).2 (h.names name hname)
      records := fun name hname =>
        (atSection_putAll_iff (hd.records name hname)).2 (h.records name hname)
      aggregations := (atSection_putAll_iff hd.aggregations).2 h.aggregations }

/-- Merges a fragment into a draft and leaves out each entry that fails. -/
def applyLeniently (d : Draft) (fragment : List (String × Json)) (catalog? : Option Catalog)
    (ids : IdSupply) : Lenient :=
  let es := Entries.putAll d.entries fragment
  let l : Lenient := { draft := blank d.limit }
  let l := replaySectionLeniently es "selectedTables" .table ids (fun _ => replayTable catalog?) l
  let l := replaySectionLeniently es "selectedColumns" .column ids (fun _ => replayColumn catalog?) l
  let l := replayAggregationsLeniently catalog? es ids l
  let l := replaySectionLeniently es "joins" .join (ids.branch 0) (replayJoin catalog?) l
  let l := replaySectionLeniently es "filters" .filter (ids.branch 1) (replayFilter catalog?) l
  let l := replaySectionLeniently es "groupBy" .groupBy ids (fun _ => replayGroupBy catalog?) l
  let l := replaySectionLeniently es "orderBy" .orderBy (ids.branch 2) (replaySort catalog?) l
  let l := replaySectionLeniently es "calculatedColumns" .formula (ids.branch 3) replayFormula l
  { l with draft := (sectionLimit? es).elim l.draft l.draft.setLimit }

theorem toReplay_limited (l : Lenient) (limit? : Option Int) :
    ({ l with draft := limit?.elim l.draft l.draft.setLimit } : Lenient).toReplay =
      match limit? with
      | some n => { l.toReplay with draft := l.draft.setLimit n }
      | none => l.toReplay := by
  cases limit? <;> rfl

/-- A fragment is applied if and only if its own sections are usable, whatever else it has, and every
entry that fails can be shown, which is to say that no number in it is too long. Then every entry that
fails is left out. -/
theorem applyFragment_usable (d : Draft) (fragment : List (String × Json))
    (catalog? : Option Catalog) (ids : IdSupply) (r : Replay) :
    d.applyFragment fragment catalog? ids = .ok r ↔
      IsUsable fragment ∧
      (∀ v ∈ (d.applyLeniently fragment catalog? ids).leftOut, v.isShowable = true) ∧
      r = (d.applyLeniently fragment catalog? ids).toReplay := by
  have htext : ∀ v : Json, v.IsText → v.IsText := fun _ h => h
  have hany : ∀ v : Json, v.IsText → True := fun _ _ => trivial
  have hnone : ({ draft := blank d.limit } : Lenient).IsShown := List.forall_mem_nil _
  rw [← isUsable_putAll_iff (d := d)]
  simp only [applyFragment, bind_eq_ok_iff, pure_eq_ok_iff, applyLeniently, toReplay_limited]
  -- each section tells what it needs of the document, and its result is that of the lenient replay
  constructor
  · rintro ⟨r₁, h₁, r₂, h₂, ps, hps, r₃, h₃, r₄, h₄, r₅, h₅, r₆, h₆, r₇, h₇, r₈, h₈, hr⟩
    obtain ⟨u₁, s₁, rfl⟩ := (replaySection_eq_ok_iff passesOver_table htext).1 ⟨hnone, h₁⟩
    obtain ⟨u₂, s₂, rfl⟩ := (replaySection_eq_ok_iff passesOver_column htext).1 ⟨s₁, h₂⟩
    obtain ⟨u₃, s₃, rfl⟩ := replayAggregations_eq_ok_iff.1 ⟨s₂, ps, hps, h₃⟩
    obtain ⟨u₄, s₄, rfl⟩ := (replaySection_eq_ok_iff passesOver_join hany).1 ⟨s₃, h₄⟩
    obtain ⟨u₅, s₅, rfl⟩ := (replaySection_eq_ok_iff passesOver_filter hany).1 ⟨s₄, h₅⟩
    obtain ⟨u₆, s₆, rfl⟩ := (replaySection_eq_ok_iff passesOver_groupBy htext).1 ⟨s₅, h₆⟩
    obtain ⟨u₇, s₇, rfl⟩ := (replaySection_eq_ok_iff passesOver_sort hany).1 ⟨s₆, h₇⟩
    obtain ⟨u₈, s₈, rfl⟩ := (replaySection_eq_ok_iff passesOver_formula hany).1 ⟨s₇, h₈⟩
    refine ⟨⟨?_, ?_, u₃⟩, s₈, hr⟩
    · simpa only [List.forall_mem_cons] using ⟨u₁, u₂, u₆, List.forall_mem_nil _⟩
    · simpa only [List.forall_mem_cons] using ⟨u₄, u₅, u₇, u₈, List.forall_mem_nil _⟩
  · rintro ⟨hu, s₈, hr⟩
    obtain ⟨s₇, h₈⟩ :=
      (replaySection_eq_ok_iff passesOver_formula hany).2 ⟨hu.records _ (by simp), s₈, rfl⟩
    obtain ⟨s₆, h₇⟩ :=
      (replaySection_eq_ok_iff passesOver_sort hany).2 ⟨hu.records _ (by simp), s₇, rfl⟩
    obtain ⟨s₅, h₆⟩ :=
      (replaySection_eq_ok_iff passesOver_groupBy htext).2 ⟨hu.names _ (by simp), s₆, rfl⟩
    obtain ⟨s₄, h₅⟩ :=
      (replaySection_eq_ok_iff passesOver_filter hany).2 ⟨hu.records _ (by simp), s₅, rfl⟩
    obtain ⟨s₃, h₄⟩ :=
      (replaySection_eq_ok_iff passesOver_join hany).2 ⟨hu.records _ (by simp), s₄, rfl⟩
    obtain ⟨s₂, ps, hps, h₃⟩ := replayAggregations_eq_ok_iff.2 ⟨hu.aggregations, s₃, rfl⟩
    obtain ⟨s₁, h₂⟩ :=
      (replaySection_eq_ok_iff passesOver_column htext).2 ⟨hu.names _ (by simp), s₂, rfl⟩
    obtain ⟨-, h₁⟩ :=
      (replaySection_eq_ok_iff passesOver_table htext).2 ⟨hu.names _ (by simp), s₁, rfl⟩
    exact ⟨_, h₁, _, h₂, ps, hps, _, h₃, _, h₄, _, h₅, _, h₆, _, h₇, _, h₈, hr⟩

end Draft

namespace Sample

/-- A number where the name of a table is expected ends the replay. -/
theorem applyFragment_number :
    (Draft.blank 100).applyFragment [("selectedTables", .arr [.int 5])] none newIds =
      .error .notAName := by rfl

end Sample

end QueryDraft
