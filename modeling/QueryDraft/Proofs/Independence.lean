import Mathlib
import QueryDraft.Proofs.Outcome

/-!
# What a query depends on

`Draft.outcome` is what there is to see of a compilation: the document of the query, or the kind of
the fault with the table and column that it is about. Of a catalog it takes the selected tables only
(`outcome_of_agree`): the references are looked up in selected tables, and once all of them are in
order so is every column whose type counts. Of the ids of joins, filters, sort keys and formulas it
takes nothing (`outcome_anonymous`): without them every step of the grouping is the same but for the
joins that are noted, and their ids are not told. Both together are `outcome_congr`.
-/

namespace QueryDraft

open Sql

/-- What is told about a fault beside its message. -/
def Fault.about (f : Fault) : String × Option TableId × Option ColumnId := (f.kind, f.table?, f.column?)

/-- What is seen of a compilation. -/
def Draft.outcome (catalog : Catalog) (d : Draft) :
    Except (String × Option TableId × Option ColumnId) Json :=
  ((d.compile catalog).mapError Fault.about).map Compiled.document

/-! ### Ids left out -/

def Join.anonymous (j : Join) : Join := { j with id := "" }

def Filter.anonymous (f : Filter) : Filter := { f with id := "" }

def SortKey.anonymous (s : SortKey) : SortKey := { s with id := "" }

def Formula.anonymous (f : Formula) : Formula := { f with id := "" }

/-- The draft without the ids of its entries. -/
def Draft.anonymous (d : Draft) : Draft :=
  { d with
    joins := d.joins.map Join.anonymous
    filters := d.filters.map Filter.anonymous
    orderBy := d.orderBy.map SortKey.anonymous
    formulas := d.formulas.map Formula.anonymous }

namespace Sql

def Disagreement.anonymous (d : Disagreement) : Disagreement := { d with join := d.join.anonymous }

def Group.anonymous (g : Group) : Group :=
  { g with disagreements := g.disagreements.map Disagreement.anonymous }

/-! ### Groups of joins without ids -/

namespace Group

theorem fold_anonymous (g : Group) (j : Join) :
    g.anonymous.fold j.anonymous = (g.fold j).anonymous := by
  have hmentions : (fun c : Clause => j.anonymous.mentions c.table) = fun c => j.mentions c.table := rfl
  have hclauses : g.anonymous.clauses = g.clauses := rfl
  unfold fold
  rw [hmentions, hclauses]
  cases splitLast (fun c : Clause => j.mentions c.table) g.clauses with
  | none => rfl
  | some split =>
    obtain ⟨before, c, after⟩ := split
    have hkind : kindFor j.anonymous c.table = kindFor j c.table := rfl
    simp only [hkind, anonymous]
    split_ifs with h
    · rfl
    · rw [List.map_append]
      rfl

theorem attach?_anonymous (g : Group) (j : Join) :
    g.anonymous.attach? j.anonymous = (g.attach? j).map anonymous := by
  have htables : g.anonymous.tables = g.tables := rfl
  have hsource : j.anonymous.source = j.source := rfl
  have htarget : j.anonymous.target = j.target := rfl
  unfold attach?
  rw [htables, hsource, htarget]
  split_ifs with hs ht ht
  · rw [fold_anonymous, Option.map_some]
  · rfl
  · rfl
  · rfl

/-- A group with the joins that wait for it, ids left out. -/
def Stage.anonymous (s : Group × List Join) : Group × List Join :=
  (s.1.anonymous, s.2.map Join.anonymous)

theorem sweep_anonymous (g : Group) (js : List Join) :
    sweep g.anonymous (js.map Join.anonymous) = Stage.anonymous (sweep g js) := by
  induction js generalizing g with
  | nil => rfl
  | cons j js ih =>
    rw [List.map_cons, sweep, sweep, attach?_anonymous]
    cases g.attach? j with
    | some g' => exact ih g'
    | none =>
      rw [Option.map_none]
      simp only [ih g]
      rfl

theorem grow_anonymous (g : Group) (js : List Join) :
    grow g.anonymous (js.map Join.anonymous) = Stage.anonymous (grow g js) := by
  fun_induction grow g js with
  | case1 g js swept hlt ih =>
    have hlength : (Stage.anonymous swept).2.length < (js.map Join.anonymous).length := by
      rw [Stage.anonymous, List.length_map, List.length_map]
      exact hlt
    rw [grow, sweep_anonymous, if_pos hlength]
    exact ih
  | case2 g js swept hlt =>
    have hlength : ¬ (Stage.anonymous swept).2.length < (js.map Join.anonymous).length := by
      rw [Stage.anonymous, List.length_map, List.length_map]
      exact hlt
    rw [grow, sweep_anonymous, if_neg hlength]

theorem spread_anonymous (g : Group) (js : List Join) :
    spread g.anonymous (js.map Join.anonymous) = (spread g js).map anonymous := by
  fun_induction spread g js with
  | case1 g js grown hgrow =>
    have hgrow' := grow_anonymous g js
    rw [hgrow] at hgrow'
    exact spread_of_grow_nil hgrow'
  | case2 g js grown j left hgrow ih =>
    have hgrow' := grow_anonymous g js
    rw [hgrow] at hgrow'
    rw [spread_of_grow_cons hgrow', List.map_cons, ← ih]
    rfl

end Group

theorem addLoners_anonymous (gs : List Group) (ts : List TableId) :
    addLoners (gs.map Group.anonymous) ts = (addLoners gs ts).map Group.anonymous := by
  induction ts generalizing gs with
  | nil => rfl
  | cons t ts ih =>
    have hany : (gs.map Group.anonymous).any (t ∈ ·.tables) = gs.any (t ∈ ·.tables) := by
      rw [List.any_map]
      rfl
    rw [addLoners_cons, addLoners_cons, hany]
    split_ifs with h
    · exact ih gs
    · rw [← ih, List.map_append]
      rfl

theorem groups_anonymous (base : TableId) (ts : List TableId) (js : List Join) :
    groups base ts (js.map Join.anonymous) = (groups base ts js).map Group.anonymous := by
  rw [groups, groups, ← addLoners_anonymous, ← Group.spread_anonymous]
  rfl

/-- The messages do not tell the ids of joins. -/
theorem messages_anonymous (base : TableId) (gs : List Group) :
    (warnings base (gs.map Group.anonymous)).map Warning.message =
      (warnings base gs).map Warning.message := by
  have hnoted (g : Group) : (g.anonymous.disagreements.map Warning.disagreement).map Warning.message =
      (g.disagreements.map Warning.disagreement).map Warning.message := by
    simp only [Group.anonymous, List.map_map]
    rfl
  have hcrossed : (gs.map Group.anonymous).tail.map (Warning.crossed ·.tables base) =
      gs.tail.map (Warning.crossed ·.tables base) := by
    rw [← List.map_tail, List.map_map]
    rfl
  unfold warnings
  rw [List.map_append, List.map_append, hcrossed, List.flatMap_map, List.map_flatMap,
    List.map_flatMap]
  simp only [hnoted]

end Sql

namespace Draft

variable {catalog catalog' : Catalog} {d e : Draft} {base : TableId}

/-! ### Drafts without ids -/

theorem joinFaults_anonymous (catalog : Catalog) (d : Draft) (j : Join) :
    (d.anonymous.joinFaults catalog j.anonymous).map (Fault.about ∘ .reference) =
      (d.joinFaults catalog j).map (Fault.about ∘ .reference) := by
  have hcolumn : d.anonymous.columnFaults catalog = d.columnFaults catalog := rfl
  have hsource : j.anonymous.source = j.source := rfl
  have htarget : j.anonymous.target = j.target := rfl
  unfold joinFaults
  rw [hcolumn, hsource, htarget]
  split_ifs with h
  · rfl
  · rfl

theorem referenceFaults_anonymous (catalog : Catalog) (d : Draft) :
    (d.anonymous.referenceFaults catalog).map (Fault.about ∘ .reference) =
      (d.referenceFaults catalog).map (Fault.about ∘ .reference) := by
  have hfilters : d.anonymous.filters.flatMap (d.columnFaults catalog .filter ·.column) =
      d.filters.flatMap (d.columnFaults catalog .filter ·.column) := List.flatMap_map ..
  have horderBy : d.anonymous.orderBy.flatMap (d.columnFaults catalog .sorting ·.column) =
      d.orderBy.flatMap (d.columnFaults catalog .sorting ·.column) := List.flatMap_map ..
  have hjoins : (d.anonymous.joins.flatMap (d.anonymous.joinFaults catalog)).map
      (Fault.about ∘ .reference) =
        (d.joins.flatMap (d.joinFaults catalog)).map (Fault.about ∘ .reference) := by
    rw [List.map_flatMap, List.map_flatMap]
    show (d.joins.map Join.anonymous).flatMap _ = _
    rw [List.flatMap_map]
    simp only [joinFaults_anonymous]
  simp only [referenceFaults, List.map_append, hjoins, ← hfilters, ← horderBy]
  rfl

theorem aliasFault?_anonymous (used : List String) (fs : List Formula) :
    (aliasFault? used (fs.map Formula.anonymous)).map (Fault.about ∘ .rule) =
      (aliasFault? used fs).map (Fault.about ∘ .rule) := by
  induction fs generalizing used with
  | nil => rfl
  | cons f fs ih =>
    have hname : f.anonymous.name = f.name := rfl
    rw [List.map_cons, aliasFault?, aliasFault?, hname]
    split_ifs with hblank hused
    · rfl
    · rfl
    · exact ih _

theorem checkAliases_anonymous (d : Draft) :
    d.anonymous.checkAliases.mapError (Fault.about ∘ .rule) =
      d.checkAliases.mapError (Fault.about ∘ .rule) := by
  have hfault := aliasFault?_anonymous [] d.formulas
  have hformulas : d.anonymous.formulas = d.formulas.map Formula.anonymous := rfl
  unfold checkAliases
  rw [hformulas]
  generalize aliasFault? [] (d.formulas.map Formula.anonymous) = o at hfault
  cases h : aliasFault? [] d.formulas with
  | none =>
    rw [h, Option.map_none, Option.map_eq_none_iff] at hfault
    rw [hfault]
  | some fault =>
    rw [h, Option.map_some, Option.map_eq_some_iff] at hfault
    obtain ⟨fault', rfl, habout⟩ := hfault
    exact congrArg Except.error habout

theorem selectItems_anonymous (catalog : Catalog) (d : Draft) :
    d.anonymous.selectItems catalog = d.selectItems catalog := by
  have hungrouped : d.anonymous.ungrouped? catalog = d.ungrouped? catalog := rfl
  have haggregate : d.anonymous.aggregate = d.aggregate := rfl
  have hcolumns : d.anonymous.columnItems = d.columnItems := by
    funext used cs
    induction cs generalizing used with
    | nil => rfl
    | cons c cs ih => simp only [columnItems, haggregate, ih]
  have hresult : d.anonymous.resultColumns catalog = d.resultColumns catalog := rfl
  have hnames : d.anonymous.formulas.map Formula.name = d.formulas.map Formula.name :=
    List.map_map
  have hformulas : (d.anonymous.formulas.map fun f => SelectItem.formula f.expression f.name) =
      d.formulas.map fun f => SelectItem.formula f.expression f.name := List.map_map
  have hempty : d.anonymous.formulas.isEmpty = d.formulas.isEmpty := List.isEmpty_map
  unfold selectItems
  rw [hungrouped, hcolumns, hresult, hnames, hformulas, hempty]
  rfl

theorem conditions_anonymous (catalog : Catalog) (d : Draft) :
    d.anonymous.conditions catalog = d.conditions catalog := by
  unfold conditions
  show (d.filters.map Filter.anonymous).mapM _ = _
  rw [List.mapM_map]
  rfl

theorem document_assembled_anonymous (d : Draft) (gs : List Group) (items : List SelectItem)
    (conditions : List String) :
    (d.anonymous.assembled base (gs.map Group.anonymous) items conditions).document =
      (d.assembled base gs items conditions).document := by
  have hsql : (gs.map Group.anonymous).map Group.sql = gs.map Group.sql := List.map_map
  have hsorted : orderByClause d.anonymous.orderBy = orderByClause d.orderBy := by
    unfold orderByClause
    simp only [anonymous, List.map_map, List.isEmpty_map]
    rfl
  have htables : (gs.map Group.anonymous).flatMap Group.tables = gs.flatMap Group.tables :=
    List.flatMap_map ..
  have hclauses : (gs.map Group.anonymous).flatMap Group.clauses = gs.flatMap Group.clauses :=
    List.flatMap_map ..
  have hroots : (gs.map Group.anonymous).tail.map Group.root = gs.tail.map Group.root := by
    rw [← List.map_tail, List.map_map]
    rfl
  have hparameters : Filter.parameterNames d.anonymous.filters = Filter.parameterNames d.filters := by
    unfold Filter.parameterNames
    simp only [anonymous, List.flatMap_map]
    rfl
  simp only [assembled, Compiled.document, hsql, hsorted, htables, hclauses, hroots, hparameters,
    messages_anonymous]
  rfl

section mapError

variable {α β ε ε' ε'' : Type} (f : ε → ε')

theorem mapError_mapError (g : ε' → ε'') (x : Except ε α) :
    (x.mapError f).mapError g = x.mapError (g ∘ f) := by
  cases x <;> rfl

theorem mapError_bind (x : Except ε α) (k : α → Except ε β) :
    (x >>= k).mapError f = x.mapError f >>= fun a => (k a).mapError f := by
  cases x <;> rfl

end mapError

theorem compileFrom_anonymous (catalog : Catalog) (d : Draft) (base : TableId) :
    ((d.anonymous.compileFrom catalog base).mapError (Fault.about ∘ .rule)).map Compiled.document =
      ((d.compileFrom catalog base).mapError (Fault.about ∘ .rule)).map Compiled.document := by
  have hgroups : groups base d.anonymous.tables d.anonymous.joins =
      (groups base d.tables d.joins).map Group.anonymous := groups_anonymous ..
  unfold compileFrom
  rw [mapError_bind, mapError_bind, checkAliases_anonymous, selectItems_anonymous,
    conditions_anonymous, hgroups]
  cases d.checkAliases with
  | error fault => rfl
  | ok u =>
    cases d.selectItems catalog with
    | error fault => rfl
    | ok items =>
      cases d.conditions catalog with
      | error fault => rfl
      | ok conditions =>
        exact congrArg Except.ok (document_assembled_anonymous d _ items conditions)

/-! ### Catalogs that agree on the selected tables -/

theorem mapM_congr {α β ε : Type} {f g : α → Except ε β} {l : List α} (h : ∀ a ∈ l, f a = g a) :
    l.mapM f = l.mapM g := by
  induction l with
  | nil => rfl
  | cons a l ih =>
    rw [List.forall_mem_cons] at h
    rw [List.mapM_cons, List.mapM_cons, h.1, ih h.2]

section agree

variable (hagree : ∀ t ∈ d.tables, catalog.table? t = catalog'.table? t)

include hagree

theorem columnFaults_of_agree : d.columnFaults catalog = d.columnFaults catalog' := by
  funext role c
  unfold columnFaults
  split_ifs with hc
  · rw [hagree _ hc]
  · rfl

theorem referenceFaults_of_agree :
    (d.referenceFaults catalog).map (Fault.about ∘ .reference) =
      (d.referenceFaults catalog').map (Fault.about ∘ .reference) := by
  have hcolumn := columnFaults_of_agree hagree
  have hjoin : d.joinFaults catalog = d.joinFaults catalog' := by
    funext j
    unfold joinFaults
    rw [hcolumn]
  have htables : (d.tableFaults catalog).map (Fault.about ∘ .reference) =
      (d.tableFaults catalog').map (Fault.about ∘ .reference) := by
    have hfilter : d.tables.filter (!catalog.hasTable ·) = d.tables.filter (!catalog'.hasTable ·) := by
      refine List.filter_congr fun t ht => ?_
      rw [Catalog.hasTable, Catalog.hasTable, hagree t ht]
    unfold tableFaults
    rw [hfilter, List.map_map, List.map_map]
    rfl
  simp only [referenceFaults, List.map_append, htables, hcolumn, hjoin]

theorem selectItems_of_agree : d.selectItems catalog = d.selectItems catalog' := by
  have himplied : d.impliedColumns catalog = d.impliedColumns catalog' := by
    unfold impliedColumns
    refine List.flatMap_congr fun t ht => ?_
    rw [hagree t ht]
  have hplain : d.plainColumns catalog = d.plainColumns catalog' := by
    unfold plainColumns
    rw [himplied]
  unfold selectItems resultColumns ungrouped?
  rw [hplain]

theorem conditions_of_agree (hvalid : d.referenceFaults catalog = []) :
    d.conditions catalog = d.conditions catalog' := by
  have hgrounded := grounded_iff.2 hvalid
  unfold conditions
  refine mapM_congr fun f hf => ?_
  have htable := (hgrounded.filters f hf).1
  rw [typeClass, typeClass, Catalog.column?, Catalog.column?, hagree _ htable]

theorem compileFrom_of_agree (hvalid : d.referenceFaults catalog = []) (base : TableId) :
    d.compileFrom catalog base = d.compileFrom catalog' base := by
  unfold compileFrom
  rw [selectItems_of_agree hagree, conditions_of_agree hagree hvalid]

end agree

/-! ### Both at once -/

/-- A limit that is too long hides what was compiled, and any other shows it. -/
theorem document_withLimit {x y : Except Fault Compiled} (limit : Int)
    (h : (x.mapError Fault.about).map Compiled.document =
      (y.mapError Fault.about).map Compiled.document) :
    ((x >>= withLimit limit).mapError Fault.about).map Compiled.document =
      ((y >>= withLimit limit).mapError Fault.about).map Compiled.document := by
  cases x with
  | error fault =>
    cases y with
    | error fault' => exact h
    | ok c' => cases h
  | ok c =>
    cases y with
    | error fault' => cases h
    | ok c' =>
      show ((withLimit limit c).mapError Fault.about).map Compiled.document =
        ((withLimit limit c').mapError Fault.about).map Compiled.document
      unfold withLimit
      split_ifs with hlimit
      · exact h
      · rfl

theorem outcome_eq_of_parts (htables : d.tables = e.tables) (hlimit : d.limit = e.limit)
    (hfaults : (d.referenceFaults catalog).map (Fault.about ∘ .reference) =
      (e.referenceFaults catalog').map (Fault.about ∘ .reference))
    (hfrom : d.referenceFaults catalog = [] → ∀ base,
      ((d.compileFrom catalog base).mapError (Fault.about ∘ .rule)).map Compiled.document =
        ((e.compileFrom catalog' base).mapError (Fault.about ∘ .rule)).map Compiled.document) :
    d.outcome catalog = e.outcome catalog' := by
  unfold outcome
  cases hd : d.tables with
  | nil => rw [compile_of_tables_nil hd, compile_of_tables_nil (htables ▸ hd)]
  | cons base ts =>
    have he : e.tables = base :: ts := htables ▸ hd
    cases hvalid : d.referenceFaults catalog with
    | nil =>
      have hvalid' : e.referenceFaults catalog' = [] := by
        rw [hvalid, List.map_nil] at hfaults
        exact List.map_eq_nil_iff.1 hfaults.symm
      rw [compile_of_valid hd hvalid, compile_of_valid he hvalid']
      have hcompiled := hfrom hvalid base
      simp only [← mapError_mapError] at hcompiled
      rw [hlimit]
      exact document_withLimit e.limit hcompiled
    | cons fault faults =>
      rw [hvalid, List.map_cons] at hfaults
      obtain ⟨fault', faults', hvalid', hfault, -⟩ := List.map_eq_cons_iff.1 hfaults.symm
      rw [compile_of_referenceFaults_cons (by simp [hd]) hvalid,
        compile_of_referenceFaults_cons (by simp [he]) hvalid']
      exact congrArg Except.error hfault.symm

theorem outcome_anonymous (catalog : Catalog) (d : Draft) :
    d.anonymous.outcome catalog = d.outcome catalog :=
  outcome_eq_of_parts rfl rfl (referenceFaults_anonymous catalog d)
    fun _ base => compileFrom_anonymous catalog d base

theorem outcome_of_agree (hagree : ∀ t ∈ d.tables, catalog.table? t = catalog'.table? t) :
    d.outcome catalog = d.outcome catalog' :=
  outcome_eq_of_parts rfl rfl (referenceFaults_of_agree hagree)
    fun hvalid base => by rw [compileFrom_of_agree hagree hvalid base]

/-- A compilation depends on the definitions of the selected tables and on the draft without its ids:
whatever else the catalogs hold, query, warnings and metadata are the same, or a fault of one kind
is about the same table and column. -/
theorem outcome_congr (hdrafts : d.anonymous = e.anonymous)
    (hagree : ∀ t ∈ d.tables, catalog.table? t = catalog'.table? t) :
    d.outcome catalog = e.outcome catalog' := by
  have htables : d.tables = e.tables := by
    show d.anonymous.tables = e.anonymous.tables
    rw [hdrafts]
  calc d.outcome catalog
      _ = d.anonymous.outcome catalog := (outcome_anonymous catalog d).symm
      _ = e.outcome catalog := by rw [hdrafts, outcome_anonymous]
      _ = e.outcome catalog' := outcome_of_agree (htables ▸ hagree)

end Draft

namespace Sample

/-- The sales with other ids, two of them alike. -/
def renumberedSales : Draft :=
  { sales with joins := sales.joins.map fun j => { j with id := if j.id = "c" then "9" else "8" } }

/-- The same tables in another order, and one more. -/
def audited : Catalog where
  name := "audited"
  tables := { name := "audit", columns := [{ name := "id" }] } :: Catalog.multiSchema.tables.reverse

theorem outcome_congr_renumberedSales :
    sales.anonymous = renumberedSales.anonymous ∧
      (∀ t ∈ sales.tables, Catalog.multiSchema.table? t = audited.table? t) ∧
      sales.outcome .multiSchema = renumberedSales.outcome audited := by
  have hdrafts : sales.anonymous = renumberedSales.anonymous := rfl
  have hagree : ∀ t ∈ sales.tables, Catalog.multiSchema.table? t = audited.table? t := by decide
  exact ⟨hdrafts, hagree, Draft.outcome_congr hdrafts hagree⟩

end Sample

end QueryDraft
