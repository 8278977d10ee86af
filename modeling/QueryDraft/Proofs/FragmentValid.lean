import Mathlib
import QueryDraft.Proofs.Coherent
import QueryDraft.Proofs.Outcome
import QueryDraft.Proofs.References
import QueryDraft.Proofs.Standards

/-!
# Fragments checked against a catalog

A draft made from a fragment under a catalog refers only to what is selected and what the catalog
knows, whatever draft and fragment it was made from. What then keeps it from its query is that no
table was left, an ungrouped column, a filter without values or a limit that is too long
(`applyFragment_valid`).
-/

namespace QueryDraft

open Sql

/-- What a catalog, if there is one, knows of the parts of a draft. -/
def Standard.known (catalog? : Option Catalog) : Standard where
  table t := Draft.knowsTable catalog? t = true
  column c := Draft.knowsColumn catalog? c = true
  join j := Draft.knowsColumn catalog? j.source = true ∧ Draft.knowsColumn catalog? j.target = true
  filter f := Draft.knowsColumn catalog? f.column = true
  sort s := Draft.knowsColumn catalog? s.column = true
  formula _ := True

namespace Draft

variable {catalog : Catalog} {catalog? : Option Catalog} {d : Draft}

theorem knowsTable_of_knowsColumn {c : ColumnId} (h : knowsColumn catalog? c = true) :
    knowsTable catalog? c.table = true := by
  cases catalog? with
  | none => rfl
  | some catalog =>
    obtain ⟨t, ht, _⟩ := isSome_column?_iff.1 h
    show (catalog.table? c.table).isSome = true
    rw [ht]
    rfl

theorem known_admits_of_replays {es : List (String × Json)} {e : Edit}
    (h : Replays catalog? es e) (fresh : String) : (Standard.known catalog?).Admits fresh e := by
  cases h with
  | table _ _ _ hknown => exact hknown
  | column _ _ _ hknown => exact ⟨knowsTable_of_knowsColumn hknown, hknown⟩
  | aggregation _ _ _ hknown => exact ⟨knowsTable_of_knowsColumn hknown, hknown⟩
  | join _ _ _ hsource htarget => exact ⟨hsource, htarget⟩
  | filter _ _ _ hknown => exact hknown
  | groupBy _ _ _ hknown => exact hknown
  | sort _ _ _ hknown => exact hknown
  | formula => trivial
  | limit => trivial

theorem meets_known_none (d : Draft) : d.Meets (.known none) where
  tables := fun _ _ => rfl
  columns := fun _ _ => rfl
  joins := fun _ _ => ⟨rfl, rfl⟩
  filters := fun _ _ => rfl
  groupBy := fun _ _ => rfl
  orderBy := fun _ _ => rfl
  formulas := fun _ _ => trivial

theorem referenceFaults_eq_nil_iff (h : d.Coherent) :
    d.referenceFaults catalog = [] ↔ d.Meets (.known (some catalog)) := by
  rw [← grounded_iff]
  constructor
  · intro hg
    exact {
      tables := hg.tables
      columns := fun c hc => (hg.columns c hc).2
      joins := fun j hj => ⟨(hg.joins j hj).1.2, (hg.joins j hj).2.2⟩
      filters := fun f hf => (hg.filters f hf).2
      groupBy := fun c hc => (hg.groupBy c hc).2
      orderBy := fun s hs => (hg.orderBy s hs).2
      formulas := fun _ _ => trivial }
  · intro hm
    have hcolumns : ∀ c ∈ d.columns, d.Offers catalog c :=
      fun c hc => ⟨h.columns c hc, hm.columns c hc⟩
    exact {
      tables := hm.tables
      columns := hcolumns
      aggregated := fun c hc => hcolumns c (h.aggregated c hc)
      filters := fun f hf => ⟨h.filters f hf, hm.filters f hf⟩
      groupBy := fun c hc => ⟨h.groupBy c hc, hm.groupBy c hc⟩
      orderBy := fun s hs => ⟨h.orderBy s hs, hm.orderBy s hs⟩
      joins := fun j hj => ⟨⟨(h.joins j hj).1, (hm.joins j hj).1⟩, (h.joins j hj).2, (hm.joins j hj).2⟩
      noLoops := h.noLoops }

/-- Whatever a fragment makes under a catalog has only references that are in order, and aliases
that are distinct and not blank. Its query can still fail, but only for want of a table, for a column
that must be grouped by or a filter without values, or for a limit that is too long. -/
theorem applyFragment_valid {fragment : List (String × Json)} {ids : IdSupply} {r : Replay}
    (h : d.applyFragment fragment (some catalog) ids = .ok r) :
    r.draft.referenceFaults catalog = [] ∧
    (r.draft.formulas.map Formula.name).Nodup ∧
    (∀ f ∈ r.draft.formulas, Text.isBlankText f.name = false) ∧
    ∀ fault, r.draft.compile catalog = .error fault →
      (fault = .noTable ∧ r.draft.tables = []) ∨
      (∃ c, fault = .rule (.ungrouped c) ∧ r.draft.isGrouped = true ∧ r.draft.IsPlain catalog c ∧
        c ∉ r.draft.groupBy) ∨
      (∃ f ∈ r.draft.filters, fault = .rule (.noValues f.column) ∧ f.operator = .isIn ∧
        listValues f.value = []) ∨
      fault = .longLimit ∧ 10 ^ Text.maxDigits ≤ r.draft.limit := by
  have hcoherent : r.draft.Coherent := coherent_of_applyFragment h
  have hknown : r.draft.Meets (.known (some catalog)) :=
    meets_of_applyFragment h fun e he path => known_admits_of_replays he _
  have hvalid := (referenceFaults_eq_nil_iff hcoherent).2 hknown
  have hnames : ∀ f ∈ r.draft.formulas, Text.isBlankText f.name = false := fun f hf =>
    Text.isBlankText_of_ne_empty (hcoherent.formulas f hf).name_ne (hcoherent.formulas f hf).unbroken
  refine ⟨hvalid, hcoherent.nodup_names, hnames, fun fault hfault => ?_⟩
  rcases compile_eq_error_cases hfault with h | ⟨f, _, _, hf⟩ | ⟨f, rfl, _, _, hbreaks⟩ |
    ⟨rfl, _, _, _, hlimit⟩
  · exact .inl h
  · rw [hvalid] at hf
    cases hf
  · cases hbreaks with
    | blankAlias hf hblank =>
      rw [hnames _ hf] at hblank
      cases hblank
    | repeatedAlias hname =>
      exact absurd (List.nodup_iff_count_le_one.1 hcoherent.nodup_names _) (Nat.not_le_of_lt hname)
    | ungrouped hgrouped hc hnot => exact .inr (.inl ⟨_, rfl, hgrouped, hc, hnot⟩)
    | noValues hf hop hvalues => exact .inr (.inr (.inl ⟨_, hf, rfl, hop, hvalues⟩))
  · exact .inr (.inr (.inr ⟨rfl, hlimit⟩))

end Draft

namespace Sample

/-- A draft that refers to what is not there, with a formula that no edit would have let in. -/
def haunted : Draft where
  tables := [⟨"ref", "ghosts"⟩]
  columns := [refunds.column "order_id"]
  formulas := [⟨"f", " ", "sum("⟩]
  limit := 5

/-- Orders by number, with a table and a grouping that cannot stay. -/
def ordersById : List (String × Json) := [
  ("selectedTables", .texts ["sales.orders", "nowhere"]),
  ("selectedColumns", .texts ["sales.orders.id"]),
  ("groupBy", .texts ["sales.orders.id", "sales.refunds.order_id"])]

def merged : Replay where
  draft := { tables := [orders], columns := [orders.column "id"], groupBy := [orders.column "id"],
             limit := 5 }
  dropped := [.table, .groupBy, .formula]

theorem applyFragment_valid_haunted :
    haunted.applyFragment ordersById (some .multiSchema) ⟨fun _ => "new"⟩ = .ok merged ∧
      merged.draft.referenceFaults .multiSchema = [] := by
  have h : haunted.applyFragment ordersById (some .multiSchema) ⟨fun _ => "new"⟩ = .ok merged := by
    rfl
  exact ⟨h, (Draft.applyFragment_valid h).1⟩

/-- The users, under a limit that is one digit too long. -/
def usersAtLength : List (String × Json) :=
  [("selectedTables", .texts ["users"]), ("limit", .int (10 ^ Text.maxDigits))]

/-- A fragment may set such a limit, and then it is neither for want of a table nor for a rule that the
query fails. -/
theorem applyFragment_usersAtLength :
    (Draft.blank 100).applyFragment usersAtLength (some .shop) ⟨fun _ => "new"⟩ = .ok ⟨longUsers, []⟩ ∧
      longUsers.tables ≠ [] ∧ (¬ ∃ fault, longUsers.Breaks .shop fault) ∧
      longUsers.compile .shop = .error .longLimit :=
  ⟨by rfl, List.cons_ne_nil _ _, not_breaks_longUsers, compile_longUsers⟩

end Sample

end QueryDraft
