import Mathlib
import QueryDraft.Proofs.JoinPrecedence
import QueryDraft.Proofs.ProposedJoins

/-!
# Suggested joins

What is suggested for a new table is the join proposed for it and the first selected table that is
related to it; where both orders of the two tables propose one, the selected table goes first
(`Relation.Suggests`). The new table may be selected already, and then is not related to itself.
With the new table selected a draft takes the suggestion, whatever else it has
(`Relation.suggest?_first_related`).
-/

namespace QueryDraft

namespace Relation

variable {catalog : Catalog} {heuristic : Bool} {d : Draft} {t u : TableId} {new : TableRef} {j : Join}
  {r : Option Join}

/-! ### The join of a selected table and a new one -/

/-- The join proposed for a selected table and a new one, the selected table being tried first. -/
def proposal? (catalog : Catalog) (heuristic : Bool) (u : TableId) (new : TableRef) : Option Join :=
  (inferRef? catalog heuristic (.id u) new).or (inferRef? catalog heuristic new (.id u))

/-- A join of the two tables is proposed, in one order or the other. -/
def AreRelated (catalog : Catalog) (heuristic : Bool) (u : TableId) (new : TableRef) : Prop :=
  inferRef? catalog heuristic (.id u) new ≠ none ∨ inferRef? catalog heuristic new (.id u) ≠ none

theorem proposal?_eq_none_iff :
    proposal? catalog heuristic u new = none ↔ ¬ AreRelated catalog heuristic u new := by
  rw [proposal?, Option.or_eq_none_iff, AreRelated, not_or, not_not, not_not]

theorem areRelated_of_proposal? (h : proposal? catalog heuristic u new = some j) :
    AreRelated catalog heuristic u new := by
  by_contra hunrelated
  cases h.symm.trans (proposal?_eq_none_iff.2 hunrelated)

theorem proposal?_of_id? (hnew : new.id? = some t) : proposal? catalog heuristic u new =
    (infer? catalog heuristic u t).or (infer? catalog heuristic t u) := by
  rw [proposal?, inferRef?, inferRef?, hnew]
  rfl

theorem connects_of_proposal? (hnew : new.id? = some t)
    (h : proposal? catalog heuristic u new = some j) : Connects catalog u t j := by
  rw [proposal?_of_id? hnew] at h
  rcases Option.or_eq_some_iff.1 h with hforward | ⟨-, hbackward⟩
  · exact connects_of_infer? hforward
  · exact (connects_of_infer? hbackward).symm

theorem Connects.links (h : Connects catalog t u j) : j.Links t u := h.ends

/-! ### The first table that is related -/

/-- What is suggested for a new table: nothing if no other selected table is related to it; else the
join of it and the first such table. -/
inductive Suggests (catalog : Catalog) (heuristic : Bool) (d : Draft) (new : TableRef) (t : TableId) :
    Option Join → Prop where
  | unrelated (h : ∀ u ∈ d.tables, u ≠ t → ¬ AreRelated catalog heuristic u new) :
    Suggests catalog heuristic d new t none
  | first {u : TableId} {j : Join}
    (hfirst : IsFirst (fun u => u ≠ t ∧ AreRelated catalog heuristic u new) d.tables u)
    (hlinks : j.Links u t) (hj : proposal? catalog heuristic u new = some j) :
    Suggests catalog heuristic d new t (some j)

theorem suggest?_eq_findSome? (hnew : new.id? = some t) : suggest? catalog heuristic d t =
    d.tables.findSome? fun u => if u = t then none else proposal? catalog heuristic u new := by
  simp only [proposal?_of_id? hnew]
  rfl

theorem suggest?_eq_none_iff (hnew : new.id? = some t) : suggest? catalog heuristic d t = none ↔
    ∀ u ∈ d.tables, u ≠ t → ¬ AreRelated catalog heuristic u new := by
  rw [suggest?_eq_findSome? hnew, List.findSome?_eq_none_iff]
  simp only [ite_eq_left_iff, proposal?_eq_none_iff, ne_eq]

theorem suggest?_eq_some_iff (hnew : new.id? = some t) : suggest? catalog heuristic d t = some j ↔
    ∃ u, IsFirst (fun u => u ≠ t ∧ AreRelated catalog heuristic u new) d.tables u ∧
      proposal? catalog heuristic u new = some j := by
  have hnone (u : TableId) : (if u = t then none else proposal? catalog heuristic u new) = none ↔
      ¬ (u ≠ t ∧ AreRelated catalog heuristic u new) := by
    rw [ite_eq_left_iff, proposal?_eq_none_iff, not_and]
  rw [suggest?_eq_findSome? hnew, List.findSome?_eq_some_iff]
  simp only [hnone, Option.ite_none_left_eq_some]
  constructor
  · rintro ⟨before, u, after, hsplit, ⟨hne, hj⟩, hbefore⟩
    exact ⟨u, ⟨⟨hne, areRelated_of_proposal? hj⟩, before, after, hsplit, hbefore⟩, hj⟩
  · rintro ⟨u, ⟨⟨hne, -⟩, before, after, hsplit, hbefore⟩, hj⟩
    exact ⟨before, u, after, hsplit, ⟨hne, hj⟩, hbefore⟩

theorem suggest?_eq_iff_suggests (hnew : new.id? = some t) :
    suggest? catalog heuristic d t = r ↔ Suggests catalog heuristic d new t r := by
  cases r with
  | none =>
    rw [suggest?_eq_none_iff hnew]
    constructor
    · exact .unrelated
    · rintro ⟨h⟩
      exact h
  | some j =>
    rw [suggest?_eq_some_iff hnew]
    constructor
    · rintro ⟨u, hfirst, hj⟩
      exact .first hfirst (connects_of_proposal? hnew hj).links hj
    · intro h
      cases h with
      | first hfirst _ hj => exact ⟨_, hfirst, hj⟩

/-! ### Taking the suggestion -/

/-- A draft takes a join of two different tables that it has. -/
theorem addJoin_of_links (hne : t ≠ u) (ht : t ∈ d.tables) (hu : u ∈ d.tables) (h : j.Links t u) :
    d.addJoin j = .ok { d with
      joins := if j.id ∈ d.joins.map Join.id then d.joins else d.joins ++ [j] } := by
  have hends : j.source.table ≠ j.target.table ∧ j.source.table ∈ d.tables ∧
      j.target.table ∈ d.tables := by
    rcases h with ⟨rfl, rfl⟩ | ⟨rfl, rfl⟩
    · exact ⟨hne, ht, hu⟩
    · exact ⟨hne.symm, hu, ht⟩
  obtain ⟨hends, hsource, htarget⟩ := hends
  rw [Draft.addJoin_eq_ok_iff]
  split_ifs with hid
  · exact .inl ⟨hid, rfl⟩
  · exact .inr ⟨hid, hends, hsource, htarget, rfl⟩

theorem Suggests.addJoin (h : Suggests catalog heuristic d new t (some j)) :
    (d.addTable t).addJoin j = .ok { d with
      tables := insertLast d.tables t
      joins := if j.id ∈ d.joins.map Join.id then d.joins else d.joins ++ [j] } := by
  cases h with
  | first hfirst hlinks hj =>
    have hu : _ ∈ (d.addTable t).tables := mem_insertLast.2 (.inl hfirst.mem)
    exact addJoin_of_links hfirst.1.1 hu (Draft.Coherent.mem_tables_addTable d t) hlinks

/-- What is suggested for a new table is the join of it and the first selected table that is related
to it. Every draft takes the suggestion once it has the new table: the join is then its last, unless
one of the same id was there, and nothing else is different. -/
theorem suggest?_first_related (catalog : Catalog) (heuristic : Bool) (d : Draft)
    (hnew : new.id? = some t) :
    (∀ r, suggest? catalog heuristic d t = r ↔ Suggests catalog heuristic d new t r) ∧
      ∀ j, suggest? catalog heuristic d t = some j → (d.addTable t).addJoin j = .ok { d with
        tables := insertLast d.tables t
        joins := if j.id ∈ d.joins.map Join.id then d.joins else d.joins ++ [j] } :=
  ⟨fun _ => suggest?_eq_iff_suggests hnew, fun _ h => ((suggest?_eq_iff_suggests hnew).1 h).addJoin⟩

end Relation

namespace Sample

/-- The refunds are selected already, and then two tables that their reference fits. -/
def refunding : Draft where
  tables := [refunds, archived, orders]

theorem suggest?_first_related_refunding :
    Relation.Suggests .multiSchema true refunding (.name " sales.refunds") refunds
        (some refundOfArchived) ∧
      (refunding.addTable refunds).addJoin refundOfArchived =
        .ok { refunding with joins := [refundOfArchived] } := by
  have hjoin : Relation.suggest? .multiSchema true refunding refunds = some refundOfArchived := by rfl
  have hnew : (Relation.TableRef.name " sales.refunds").id? = some refunds := by rfl
  obtain ⟨hiff, haccepted⟩ := Relation.suggest?_first_related .multiSchema true refunding hnew
  exact ⟨(hiff _).1 hjoin, haccepted _ hjoin⟩

end Sample

end QueryDraft
