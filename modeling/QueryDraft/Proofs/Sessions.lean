import Mathlib
import QueryDraft.Command
import QueryDraft.Proofs.Coherent

/-!
# Sessions as runs of edits

A command that neither starts anew nor reads the draft again does what some edits do
(`Command.edits_of_run`), with arguments that its own were taken as. So what edits keep is kept by a
session (`Session.coherent_after`).
-/

namespace QueryDraft

open Draft (after idOr)

/-- The supply that has another at each of its branches. -/
def IdSupply.everywhere (ids : IdSupply) : IdSupply := ⟨fun path => ids.label path.tail⟩

namespace Command

variable {ids : IdSupply} {d d' : Draft}

theorem after_singleton {e : Edit} (h : e.run ids d = .ok d') : after ids.everywhere 0 d [e] = d' := by
  have hrun : e.run (ids.everywhere.branch 0) d = .ok d' := h
  rw [after, hrun]
  rfl

theorem idOr_of_id {fresh id : String} {id? : Option Json} (h : Argument.id fresh id? = .value id) :
    idOr fresh id = id := by
  unfold idOr
  split_ifs with hempty
  · cases id? with
    | none =>
      cases h
      rfl
    | some v =>
      simp only [Argument.id] at h
      split_ifs at h with hnothing
      · cases h
        rfl
      · cases Reading.text_eq_value_iff.1 (Reading.under_eq_value.1 h)
        exact absurd hempty hnothing
  · rfl

variable {c : Context} {r : Replay}

theorem edits_of_without {id : Json} {edit : String → Draft} {e : String → Edit}
    (h : ∀ s, (e s).run c.ids d = .ok (edit s)) :
    ∃ es, after c.ids.everywhere 0 d es = without id edit d := by
  cases id with
  | str s => exact ⟨[e s], after_singleton (h s)⟩
  | _ => exact ⟨[], rfl⟩

theorem edits_of_onEntry {id : Json} {edit : String → Except Failure Draft} {e : String → Edit}
    (h : ∀ s, (e s).run c.ids d = edit s) (hrun : onEntry id edit = .ok d') :
    ∃ es, after c.ids.everywhere 0 d es = d' := by
  cases id with
  | str s => exact ⟨[e s], after_singleton ((h s).trans hrun)⟩
  | _ => cases hrun

theorem edits_of_run {cmd : Command} (h : cmd.run c d = .ok r) :
    (∃ limit?, cmd = .startAnew limit?) ∨ cmd = .reload ∨
      ∃ es, after c.ids.everywhere 0 d es = r.draft := by
  cases cmd with
  | startAnew limit? => exact .inl ⟨limit?, rfl⟩
  | reload => exact .inr (.inl rfl)
  | addTable table =>
    obtain ⟨t, _, h⟩ := bind_eq_ok_iff.1 h
    cases h
    exact .inr (.inr ⟨[.addTable t], rfl⟩)
  | removeTable table =>
    obtain ⟨t, _, h⟩ := bind_eq_ok_iff.1 h
    cases h
    exact .inr (.inr ⟨[.removeTable t], rfl⟩)
  | toggleTable table =>
    obtain ⟨t, _, h⟩ := bind_eq_ok_iff.1 h
    cases h
    exact .inr (.inr ⟨[.toggleTable t], rfl⟩)
  | clearTables =>
    cases h
    exact .inr (.inr ⟨[.clear], rfl⟩)
  | toggleColumn column =>
    obtain ⟨k, _, h⟩ := bind_eq_ok_iff.1 h
    cases h
    exact .inr (.inr ⟨[.toggleColumn k], rfl⟩)
  | selectColumns table names =>
    obtain ⟨t, _, h⟩ := bind_eq_ok_iff.1 h
    obtain ⟨ns, _, h⟩ := bind_eq_ok_iff.1 h
    cases h
    exact .inr (.inr ⟨[.selectColumns t ns], rfl⟩)
  | deselectColumns table names =>
    obtain ⟨t, _, h⟩ := bind_eq_ok_iff.1 h
    obtain ⟨ns, _, h⟩ := bind_eq_ok_iff.1 h
    cases h
    exact .inr (.inr ⟨[.deselectColumns t ns], rfl⟩)
  | setAggregate column func =>
    obtain ⟨k, _, h⟩ := bind_eq_ok_iff.1 h
    obtain ⟨a, _, h⟩ := bind_eq_ok_iff.1 h
    cases h
    exact .inr (.inr ⟨[.setAggregate k a], rfl⟩)
  | addJoin join =>
    obtain ⟨j, _, h⟩ := bind_eq_ok_iff.1 h
    obtain ⟨d', hd', h⟩ := bind_eq_ok_iff.1 h
    cases h
    exact .inr (.inr ⟨[.addJoin j], after_singleton hd'⟩)
  | updateJoin id changes =>
    obtain ⟨own, _, h⟩ := bind_eq_ok_iff.1 h
    obtain ⟨d', hd', h⟩ := bind_eq_ok_iff.1 h
    cases h
    exact .inr (.inr (edits_of_onEntry (e := fun id => .updateJoin id own) (fun _ => rfl) hd'))
  | removeJoin id =>
    cases h
    exact .inr (.inr (edits_of_without (e := .removeJoin) fun _ => rfl))
  | addFilter column operator? value? id? =>
    obtain ⟨d', hd', h⟩ := bind_eq_ok_iff.1 h
    cases h
    obtain ⟨k, _, h⟩ := bind_eq_ok_iff.1 hd'
    obtain ⟨o, _, h⟩ := bind_eq_ok_iff.1 h
    obtain ⟨⟨id, value⟩, hparts, h⟩ := bind_eq_ok_iff.1 h
    have hid : idOr c.ids.id id = id := by
      obtain ⟨f, v, hf, _, hv⟩ := Reading.ap_eq_value.1 (Reading.orFail_eq_ok_iff.1 hparts)
      obtain ⟨id', hid', rfl⟩ := Reading.map_eq_value.1 hf
      cases hv
      exact idOr_of_id hid'
    refine .inr (.inr ⟨[.addFilter ⟨id, k, o, value⟩], after_singleton ?_⟩)
    rw [Edit.run, hid]
    exact h
  | updateFilter id changes =>
    obtain ⟨own, _, h⟩ := bind_eq_ok_iff.1 h
    obtain ⟨d', hd', h⟩ := bind_eq_ok_iff.1 h
    cases h
    exact .inr (.inr (edits_of_onEntry (e := fun id => .updateFilter id own) (fun _ => rfl) hd'))
  | removeFilter id =>
    cases h
    exact .inr (.inr (edits_of_without (e := .removeFilter) fun _ => rfl))
  | toggleGroupBy column =>
    obtain ⟨k, _, h⟩ := bind_eq_ok_iff.1 h
    obtain ⟨d', hd', h⟩ := bind_eq_ok_iff.1 h
    cases h
    exact .inr (.inr ⟨[.toggleGroupBy k], after_singleton hd'⟩)
  | addSort column direction? id? =>
    obtain ⟨d', hd', h⟩ := bind_eq_ok_iff.1 h
    cases h
    obtain ⟨k, _, h⟩ := bind_eq_ok_iff.1 hd'
    obtain ⟨o, _, h⟩ := bind_eq_ok_iff.1 h
    obtain ⟨id, hid, h⟩ := bind_eq_ok_iff.1 h
    refine .inr (.inr ⟨[.addSort ⟨id, k, o⟩], after_singleton ?_⟩)
    rw [Edit.run, idOr_of_id (Reading.orFail_eq_ok_iff.1 hid)]
    exact h
  | updateSort id changes =>
    obtain ⟨own, _, h⟩ := bind_eq_ok_iff.1 h
    obtain ⟨d', hd', h⟩ := bind_eq_ok_iff.1 h
    cases h
    exact .inr (.inr (edits_of_onEntry (e := fun id => .updateSort id own) (fun _ => rfl) hd'))
  | removeSort id =>
    cases h
    exact .inr (.inr (edits_of_without (e := .removeSort) fun _ => rfl))
  | addFormula name expression id? =>
    obtain ⟨d', hd', h⟩ := bind_eq_ok_iff.1 h
    cases h
    obtain ⟨⟨n, x⟩, _, h⟩ := bind_eq_ok_iff.1 hd'
    obtain ⟨_, _, h⟩ := bind_eq_ok_iff.1 h
    obtain ⟨id, hid, h⟩ := bind_eq_ok_iff.1 h
    refine .inr (.inr ⟨[.addFormula ⟨id, n, x⟩], after_singleton ?_⟩)
    rw [Edit.run, idOr_of_id (Reading.orFail_eq_ok_iff.1 hid)]
    exact h
  | removeFormula id =>
    cases h
    exact .inr (.inr (edits_of_without (e := .removeFormula) fun _ => rfl))
  | setLimit limit =>
    obtain ⟨n, _, h⟩ := bind_eq_ok_iff.1 h
    cases h
    exact .inr (.inr ⟨[.setLimit n], rfl⟩)
  | applyFragment fragment checked =>
    obtain ⟨es, _, h⟩ := bind_eq_ok_iff.1 h
    refine .inr (.inr ⟨[.applyFragment es (if checked then some c.catalog else none)], ?_⟩)
    exact after_singleton (map_eq_ok_iff.2 ⟨r, h, rfl⟩)
  | applyStarter starter =>
    refine .inr (.inr ⟨[.applyStarter starter (some c.catalog)], ?_⟩)
    exact after_singleton (map_eq_ok_iff.2 ⟨r, h, rfl⟩)
  | acceptSuggestion table heuristic =>
    obtain ⟨t, _, h⟩ := bind_eq_ok_iff.1 h
    obtain ⟨d', hd', h⟩ := bind_eq_ok_iff.1 h
    cases h
    have hd' := mapError_eq_ok_iff.1 hd'
    unfold Draft.acceptSuggestion at hd'
    split at hd'
    · rename_i j _
      have hadd : (Edit.addJoin j).run c.ids (d.addTable t) = .ok d' := mapError_eq_ok_iff.2 hd'
      exact .inr (.inr ⟨[.addTable t, .addJoin j], after_singleton (d := d.addTable t) hadd⟩)
    · cases hd'
      exact .inr (.inr ⟨[.addTable t], rfl⟩)

theorem blank_of_newDraft {defaultLimit : Int} {limit? : Option Json}
    (h : newDraft defaultLimit limit? = .ok d) : ∃ limit, d = .blank limit := by
  unfold newDraft at h
  split at h
  · cases h
    exact ⟨defaultLimit, rfl⟩
  · cases h
    exact ⟨defaultLimit, rfl⟩
  · obtain ⟨limit, _, rfl⟩ := Reading.map_eq_value.1 (Reading.orFail_eq_ok_iff.1 h)
    exact ⟨limit, rfl⟩

theorem coherent_of_command {cmd : Command} (hcmd : cmd ≠ .reload) (hd : d.Coherent)
    (h : cmd.run c d = .ok r) : r.draft.Coherent := by
  rcases edits_of_run h with ⟨limit?, rfl⟩ | hreload | ⟨es, hes⟩
  · obtain ⟨d', hd', h⟩ := bind_eq_ok_iff.1 h
    cases h
    obtain ⟨limit, rfl⟩ := blank_of_newDraft hd'
    exact Draft.coherent_blank limit
  · exact absurd hreload hcmd
  · rw [← hes]
    exact Draft.coherent_after 0 hd es

end Command

/-- What a session does to a coherent draft leaves it coherent, as long as the draft is not read
again from its text. -/
theorem Session.coherent_after {c : Command.Context} {d : Draft} {cmds : List Command} (i : Nat)
    (hcmds : .reload ∉ cmds) (hd : d.Coherent) : (Session.after c i d cmds).Coherent := by
  induction cmds generalizing i d with
  | nil => exact hd
  | cons cmd cmds ih =>
    rw [List.mem_cons, not_or] at hcmds
    unfold Session.after
    split
    · rename_i r hr
      exact ih (i + 1) hcmds.2 (Command.coherent_of_command (Ne.symm hcmds.1) hd hr)
    · exact ih (i + 1) hcmds.2 hd

end QueryDraft
