import Mathlib
import QueryDraft.Proofs.Outcome

/-!
# The comment that stands for a fault

A preview shows a fault as a comment: the mark, the kind of the fault and its message. A message is
fixed text around the texts that it repeats (`Fault.repeated`), and its line breaks are theirs
(`Fault.lineBreaks_message`). So the comment is one line unless a name or an id of the draft, or a
name of the catalog, has a line break (`preview_commented`); what follows the break is then on a line
without the mark.
-/

namespace QueryDraft

/-! ### Lines -/

/-- The lines of a text. -/
def lines (s : String) : List (List Char) := s.toList.splitOn '\n'

def lineBreaks (s : String) : Nat := s.toList.count '\n'

theorem lineBreaks_append (s t : String) : lineBreaks (s ++ t) = lineBreaks s + lineBreaks t := by
  rw [lineBreaks, String.toList_append, List.count_append, lineBreaks, lineBreaks]

theorem lineBreaks_eq_zero_iff {s : String} : lineBreaks s = 0 ↔ '\n' ∉ s.toList :=
  List.count_eq_zero

theorem lineBreaks_of_not_mem {s : String} (h : '\n' ∉ s.toList) : lineBreaks s = 0 :=
  lineBreaks_eq_zero_iff.2 h

theorem length_splitOn {α : Type} [BEq α] (a : α) (as : List α) :
    (as.splitOn a).length = as.count a + 1 := by
  induction as with
  | nil => rfl
  | cons b as ih =>
    rw [List.splitOn_cons_eq_if_modifyHead, List.count_cons]
    split_ifs with h
    · rw [List.length_cons, ih]
    · rw [List.length_modifyHead, ih]

theorem length_lines (s : String) : (lines s).length = lineBreaks s + 1 := length_splitOn ..

/-- What has no separator in it is the beginning of the first part. -/
theorem splitOn_append_of_not_mem {α : Type} [BEq α] [LawfulBEq α] {a : α} {as : List α}
    (h : a ∉ as) (bs : List α) :
    (as ++ bs).splitOn a = (bs.splitOn a).modifyHead (as ++ ·) := by
  induction as with
  | nil => exact (congrFun List.modifyHead_id (bs.splitOn a)).symm
  | cons b as ih =>
    rw [List.mem_cons, not_or] at h
    have hb : (b == a) = false := beq_false_of_ne (Ne.symm h.1)
    rw [List.cons_append, List.splitOn_cons_eq_if_modifyHead, ih h.2, hb]
    simp [List.modifyHead_modifyHead, Function.comp_def]

/-! ### What a message repeats -/

theorem Role.lineBreaks_subject (role : Role) : lineBreaks role.subject = 0 := by
  cases role <;> decide

/-- The texts that stand in the message of the fault as they are. -/
def ReferenceFault.repeated : ReferenceFault → List String
  | unselectedTable _ t | selfJoinRefused t => [t.text]
  | unknownTable t catalog => [t.text, catalog]
  | unselectedColumn _ c | unknownColumn _ c => [c.text, c.table.text]
  | selfJoin join t => [join, t.text]

def RuleFault.repeated : RuleFault → List String
  | ungrouped c | noValues c => [c.text]
  | blankAlias formula => [formula]
  | repeatedAlias name => [name]
  | limitNotPositive limit => [toString limit]

def FormulaFault.repeated : FormulaFault → List String
  | noAlias | noExpression => []
  | unbalanced opened closed => [toString opened, toString closed]
  | aliasTaken name => [name]

def Fault.repeated : Fault → List String
  | noTable => []
  | reference f => f.repeated
  | rule f => f.repeated
  | formula f => f.repeated
  | longLimit => []

theorem ReferenceFault.lineBreaks_message (f : ReferenceFault) :
    lineBreaks f.message = (f.repeated.map lineBreaks).sum := by
  cases f <;> unfold message repeated <;>
    simp (disch := decide) [toString, lineBreaks_append, lineBreaks_of_not_mem,
      Role.lineBreaks_subject]

theorem RuleFault.lineBreaks_message (f : RuleFault) :
    lineBreaks f.message = (f.repeated.map lineBreaks).sum := by
  cases f <;> unfold message repeated <;>
    simp (disch := decide) [toString, lineBreaks_append, lineBreaks_of_not_mem]

theorem FormulaFault.lineBreaks_message (f : FormulaFault) :
    lineBreaks f.message = (f.repeated.map lineBreaks).sum := by
  cases f <;> unfold message repeated <;>
    simp (disch := decide) [toString, lineBreaks_append, lineBreaks_of_not_mem]

namespace Fault

/-- The line breaks of a message are those of the texts that it repeats. -/
theorem lineBreaks_message (f : Fault) :
    lineBreaks f.message = (f.repeated.map lineBreaks).sum := by
  cases f with
  | noTable => decide
  | reference f => exact f.lineBreaks_message
  | rule f => exact f.lineBreaks_message
  | formula f => exact f.lineBreaks_message
  | longLimit => decide +kernel

theorem lineBreaks_kind (f : Fault) : lineBreaks f.kind = 0 := by
  cases f <;> simp (disch := decide) only [kind, lineBreaks_of_not_mem]

end Fault

/-! ### Where these texts come from -/

namespace Draft

variable {catalog : Catalog} {d : Draft}

/-- The columns that a draft refers to or, grouped and with none picked, implies. -/
def namedColumns (catalog : Catalog) (d : Draft) : List ColumnId :=
  d.columns ++ d.aggregations.keys ++ d.filters.map Filter.column ++ d.groupBy ++
    d.orderBy.map SortKey.column ++ d.joins.flatMap (fun j => [j.source, j.target]) ++
    d.impliedColumns catalog

/-- The text is a name or an id of the draft or names its catalog. -/
inductive Names (catalog : Catalog) (d : Draft) : String → Prop
  | catalog : Names catalog d catalog.name
  | table {t : TableId} (ht : t ∈ d.tables) : Names catalog d t.text
  | column {c : ColumnId} (hc : c ∈ d.namedColumns catalog) : Names catalog d c.text
  | tableOf {c : ColumnId} (hc : c ∈ d.namedColumns catalog) : Names catalog d c.table.text
  | joinId {j : Join} (hj : j ∈ d.joins) : Names catalog d j.id
  | formulaId {f : Formula} (hf : f ∈ d.formulas) : Names catalog d f.id
  | formulaName {f : Formula} (hf : f ∈ d.formulas) : Names catalog d f.name

theorem names_of_columnFaults {role : Role} {c : ColumnId} (hc : c ∈ d.namedColumns catalog)
    {f : ReferenceFault} (h : f ∈ d.columnFaults catalog role c) :
    ∀ s ∈ f.repeated, d.Names catalog s := by
  have hrepeated : f.repeated = [c.text, c.table.text] := by
    unfold columnFaults at h
    split_ifs at h with hc
    · split at h
      · cases h
      · split_ifs at h
        · cases h
        · rw [List.mem_singleton.1 h, ReferenceFault.repeated]
    · rw [List.mem_singleton.1 h, ReferenceFault.repeated]
  rw [hrepeated, List.forall_mem_cons, List.forall_mem_singleton]
  exact ⟨.column hc, .tableOf hc⟩

theorem names_of_joinFaults {j : Join} (hj : j ∈ d.joins) {f : ReferenceFault}
    (h : f ∈ d.joinFaults catalog j) : ∀ s ∈ f.repeated, d.Names catalog s := by
  have hsource : j.source ∈ d.namedColumns catalog := by
    simp only [namedColumns, List.mem_append, List.mem_flatMap]
    exact .inl (.inr ⟨j, hj, by simp⟩)
  have htarget : j.target ∈ d.namedColumns catalog := by
    simp only [namedColumns, List.mem_append, List.mem_flatMap]
    exact .inl (.inr ⟨j, hj, by simp⟩)
  unfold joinFaults at h
  split_ifs at h with hloop
  · rw [List.mem_singleton.1 h, ReferenceFault.repeated, List.forall_mem_cons,
      List.forall_mem_singleton]
    exact ⟨.joinId hj, .tableOf hsource⟩
  · rcases List.mem_append.1 h with h | h
    exacts [names_of_columnFaults hsource h, names_of_columnFaults htarget h]

/-- What is said about a dangling reference repeats names and ids of the draft. -/
theorem names_of_referenceFaults {f : ReferenceFault} (h : f ∈ d.referenceFaults catalog) :
    ∀ s ∈ f.repeated, d.Names catalog s := by
  simp only [referenceFaults, List.mem_append, List.mem_flatMap] at h
  rcases h with (((((h | ⟨c, hc, h⟩) | ⟨c, hc, h⟩) | ⟨g, hg, h⟩) | ⟨c, hc, h⟩) | ⟨k, hk, h⟩) | ⟨j, hj, h⟩
  · simp only [tableFaults, List.mem_map, List.mem_filter] at h
    obtain ⟨t, ⟨ht, _⟩, rfl⟩ := h
    rw [ReferenceFault.repeated, List.forall_mem_cons, List.forall_mem_singleton]
    exact ⟨.table ht, .catalog⟩
  · exact names_of_columnFaults (by simp [namedColumns, hc]) h
  · exact names_of_columnFaults (by simp [namedColumns, hc]) h
  · exact names_of_columnFaults (by simp [namedColumns, List.mem_map_of_mem hg]) h
  · exact names_of_columnFaults (by simp [namedColumns, hc]) h
  · exact names_of_columnFaults (by simp [namedColumns, List.mem_map_of_mem hk]) h
  · exact names_of_joinFaults hj h

/-- So does what is said about a rule that the draft breaks. -/
theorem Breaks.names {f : RuleFault} (h : d.Breaks catalog f) :
    ∀ s ∈ f.repeated, d.Names catalog s := by
  cases h with
  | blankAlias hf _ => exact List.forall_mem_singleton.2 (.formulaId hf)
  | @repeatedAlias name hname =>
    have hmem : name ∈ d.formulas.map Formula.name := List.count_pos_iff.1 (by omega)
    obtain ⟨f, hf, rfl⟩ := List.mem_map.1 hmem
    exact List.forall_mem_singleton.2 (.formulaName hf)
  | @ungrouped c _ hc _ =>
    have hmem : c ∈ d.namedColumns catalog := by
      obtain ⟨hnone, hc⟩ := hc
      split_ifs at hc
      · have := mem_impliedColumns_iff.2 ⟨hnone, hc⟩
        simp [namedColumns, this]
      · simp [namedColumns, hc]
    exact List.forall_mem_singleton.2 (.column hmem)
  | @noValues f hf _ _ =>
    have hmem : f.column ∈ d.namedColumns catalog := by
      simp [namedColumns, List.mem_map_of_mem hf]
    exact List.forall_mem_singleton.2 (.column hmem)

theorem names_of_compile {fault : Fault} (h : d.compile catalog = .error fault) :
    ∀ s ∈ fault.repeated, d.Names catalog s := by
  rcases compile_eq_error_cases h with ⟨rfl, _⟩ | ⟨f, rfl, _, hf⟩ | ⟨f, rfl, _, _, hf⟩ | ⟨rfl, _⟩
  · simp [Fault.repeated]
  · exact names_of_referenceFaults (List.mem_of_mem_head? hf)
  · exact hf.names
  · simp [Fault.repeated]

/-! ### The preview of a draft with a fault -/

theorem tryPreview_of_error {mark : String} {fault : Fault} (h : d.compile catalog = .error fault)
    (hlimit : fault ≠ .longLimit) : d.tryPreview catalog mark = .ok (d.preview catalog mark) := by
  unfold tryPreview
  rw [h]
  split
  · rename_i hlong
    exact absurd (Except.error.inj hlong) hlimit
  · rfl

/-- The preview of a draft with a fault is a comment: it starts with the mark, and if no text that
the message repeats has a line break, it is one line. Else it has a further line for each break. The
texts in question are names and ids of the draft and its catalog. It is shown unless the fault is a
limit that is too long. -/
theorem preview_commented {mark : String} {fault : Fault} (hmark : '\n' ∉ mark.toList)
    (h : d.compile catalog = .error fault) :
    (fault ≠ .longLimit → d.tryPreview catalog mark = .ok (d.preview catalog mark)) ∧
      (lines (d.preview catalog mark)).length = (fault.repeated.map lineBreaks).sum + 1 ∧
      (∃ first rest, lines (d.preview catalog mark) = first :: rest ∧ mark.toList <+: first) ∧
      ((∀ s ∈ fault.repeated, '\n' ∉ s.toList) →
        ∀ l ∈ lines (d.preview catalog mark), mark.toList <+: l) ∧
      ∀ s ∈ fault.repeated, d.Names catalog s := by
  have hpreview : d.preview catalog mark = mark ++ (" " ++ fault.kind ++ ": " ++ fault.message) := by
    unfold preview
    rw [h]
    simp only [String.append_assoc]
    rfl
  have hlength : (lines (d.preview catalog mark)).length = (fault.repeated.map lineBreaks).sum + 1 := by
    rw [length_lines, hpreview]
    simp (disch := decide) [lineBreaks_append, lineBreaks_of_not_mem, lineBreaks_of_not_mem hmark,
      Fault.lineBreaks_kind, Fault.lineBreaks_message]
  have hfirst : ∃ first rest, lines (d.preview catalog mark) = first :: rest ∧
      mark.toList <+: first := by
    rw [lines, hpreview, String.toList_append, splitOn_append_of_not_mem hmark]
    obtain ⟨p, ps, hp⟩ := List.exists_cons_of_ne_nil (List.splitOn_ne_nil '\n'
      (" " ++ fault.kind ++ ": " ++ fault.message).toList)
    exact ⟨_, _, by rw [hp, List.modifyHead_cons], List.prefix_append ..⟩
  refine ⟨tryPreview_of_error h, hlength, hfirst, fun hrepeated => ?_, names_of_compile h⟩
  obtain ⟨first, rest, hlines, hprefix⟩ := hfirst
  have hsum : (fault.repeated.map lineBreaks).sum = 0 :=
    List.sum_eq_zero fun n hn => by
      obtain ⟨s, hs, rfl⟩ := List.mem_map.1 hn
      exact lineBreaks_of_not_mem (hrepeated s hs)
  rw [hlines, hsum, List.length_cons] at hlength
  obtain rfl : rest = [] := List.length_eq_zero_iff.1 (by omega)
  rw [hlines]
  exact List.forall_mem_singleton.2 hprefix

end Draft

namespace Sample

/-- The shop's users, with a column whose name has a line break. -/
def brokenName : Draft where
  tables := [⟨"public", "users"⟩]
  columns := [⟨⟨"public", "users"⟩, "a\nb"⟩]

/-- The users with a column that they do not have. -/
def missingColumn : Draft where
  tables := [⟨"public", "users"⟩]
  columns := [⟨⟨"public", "users"⟩, "age"⟩]

def ageFault : Fault := .reference (.unknownColumn .selection ⟨⟨"public", "users"⟩, "age"⟩)

theorem preview_commented_missingColumn :
    '\n' ∉ "--".toList ∧ missingColumn.compile .shop = .error ageFault ∧
      (ageFault ≠ .longLimit →
        missingColumn.tryPreview .shop "--" = .ok (missingColumn.preview .shop "--")) ∧
      (lines (missingColumn.preview .shop "--")).length =
        (ageFault.repeated.map lineBreaks).sum + 1 ∧
      (∃ first rest, lines (missingColumn.preview .shop "--") = first :: rest ∧
        "--".toList <+: first) ∧
      ((∀ s ∈ ageFault.repeated, '\n' ∉ s.toList) →
        ∀ l ∈ lines (missingColumn.preview .shop "--"), "--".toList <+: l) ∧
      ∀ s ∈ ageFault.repeated, missingColumn.Names .shop s :=
  ⟨by decide, by decide, Draft.preview_commented (by decide) (by decide)⟩

/-- The column's name runs on to a line of its own. -/
theorem preview_brokenName :
    (∃ fault, brokenName.compile .shop = .error fault) ∧
      lines (brokenName.preview .shop "--") = [
        "-- StructuralError: Selected column 'public.users.a".toList,
        "b' does not exist on table 'public.users'".toList] ∧
      ¬ ∀ l ∈ lines (brokenName.preview .shop "--"), "--".toList <+: l := by
  have hlines : lines (brokenName.preview .shop "--") = [
      "-- StructuralError: Selected column 'public.users.a".toList,
      "b' does not exist on table 'public.users'".toList] := by decide
  refine ⟨⟨.reference (.unknownColumn .selection ⟨⟨"public", "users"⟩, "a\nb"⟩), by decide⟩, hlines, ?_⟩
  rw [hlines]
  decide

end Sample

end QueryDraft
