import Mathlib
import QueryDraft.Draft.Document

/-!
# What the reading of a part says

Looking up entries after some have been set (`first?_putAll`, `last?_putAll`), readings taken apart
(`field_eq_value`), and the fields that a join, filter, sort key or formula was read from
(`Join.ofEntries_eq_value` and its like).
-/

namespace QueryDraft

/-! ### Entries -/

namespace Entries

variable {κ ν : Type} [DecidableEq κ] {es more : List (κ × ν)} {k k' : κ} {v : ν}

theorem first?_cons (e : κ × ν) (es : List (κ × ν)) (k : κ) :
    first? (e :: es) k = if e.1 = k then some e.2 else first? es k := by
  unfold first?
  rw [List.find?_cons]
  by_cases h : e.1 = k <;> simp [h]

theorem first?_append (es more : List (κ × ν)) (k : κ) :
    first? (es ++ more) k = (first? es k).or (first? more k) := by
  induction es with
  | nil => rfl
  | cons e es ih =>
    rw [List.cons_append, first?_cons, first?_cons, ih]
    split <;> rfl

theorem first?_eq_none_iff : first? es k = none ↔ k ∉ es.map Prod.fst := by
  induction es with
  | nil => simp [first?]
  | cons e es ih =>
    rw [first?_cons, List.map_cons, List.mem_cons, not_or, ← ih, eq_comm (a := k)]
    split_ifs with h <;> simp [h]

theorem mem_of_first? (h : first? es k = some v) : (k, v) ∈ es := by
  obtain ⟨e, he, rfl⟩ := Option.map_eq_some_iff.1 h
  have hk : e.1 = k := by simpa using List.find?_some he
  exact hk ▸ List.mem_of_find?_eq_some he

theorem mem_of_last? (h : last? es k = some v) : (k, v) ∈ es :=
  List.mem_reverse.1 (mem_of_first? h)

theorem first?_put (es : List (κ × ν)) (k : κ) (v : ν) (k' : κ) :
    first? (put es k v) k' = if k' = k then some v else first? es k' := by
  induction es with
  | nil =>
    rw [put, first?_cons]
    simp only [eq_comm]
  | cons e es ih =>
    rw [put]
    split_ifs with he hk hk
    · rw [first?_cons, if_pos hk.symm]
    · rw [first?_cons, first?_cons, if_neg (Ne.symm hk), if_neg (fun h => hk (h.symm.trans he))]
    · subst hk
      rw [first?_cons, if_neg he, ih, if_pos rfl]
    · rw [first?_cons, first?_cons, ih, if_neg hk]

/-- The last of the further entries counts, else the first of those that were there. -/
theorem first?_putAll (es more : List (κ × ν)) (k : κ) :
    first? (putAll es more) k = (last? more k).or (first? es k) := by
  induction more generalizing es with
  | nil => rfl
  | cons e more ih =>
    have hlast : last? (e :: more) k = (last? more k).or (if e.1 = k then some e.2 else none) := by
      unfold last?
      rw [List.reverse_cons, first?_append, first?_cons]
      rfl
    show first? (putAll (put es e.1 e.2) more) k = _
    rw [ih, hlast, first?_put, Option.or_assoc]
    by_cases h : k = e.1
    · simp [h]
    · simp [h, Ne.symm h]

theorem last?_eq_first? (h : (es.map Prod.fst).Nodup) (k : κ) : last? es k = first? es k := by
  induction es with
  | nil => rfl
  | cons e es ih =>
    obtain ⟨he, hes⟩ := List.nodup_cons.1 h
    have hlast : last? (e :: es) k = (last? es k).or (if e.1 = k then some e.2 else none) := by
      unfold last?
      rw [List.reverse_cons, first?_append, first?_cons]
      rfl
    rw [hlast, ih hes, first?_cons]
    split_ifs with hk
    · subst hk
      rw [first?_eq_none_iff.2 he]
      rfl
    · rw [Option.or_none]

theorem last?_putAll (h : (es.map Prod.fst).Nodup) (more : List (κ × ν)) (k : κ) :
    last? (putAll es more) k = (last? more k).or (last? es k) := by
  rw [last?_eq_first? (nodup_putAll h more), first?_putAll, last?_eq_first? h]

theorem put_of_not_mem (h : k ∉ es.map Prod.fst) (v : ν) : put es k v = es ++ [(k, v)] := by
  induction es with
  | nil => rfl
  | cons e es ih =>
    rw [List.map_cons, List.mem_cons, not_or] at h
    rw [put, if_neg (Ne.symm h.1), ih h.2, List.cons_append]

theorem putAll_of_nodup (h : ((es ++ more).map Prod.fst).Nodup) : putAll es more = es ++ more := by
  induction more generalizing es with
  | nil => rw [List.append_nil]; rfl
  | cons e more ih =>
    have hsplit : es ++ e :: more = (es ++ [e]) ++ more := by simp
    have he : e.1 ∉ es.map Prod.fst := by
      rw [List.map_append, List.map_cons] at h
      exact fun hmem => (List.nodup_append.1 h).2.2 e.1 hmem e.1 (List.mem_cons_self ..) rfl
    show putAll (put es e.1 e.2) more = _
    rw [put_of_not_mem he, hsplit]
    exact ih (hsplit ▸ h)

theorem merge_of_nodup (h : (es.map Prod.fst).Nodup) : merge es = es := by
  have hnil : (([] ++ es).map Prod.fst).Nodup := h
  exact putAll_of_nodup hnil

end Entries

/-! ### Readings -/

namespace Reading

variable {α β : Type}

theorem map_eq_value {f : α → β} {r : Reading α} {b : β} :
    f <$> r = .value b ↔ ∃ a, r = .value a ∧ f a = b := by
  cases r <;> simp [Functor.map, map]

theorem ap_eq_value {f : Reading (α → β)} {r : Reading α} {b : β} :
    f <*> r = .value b ↔ ∃ g a, f = .value g ∧ r = .value a ∧ g a = b := seq_eq_value

theorem under_eq_value {r : Reading α} {step : Step} {a : α} :
    r.under step = .value a ↔ r = .value a := by
  cases r <;> simp [under]

theorem andThen_eq_value {r : Reading α} {f : α → Reading β} {b : β} :
    r.andThen f = .value b ↔ ∃ a, r = .value a ∧ f a = .value b := by
  cases r <;> simp [andThen]

theorem record_eq_value {v : Json} {es : List (String × Json)} :
    record v = .value es ↔ v.entries? = some es := by
  unfold record
  cases v.entries? <;> simp [fault]

/-- The entry that a field is read from. -/
def FieldName.entry? (name : FieldName) (es : List (String × Json)) : Option Json :=
  (Entries.last? es name.document).or (Entries.last? es name.plain)

theorem field_eq_value {name : FieldName} {default? : Option α} {read : Json → Reading α}
    {es : List (String × Json)} {a : α} : field name default? read es = .value a ↔
      (∃ v, name.entry? es = some v ∧ read v = .value a) ∨
        (name.entry? es = none ∧ default? = some a) := by
  unfold field FieldName.entry?
  cases Entries.last? es name.document with
  | some v => simp [under_eq_value]
  | none =>
    cases Entries.last? es name.plain with
    | some v => simp [under_eq_value]
    | none => cases default? <;> simp [fault, under]

theorem text_eq_value_iff {v : Json} {s : String} : text v = .value s ↔ v = .str s := by
  cases v <;> simp [text, fault]

theorem member_eq_value_iff {ofWord? : String → Option α} {v : Json} {a : α} :
    member ofWord? v = .value a ↔ ∃ s, v = .str s ∧ ofWord? s = some a := by
  cases v <;> simp [member, fault]
  split <;> simp_all

/-- A field that is read from an entry which is a text. -/
theorem field_of_entry {name : FieldName} {default? : Option α} {read : Json → Reading α}
    {es : List (String × Json)} {v : Json} {a : α} (hv : name.entry? es = some v)
    (hread : read v = .value a) : field name default? read es = .value a :=
  field_eq_value.2 (.inl ⟨v, hv, hread⟩)

end Reading

open Reading (field)

/-! ### Identifiers -/

theorem TableId.parse_eq_ok_iff {s : String} {t : TableId} : parse s = .ok t ↔ parse? s = some t := by
  unfold parse
  cases parse? s <;> simp

theorem ColumnId.parse_eq_ok_iff {s : String} {c : ColumnId} :
    parse s = .ok c ↔ parse? s = some c := by
  unfold parse
  cases parse? s <;> simp

theorem TableId.read_str {s : String} {t : TableId} :
    read (.str s) = .value t ↔ parse? s = some t := by
  rw [← parse_eq_ok_iff]
  unfold read
  cases h : parse s <;> simp [h, Reading.fault]

theorem ColumnId.read_str {s : String} {c : ColumnId} :
    read (.str s) = .value c ↔ parse? s = some c := by
  rw [← parse_eq_ok_iff]
  unfold read
  cases h : parse s <;> simp [h, Reading.fault]

/-! ### Parts of a draft -/

variable {fresh : String} {es : List (String × Json)}

theorem Join.ofEntries_eq_value {j : Join} : ofEntries fresh es = .value j ↔
    field ⟨"id", "id"⟩ (some fresh) Reading.text es = .value j.id ∧
    field ⟨"fromTable", "from_table"⟩ none TableId.read es = .value j.source.table ∧
    field ⟨"fromColumn", "from_column"⟩ none Reading.text es = .value j.source.name ∧
    field ⟨"type", "type"⟩ (some .inner) (Reading.member JoinKind.ofWord?) es = .value j.kind ∧
    field ⟨"toTable", "to_table"⟩ none TableId.read es = .value j.target.table ∧
    field ⟨"toColumn", "to_column"⟩ none Reading.text es = .value j.target.name := by
  simp only [ofEntries, Reading.ap_eq_value, Reading.map_eq_value]
  constructor
  · rintro ⟨_, _, ⟨_, _, ⟨_, _, ⟨_, _, ⟨_, _, ⟨_, hid, rfl⟩, hs, rfl⟩, hsc, rfl⟩, hk, rfl⟩, ht, rfl⟩,
      htc, rfl⟩
    exact ⟨hid, hs, hsc, hk, ht, htc⟩
  · rintro ⟨hid, hs, hsc, hk, ht, htc⟩
    exact ⟨_, _, ⟨_, _, ⟨_, _, ⟨_, _, ⟨_, _, ⟨_, hid, rfl⟩, hs, rfl⟩, hsc, rfl⟩, hk, rfl⟩, ht, rfl⟩,
      htc, rfl⟩

theorem Filter.ofEntries_eq_value {f : Filter} : ofEntries fresh es = .value f ↔
    field ⟨"id", "id"⟩ (some fresh) Reading.text es = .value f.id ∧
    field ⟨"column", "column"⟩ none ColumnId.read es = .value f.column ∧
    field ⟨"operator", "operator"⟩ (some .equal) (Reading.member Operator.ofWord?) es =
      .value f.operator ∧
    field ⟨"value", "value"⟩ (some "") readValue es = .value f.value := by
  simp only [ofEntries, Reading.ap_eq_value, Reading.map_eq_value]
  constructor
  · rintro ⟨_, _, ⟨_, _, ⟨_, _, ⟨_, hid, rfl⟩, hc, rfl⟩, ho, rfl⟩, hv, rfl⟩
    exact ⟨hid, hc, ho, hv⟩
  · rintro ⟨hid, hc, ho, hv⟩
    exact ⟨_, _, ⟨_, _, ⟨_, _, ⟨_, hid, rfl⟩, hc, rfl⟩, ho, rfl⟩, hv, rfl⟩

theorem SortKey.ofEntries_eq_value {s : SortKey} : ofEntries fresh es = .value s ↔
    field ⟨"id", "id"⟩ (some fresh) Reading.text es = .value s.id ∧
    field ⟨"column", "column"⟩ none ColumnId.read es = .value s.column ∧
    field ⟨"direction", "direction"⟩ (some .asc) (Reading.member Direction.ofWord?) es =
      .value s.direction := by
  simp only [ofEntries, Reading.ap_eq_value, Reading.map_eq_value]
  constructor
  · rintro ⟨_, _, ⟨_, _, ⟨_, hid, rfl⟩, hc, rfl⟩, hd, rfl⟩
    exact ⟨hid, hc, hd⟩
  · rintro ⟨hid, hc, hd⟩
    exact ⟨_, _, ⟨_, _, ⟨_, hid, rfl⟩, hc, rfl⟩, hd, rfl⟩

theorem Formula.ofEntries_eq_value {f : Formula} : ofEntries fresh es = .value f ↔
    field ⟨"id", "id"⟩ (some fresh) Reading.text es = .value f.id ∧
    field ⟨"alias", "alias"⟩ none Reading.text es = .value f.name ∧
    field ⟨"expression", "expression"⟩ none Reading.text es = .value f.expression := by
  simp only [ofEntries, Reading.ap_eq_value, Reading.map_eq_value]
  constructor
  · rintro ⟨_, _, ⟨_, _, ⟨_, hid, rfl⟩, hn, rfl⟩, he, rfl⟩
    exact ⟨hid, hn, he⟩
  · rintro ⟨hid, hn, he⟩
    exact ⟨_, _, ⟨_, _, ⟨_, hid, rfl⟩, hn, rfl⟩, he, rfl⟩

end QueryDraft
