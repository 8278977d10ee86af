/-!
# Maps in insertion order

`Entries` holds the operations on lists of pairs in which a key keeps its first place and its last
value; `OrderedMap` is such a list without repeated keys. `keys_put` says what setting an entry
does to the order of keys.
-/

namespace QueryDraft

namespace Entries

variable {κ ν : Type} [DecidableEq κ]

/-- Sets the value of a key, in its place or at the end. -/
def put : List (κ × ν) → κ → ν → List (κ × ν)
  | [], k, v => [(k, v)]
  | (k', v') :: es, k, v => if k' = k then (k, v) :: es else (k', v') :: put es k v

/-- Sets further entries, one after the other. -/
def putAll (es more : List (κ × ν)) : List (κ × ν) :=
  more.foldl (fun acc e => put acc e.1 e.2) es

/-- The entries with every key at its first place and with its last value. -/
def merge (es : List (κ × ν)) : List (κ × ν) :=
  putAll [] es

/-- The value of the first entry with a key. -/
def first? (es : List (κ × ν)) (k : κ) : Option ν :=
  (es.find? (·.1 = k)).map (·.2)

/-- The value of the last entry with a key. -/
def last? (es : List (κ × ν)) (k : κ) : Option ν :=
  first? es.reverse k

theorem keys_put (es : List (κ × ν)) (k : κ) (v : ν) :
    (put es k v).map Prod.fst =
      if k ∈ es.map Prod.fst then es.map Prod.fst else es.map Prod.fst ++ [k] := by
  induction es with
  | nil => simp [put]
  | cons e es ih =>
    obtain ⟨k', v'⟩ := e
    by_cases h : k' = k
    · simp [put, h]
    · simp only [put, h, if_false, List.map_cons, ih, List.mem_cons, Ne.symm h, false_or]
      split <;> simp

theorem nodup_put {es : List (κ × ν)} (h : (es.map Prod.fst).Nodup) (k : κ) (v : ν) :
    ((put es k v).map Prod.fst).Nodup := by
  rw [keys_put]
  split
  · exact h
  · rename_i hk
    rw [List.nodup_append]
    refine ⟨h, by simp, fun a ha b hb => ?_⟩
    rw [List.mem_singleton] at hb
    rintro rfl
    exact hk (hb ▸ ha)

theorem nodup_putAll {es : List (κ × ν)} (h : (es.map Prod.fst).Nodup) (more : List (κ × ν)) :
    ((putAll es more).map Prod.fst).Nodup := by
  induction more generalizing es with
  | nil => exact h
  | cons e more ih => exact ih (nodup_put h e.1 e.2)

end Entries

/-- A finite map that remembers the order in which its keys were first set. -/
structure OrderedMap (κ ν : Type) where
  entries : List (κ × ν) := []
  nodup_keys : (entries.map Prod.fst).Nodup := by simp

namespace OrderedMap

variable {κ ν : Type}

@[ext] theorem ext {a b : OrderedMap κ ν} (h : a.entries = b.entries) : a = b := by
  cases a; cases b; cases h; rfl

instance [DecidableEq κ] [DecidableEq ν] : DecidableEq (OrderedMap κ ν) := fun a b =>
  decidable_of_iff (a.entries = b.entries) ⟨ext, fun h => h ▸ rfl⟩

instance : EmptyCollection (OrderedMap κ ν) := ⟨{}⟩

def keys (m : OrderedMap κ ν) : List κ := m.entries.map Prod.fst

def isEmpty (m : OrderedMap κ ν) : Bool := m.entries.isEmpty

/-- The entries whose key satisfies a test. -/
def filterKeys (m : OrderedMap κ ν) (p : κ → Bool) : OrderedMap κ ν where
  entries := m.entries.filter (p ·.1)
  nodup_keys := m.nodup_keys.sublist (List.filter_sublist.map Prod.fst)

/-- The entries whose value satisfies a test. -/
def filterValues (m : OrderedMap κ ν) (p : ν → Bool) : OrderedMap κ ν where
  entries := m.entries.filter (p ·.2)
  nodup_keys := m.nodup_keys.sublist (List.filter_sublist.map Prod.fst)

variable [DecidableEq κ]

/-- The entries read one after the other, so that the last value of a key counts. -/
def ofList (es : List (κ × ν)) : OrderedMap κ ν where
  entries := Entries.merge es
  nodup_keys := Entries.nodup_putAll (by simp) es

def get? (m : OrderedMap κ ν) (k : κ) : Option ν := Entries.first? m.entries k

def insert (m : OrderedMap κ ν) (k : κ) (v : ν) : OrderedMap κ ν where
  entries := Entries.put m.entries k v
  nodup_keys := Entries.nodup_put m.nodup_keys k v

def erase (m : OrderedMap κ ν) (k : κ) : OrderedMap κ ν := m.filterKeys (· ≠ k)

end OrderedMap

/-- Appends a value that is not there yet. -/
def insertLast {α : Type} [DecidableEq α] (xs : List α) (a : α) : List α :=
  if a ∈ xs then xs else xs ++ [a]

/-- The values in order of first appearance. -/
def distinct {α : Type} [DecidableEq α] (xs : List α) : List α :=
  xs.foldl insertLast []

theorem mem_insertLast {α : Type} [DecidableEq α] {xs : List α} {a b : α} :
    b ∈ insertLast xs a ↔ b ∈ xs ∨ b = a := by
  unfold insertLast
  split
  · rename_i h
    exact ⟨.inl, fun h' => h'.elim id (· ▸ h)⟩
  · simp

theorem nodup_insertLast {α : Type} [DecidableEq α] {xs : List α} (h : xs.Nodup) (a : α) :
    (insertLast xs a).Nodup := by
  unfold insertLast
  split
  · exact h
  · rename_i ha
    rw [List.nodup_append]
    refine ⟨h, by simp, fun x hx b hb => ?_⟩
    rw [List.mem_singleton] at hb
    rintro rfl
    exact ha (hb ▸ hx)

end QueryDraft
