import Mathlib.Data.List.Nodup

/-!
# Insertion-ordered maps

A map that keeps its entries in the order in which their keys came in. A new
value for a key it has takes the place of the old one.
-/

namespace Xelt

universe u v

structure OrderedMap (κ : Type u) (α : Type v) where
  entries : List (κ × α)
  nodup : (entries.map Prod.fst).Nodup

namespace OrderedMap

variable {κ : Type u} {α : Type v} [DecidableEq κ]

def empty : OrderedMap κ α := ⟨[], List.nodup_nil⟩

def get (m : OrderedMap κ α) (key : κ) : Option α := m.entries.lookup key

def values (m : OrderedMap κ α) : List α := m.entries.map Prod.snd

/-- The entries with a new one for `key`, at the place of the old one or at the end. -/
def place (key : κ) (value : α) : List (κ × α) → List (κ × α)
  | [] => [(key, value)]
  | e :: rest => if e.1 = key then (key, value) :: rest else e :: place key value rest

theorem mem_keys_place {entries : List (κ × α)} :
    k ∈ (place key value entries).map Prod.fst ↔ k = key ∨ k ∈ entries.map Prod.fst := by
  induction entries with
  | nil => simp [place]
  | cons e rest ih =>
    by_cases he : e.1 = key
    · simp [place, he]
    · simp only [place, if_neg he, List.map_cons, List.mem_cons, ih]
      exact or_left_comm

theorem nodup_place {entries : List (κ × α)} (h : (entries.map Prod.fst).Nodup) :
    ((place key value entries).map Prod.fst).Nodup := by
  induction entries with
  | nil => simp [place]
  | cons e rest ih =>
    obtain ⟨hmem, hrest⟩ := List.nodup_cons.mp h
    by_cases he : e.1 = key
    · simpa [place, he] using List.nodup_cons.mpr ⟨he ▸ hmem, hrest⟩
    · simp only [place, if_neg he, List.map_cons]
      refine List.nodup_cons.mpr ⟨fun hk => ?_, ih hrest⟩
      exact (mem_keys_place.mp hk).elim he hmem

def set (m : OrderedMap κ α) (key : κ) (value : α) : OrderedMap κ α :=
  ⟨place key value m.entries, nodup_place m.nodup⟩

def delete (m : OrderedMap κ α) (key : κ) : OrderedMap κ α :=
  ⟨m.entries.filter (·.1 ≠ key), m.nodup.sublist (List.filter_sublist.map _)⟩

theorem lookup_cons (e : κ × α) (rest : List (κ × α)) :
    (e :: rest).lookup k = if k = e.1 then some e.2 else rest.lookup k := by
  rw [List.lookup_cons]
  by_cases hk : k = e.1 <;> simp [hk, beq_false_of_ne]

theorem lookup_place {entries : List (κ × α)} :
    (place key value entries).lookup k = if k = key then some value else entries.lookup k := by
  induction entries with
  | nil => simp only [place, lookup_cons, List.lookup_nil]
  | cons e rest ih =>
    by_cases he : e.1 = key
    · rw [place, if_pos he, lookup_cons, lookup_cons, he]
      split <;> rfl
    · simp only [place, if_neg he, lookup_cons, ih]
      by_cases hk : k = e.1
      · simp [hk, he]
      · simp [hk]

theorem get_set (m : OrderedMap κ α) :
    (m.set key value).get k = if k = key then some value else m.get k := lookup_place

theorem lookup_filter {entries : List (κ × α)} :
    (entries.filter (·.1 ≠ key)).lookup k = if k = key then none else entries.lookup k := by
  induction entries with
  | nil => simp
  | cons e rest ih =>
    by_cases he : e.1 = key
    · rw [List.filter_cons_of_neg (by simpa using he), ih, lookup_cons, he]
      split <;> rfl
    · rw [List.filter_cons_of_pos (by simpa using he), lookup_cons, ih, lookup_cons]
      by_cases hk : k = e.1
      · simp [hk, he]
      · simp [hk]

theorem get_delete (m : OrderedMap κ α) :
    (m.delete key).get k = if k = key then none else m.get k := lookup_filter

theorem mem_of_lookup {entries : List (κ × α)} (h : entries.lookup k = some a) :
    (k, a) ∈ entries := by
  induction entries with
  | nil => cases h
  | cons e rest ih =>
    rw [lookup_cons] at h
    split at h
    · rename_i hk
      cases h
      exact hk ▸ List.mem_cons_self
    · exact List.mem_cons_of_mem _ (ih h)

theorem lookup_of_mem {entries : List (κ × α)} (hn : (entries.map Prod.fst).Nodup)
    (h : (k, a) ∈ entries) : entries.lookup k = some a := by
  induction entries with
  | nil => cases h
  | cons e rest ih =>
    obtain ⟨hmem, hrest⟩ := List.nodup_cons.mp hn
    rw [lookup_cons]
    rcases List.mem_cons.mp h with rfl | h
    · simp
    · have hk : k ≠ e.1 := fun hk => hmem (hk ▸ List.mem_map.mpr ⟨(k, a), h, rfl⟩)
      rw [if_neg hk, ih hrest h]

/-- The values are what the keys are mapped to. -/
theorem mem_values (m : OrderedMap κ α) : a ∈ m.values ↔ ∃ k, m.get k = some a := by
  simp only [values, List.mem_map, Prod.exists, exists_eq_right, get]
  exact exists_congr fun k => ⟨lookup_of_mem m.nodup, mem_of_lookup⟩

end OrderedMap

end Xelt
