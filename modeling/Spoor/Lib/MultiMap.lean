import Mathlib.Data.List.AList
import Mathlib.Data.List.Perm.Basic

/-! # Maps from keys to lists

A map with a list for each of its keys, in the order of its iteration.  A key may
be present with the empty list.  One map is absorbed by another one when the lists
of its keys are appended there, key by key.
-/

namespace Spoor.Lib

abbrev MultiMap (κ ν : Type) : Type := AList fun _ : κ => List ν

namespace MultiMap

variable {κ ν : Type} [DecidableEq κ]

/-- The list of a key, empty if the key is not there. -/
def values (map : MultiMap κ ν) (key : κ) : List ν := (map.lookup key).getD []

/-- Appends to the list of a key, which is there afterwards. -/
def append (map : MultiMap κ ν) (key : κ) (more : List ν) : MultiMap κ ν :=
  map.insert key (map.values key ++ more)

/-- Appends to the lists of all keys of another map. -/
def absorb (map source : MultiMap κ ν) : MultiMap κ ν :=
  source.entries.foldl (fun map entry => map.append entry.1 entry.2) map

@[simp] theorem values_append_self (map : MultiMap κ ν) (key : κ) (more : List ν) :
    (map.append key more).values key = map.values key ++ more := by
  rw [values, append, AList.lookup_insert, Option.getD_some]

theorem values_append_of_ne (map : MultiMap κ ν) {key other : κ} (different : other ≠ key)
    (more : List ν) : (map.append key more).values other = map.values other := by
  rw [values, append, AList.lookup_insert_ne different, values]

@[simp] theorem mem_append (map : MultiMap κ ν) (key other : κ) (more : List ν) :
    other ∈ map.append key more ↔ other = key ∨ other ∈ map :=
  AList.mem_insert map

theorem values_foldl_append {entries : List (Sigma fun _ : κ => List ν)}
    (distinct : entries.NodupKeys) (map : MultiMap κ ν) (key : κ) :
    (entries.foldl (fun map entry => map.append entry.1 entry.2) map).values key =
      map.values key ++ (entries.dlookup key).getD [] := by
  induction entries generalizing map with
  | nil => simp
  | cons entry entries ih =>
      obtain ⟨fresh, distinct⟩ := List.nodupKeys_cons.mp distinct
      rw [List.foldl_cons, ih distinct]
      by_cases same : key = entry.1
      · subst same
        rw [List.dlookup_eq_none.mpr fresh, List.dlookup_cons_eq, values_append_self,
          Option.getD_none, Option.getD_some, List.append_nil]
      · rw [values_append_of_ne _ same, List.dlookup_cons_ne _ _ same]

theorem mem_foldl_append (entries : List (Sigma fun _ : κ => List ν)) (map : MultiMap κ ν)
    (key : κ) :
    key ∈ entries.foldl (fun map entry => map.append entry.1 entry.2) map ↔
      key ∈ map ∨ key ∈ entries.keys := by
  induction entries generalizing map with
  | nil => simp
  | cons entry entries ih =>
      rw [List.foldl_cons, ih, mem_append, List.keys_cons, List.mem_cons]
      tauto

/-- The lists of the other map come behind those that are there, whatever the
    order of its iteration. -/
@[simp] theorem values_absorb (map source : MultiMap κ ν) (key : κ) :
    (map.absorb source).values key = map.values key ++ source.values key :=
  values_foldl_append source.nodupKeys map key

@[simp] theorem mem_absorb (map source : MultiMap κ ν) (key : κ) :
    key ∈ map.absorb source ↔ key ∈ map ∨ key ∈ source :=
  mem_foldl_append source.entries map key

/-- The values that come with a key. -/
def valuesOf (pairs : List (κ × ν)) (key : κ) : List ν :=
  (pairs.filter (·.1 = key)).map Prod.snd

theorem valuesOf_cons (pair : κ × ν) (pairs : List (κ × ν)) (key : κ) :
    valuesOf (pair :: pairs) key =
      (if key = pair.1 then [pair.2] else []) ++ valuesOf pairs key := by
  by_cases same : pair.1 = key
  · simp [valuesOf, same]
  · simp [valuesOf, same, Ne.symm same]

@[simp] theorem valuesOf_flatMap {α : Type} (list : List α) (f : α → List (κ × ν)) (key : κ) :
    valuesOf (list.flatMap f) key = list.flatMap fun a => valuesOf (f a) key := by
  simp only [valuesOf, List.filter_flatMap, List.map_flatMap]

theorem count_eq_count_valuesOf [DecidableEq ν] (pairs : List (κ × ν)) (pair : κ × ν) :
    pairs.count pair = (valuesOf pairs pair.1).count pair.2 := by
  rw [valuesOf, List.count, List.count, List.countP_map, List.countP_filter]
  apply List.countP_congr
  intro other _
  simp [Prod.ext_iff, and_comm]

/-- Pairs that give each key the same values are the same up to their order. -/
theorem perm_of_valuesOf {pairs pairs' : List (κ × ν)}
    (same : ∀ key, (valuesOf pairs key).Perm (valuesOf pairs' key)) : pairs.Perm pairs' := by
  classical
  apply List.perm_iff_count.mpr
  intro pair
  rw [count_eq_count_valuesOf, count_eq_count_valuesOf]
  exact (same pair.1).count_eq pair.2

end MultiMap

end Spoor.Lib
