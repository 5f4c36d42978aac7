import Mathlib.Algebra.BigOperators.Group.List.Basic
import Mathlib.Algebra.Order.Ring.Int

/-! # Texts joined by a delimiter

Parts joined by a delimiter are found again by splitting at it exactly if none of
them contains it, and the number of parts tells whether one does.
-/

namespace Spoor.Lib.Delimited

variable {α : Type}

theorem length_splitOn [BEq α] (delimiter : α) (text : List α) :
    (text.splitOn delimiter).length = text.count delimiter + 1 := by
  induction text with
  | nil => rfl
  | cons char text ih =>
      rw [List.splitOn_cons_eq_if_modifyHead, List.count_cons]
      split <;> simp [ih]

theorem intercalate_cons (delimiter : α) (part : List α) (parts : List (List α)) :
    [delimiter].intercalate (part :: parts) = part ++ parts.flatMap (delimiter :: ·) := by
  induction parts generalizing part with
  | nil => simp [List.intercalate]
  | cons next parts ih =>
      have rest := ih next
      simp only [List.intercalate, List.intersperse_cons_cons, List.flatten_cons] at rest ⊢
      rw [rest]
      simp

theorem mem_intercalate {delimiter char : α} {part : List α} {parts : List (List α)}
    (listed : part ∈ parts) (held : char ∈ part) : char ∈ [delimiter].intercalate parts := by
  cases parts with
  | nil => simp at listed
  | cons first parts =>
      rw [intercalate_cons]
      cases listed with
      | head => exact List.mem_append_left _ held
      | tail _ later =>
          apply List.mem_append_right
          exact List.mem_flatMap.mpr ⟨part, later, List.mem_cons_of_mem _ held⟩

theorem of_mem_intercalate {delimiter char : α} {parts : List (List α)}
    (held : char ∈ [delimiter].intercalate parts) :
    char = delimiter ∨ ∃ part ∈ parts, char ∈ part := by
  cases parts with
  | nil => simp [List.intercalate] at held
  | cons first parts =>
      rw [intercalate_cons, List.mem_append, List.mem_flatMap] at held
      obtain inFirst | ⟨part, listed, inPart⟩ := held
      · exact .inr ⟨first, List.mem_cons_self, inFirst⟩
      · cases inPart with
        | head => exact .inl rfl
        | tail _ inner => exact .inr ⟨part, List.mem_cons_of_mem _ listed, inner⟩

variable [BEq α] [LawfulBEq α]

theorem count_intercalate_cons (delimiter : α) (part : List α) (parts : List (List α)) :
    ([delimiter].intercalate (part :: parts)).count delimiter =
      ((part :: parts).map (List.count delimiter)).sum + parts.length := by
  rw [intercalate_cons, List.count_append, List.map_cons, List.sum_cons, Nat.add_assoc]
  congr 1
  induction parts with
  | nil => rfl
  | cons next parts ih =>
      rw [List.flatMap_cons, List.count_append, List.count_cons_self, ih, List.map_cons,
        List.sum_cons, List.length_cons]
      omega

/-- Splitting gives as many parts as were joined exactly if none of them contains
    the delimiter. -/
theorem length_splitOn_intercalate_iff {delimiter : α} {parts : List (List α)}
    (some : parts ≠ []) :
    (([delimiter].intercalate parts).splitOn delimiter).length = parts.length ↔
      ∀ part ∈ parts, delimiter ∉ part := by
  cases parts with
  | nil => contradiction
  | cons part parts =>
      rw [length_splitOn, count_intercalate_cons, List.length_cons]
      have none : ((part :: parts).map (List.count delimiter)).sum = 0 ↔
          ∀ joined ∈ part :: parts, delimiter ∉ joined := by
        rw [List.sum_eq_zero_iff_forall_eq_nat]
        simp only [List.mem_map, forall_exists_index, and_imp, forall_apply_eq_imp_iff₂,
          List.count_eq_zero]
      rw [← none]
      omega

end Spoor.Lib.Delimited
