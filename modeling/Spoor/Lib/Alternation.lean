import Mathlib.Data.List.Basic

/-! # Openings and closings that take turns

A history of openings and closings is settled if each opening has its closing right
behind it, and pending if that is so up to one more opening at its end.
-/

namespace Spoor.Lib.Alternation

variable {α : Type*} {opens : α → Bool}

/-- Every opening is followed by one closing. -/
def settled (opens : α → Bool) : List α → Bool
  | [] => true
  | [_] => false
  | opening :: closing :: history => opens opening && !opens closing && settled opens history

/-- Every opening but the last is followed by one closing. -/
def Pending (opens : α → Bool) (history : List α) : Prop :=
  ∃ before opening, history = before ++ [opening] ∧ settled opens before = true ∧
    opens opening = true

theorem settled_append {front : List α} (done : settled opens front = true) (back : List α) :
    settled opens (front ++ back) = settled opens back := by
  induction front using settled.induct with
  | case1 => rfl
  | case2 => cases done
  | case3 opening closing history ih =>
      simp only [settled, Bool.and_eq_true] at done
      simp only [List.cons_append, settled, done.1.1, done.1.2, ih done.2, Bool.and_self,
        Bool.true_and]

theorem pending_of_settled {history : List α} {opening : α}
    (done : settled opens history = true) (opened : opens opening = true) :
    Pending opens (history ++ [opening]) :=
  ⟨history, opening, rfl, done, opened⟩

theorem Pending.close {history : List α} {closing : α} (pending : Pending opens history)
    (closes : opens closing = false) : settled opens (history ++ [closing]) = true := by
  obtain ⟨before, opening, rfl, done, opened⟩ := pending
  rw [List.append_assoc, settled_append done]
  simp [settled, opened, closes]

theorem Pending.not_settled {history : List α} (pending : Pending opens history) :
    settled opens history = false := by
  obtain ⟨before, opening, rfl, done, -⟩ := pending
  rw [settled_append done]
  rfl

end Spoor.Lib.Alternation
