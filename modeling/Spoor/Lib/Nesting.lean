import Mathlib.Data.List.Basic

/-! # Nested brackets

A word of brackets opens and closes things that have names.  Replaying it keeps
the things that are open, the innermost first, and fails at a bracket that
closes another one than the innermost.  The words that leave nothing open are
those of the grammar of matching brackets.
-/

namespace Spoor.Lib.Nesting

inductive Bracket (α : Type*) where
  | enter (a : α)
  | exit (a : α)
  deriving Repr, DecidableEq

section Replay

variable {α : Type*} [DecidableEq α]

/-- The things open after a word, given those open before it. -/
def replay : List α → List (Bracket α) → Option (List α)
  | opened, [] => some opened
  | opened, .enter a :: word => replay (a :: opened) word
  | [], .exit _ :: _ => none
  | innermost :: opened, .exit a :: word =>
      if a = innermost then replay opened word else none

@[simp] theorem replay_nil (opened : List α) : replay opened [] = some opened := by
  cases opened <;> rfl

@[simp] theorem replay_enter (opened : List α) (a : α) (word : List (Bracket α)) :
    replay opened (.enter a :: word) = replay (a :: opened) word := by
  cases opened <;> rfl

@[simp] theorem replay_exit (opened : List α) (a : α) (word : List (Bracket α)) :
    replay (a :: opened) (.exit a :: word) = replay opened word := by
  simp [replay]

/-- What closes a thing closes the innermost one. -/
theorem replay_exit_eq_some {opened final : List α} {a : α} {word : List (Bracket α)}
    (replayed : replay opened (.exit a :: word) = some final) :
    ∃ outer, opened = a :: outer ∧ replay outer word = some final := by
  cases opened with
  | nil => simp [replay] at replayed
  | cons innermost outer =>
      rw [replay] at replayed
      split at replayed
      · case isTrue same => exact ⟨outer, by rw [same], replayed⟩
      · contradiction

theorem replay_append (opened : List α) (first second : List (Bracket α)) :
    replay opened (first ++ second) = (replay opened first).bind fun between =>
      replay between second := by
  induction first generalizing opened with
  | nil => simp
  | cons bracket first ih =>
      cases bracket with
      | enter a => simp [ih]
      | exit a =>
          cases opened with
          | nil => rfl
          | cons innermost opened =>
              simp only [List.cons_append, replay]
              split
              · exact ih opened
              · rfl

end Replay

section Balanced

variable {α : Type*}

/-- The words of matching brackets. -/
inductive Balanced : List (Bracket α) → Prop where
  | nil : Balanced []
  | wrap {a : α} {inner rest : List (Bracket α)} (inside : Balanced inner) (after : Balanced rest) :
      Balanced (.enter a :: inner ++ .exit a :: rest)

variable [DecidableEq α]

/-- What is innermost at first is closed after a word of matching brackets, or
    stays open. -/
theorem replay_split :
    ∀ (word : List (Bracket α)) {a : α} {opened final : List α},
      replay (a :: opened) word = some final →
      (∃ inner rest, word = inner ++ .exit a :: rest ∧ Balanced inner ∧
        replay opened rest = some final) ∨ ∃ more, final = more ++ a :: opened
  | [], a, opened, final, replayed => by
      obtain rfl : a :: opened = final := by simpa using replayed
      exact .inr ⟨[], rfl⟩
  | .exit b :: word, a, opened, final, replayed => by
      obtain ⟨outer, same, rest⟩ := replay_exit_eq_some replayed
      obtain ⟨rfl, rfl⟩ := List.cons_eq_cons.mp same
      exact .inl ⟨[], word, rfl, .nil, rest⟩
  | .enter b :: word, a, opened, final, replayed => by
      rw [replay_enter] at replayed
      rcases replay_split word replayed with ⟨inner, rest, rfl, inside, after⟩ | ⟨more, rfl⟩
      · have shorter : rest.length < (Bracket.enter b :: (inner ++ .exit b :: rest)).length := by
          simp
          omega
        rcases replay_split rest after with ⟨inner', rest', rfl, inside', after'⟩ | stays
        · exact .inl ⟨.enter b :: inner ++ .exit b :: inner', rest', by simp, .wrap inside inside',
            after'⟩
        · exact .inr stays
      · exact .inr ⟨more ++ [b], by simp⟩
termination_by word => word.length

/-- A word that leaves nothing open is one of matching brackets. -/
theorem balanced_of_replay : ∀ (word : List (Bracket α)), replay [] word = some [] → Balanced word
  | [], _ => .nil
  | .exit b :: word, replayed => by simp [replay] at replayed
  | .enter b :: word, replayed => by
      rw [replay_enter] at replayed
      rcases replay_split word replayed with ⟨inner, rest, rfl, inside, after⟩ | ⟨more, none⟩
      · have shorter : rest.length < (Bracket.enter b :: (inner ++ .exit b :: rest)).length := by
          simp
          omega
        exact .wrap inside (balanced_of_replay rest after)
      · simp at none
termination_by word => word.length

end Balanced

end Spoor.Lib.Nesting
