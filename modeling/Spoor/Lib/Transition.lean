import Mathlib.Data.List.Basic
import Mathlib.Data.List.Induction

/-! # Labelled runs of partial step functions

A system is a partial step function on states and labels.  The label carries
every choice the system does not make itself: which thread moves, what a clock
reads, whether a call fails.  A run is a list of labels, so quantifying over
label lists quantifies over every interleaving and every outcome.

The invariant rules are stated for the end of a run.  Every prefix of a run is
a run, so they speak about every state a run passes through.
-/

namespace Spoor.Lib.Transition

variable {σ α : Type*} {step : σ → α → Option σ}

/-- The state after taking the labels in order, if each is enabled in turn. -/
def exec (step : σ → α → Option σ) : σ → List α → Option σ
  | s, [] => some s
  | s, a :: labels => (step s a).bind fun t => exec step t labels

@[simp] theorem exec_nil (s : σ) : exec step s [] = some s := rfl

@[simp] theorem exec_cons (s : σ) (a : α) (labels : List α) :
    exec step s (a :: labels) = (step s a).bind fun t => exec step t labels := rfl

theorem exec_append (s : σ) (left right : List α) :
    exec step s (left ++ right) = (exec step s left).bind fun t => exec step t right := by
  induction left generalizing s with
  | nil => rfl
  | cons a left ih =>
      cases taken : step s a with
      | none => simp [taken]
      | some t => simp [taken, ih]

theorem exec_concat {s u : σ} {labels : List α} {a : α} :
    exec step s (labels ++ [a]) = some u ↔
      ∃ t, exec step s labels = some t ∧ step t a = some u := by
  rw [exec_append]
  cases reached : exec step s labels with
  | none => simp
  | some t => cases taken : step t a <;> simp [taken]

/-- Every step of the run is taken from a state, and with a label, that meet
    the condition.  This is a condition on the run, not on the states it ends in. -/
def Meets (step : σ → α → Option σ) (condition : σ → α → Prop) (s : σ) (labels : List α) :
    Prop :=
  ∀ before a after t, labels = before ++ a :: after → exec step s before = some t →
    condition t a

theorem Meets.nil (condition : σ → α → Prop) (s : σ) : Meets step condition s [] := by
  intro before a after t split
  simp at split

theorem meets_cons {condition : σ → α → Prop} {s : σ} {a : α} {labels : List α} :
    Meets step condition s (a :: labels) ↔
      condition s a ∧ ∀ t, step s a = some t → Meets step condition t labels := by
  constructor
  · intro meets
    refine ⟨meets [] a labels s rfl rfl, ?_⟩
    intro t taken before b after u split reached
    exact meets (a :: before) b after u (by simp [split]) (by simp [taken, reached])
  · rintro ⟨first, rest⟩ before b after u split reached
    cases before with
    | nil =>
        obtain ⟨rfl, rfl⟩ : a = b ∧ labels = after := by simpa using split
        obtain rfl : s = u := by simpa using reached
        exact first
    | cons c before =>
        obtain ⟨rfl, rfl⟩ : a = c ∧ labels = before ++ b :: after := by simpa using split
        cases taken : step s a with
        | none => simp [taken] at reached
        | some t => exact rest t taken before b after u rfl (by simpa [taken] using reached)

instance decidableMeets {condition : σ → α → Prop} [∀ s a, Decidable (condition s a)] :
    ∀ s labels, Decidable (Meets step condition s labels)
  | s, [] => .isTrue (.nil condition s)
  | s, a :: labels =>
      match taken : step s a with
      | none => decidable_of_iff (condition s a) (by simp [meets_cons, taken])
      | some t =>
          have : Decidable (Meets step condition t labels) := decidableMeets t labels
          decidable_of_iff (condition s a ∧ Meets step condition t labels)
            (by simp [meets_cons, taken])

theorem meets_concat {condition : σ → α → Prop} {s : σ} {labels : List α} {a : α} :
    Meets step condition s (labels ++ [a]) ↔
      Meets step condition s labels ∧
        ∀ t, exec step s labels = some t → condition t a := by
  constructor
  · intro meets
    refine ⟨?_, fun t reached => meets labels a [] t rfl reached⟩
    intro before b after t split reached
    exact meets before b (after ++ [a]) t (by simp [split]) reached
  · rintro ⟨meets, last⟩ before b after t split reached
    rcases List.eq_nil_or_concat after with rfl | ⟨rest, c, rfl⟩
    · obtain ⟨rfl, rfl⟩ : labels = before ∧ a = b := by simpa using split
      exact last t reached
    · rw [List.concat_eq_append, ← List.cons_append, ← List.append_assoc] at split
      obtain ⟨inside, -⟩ := List.append_inj' split rfl
      exact meets before b rest t inside reached

/-- A condition on a run is a condition on each of its prefixes. -/
theorem Meets.take {condition : σ → α → Prop} {s : σ} {before after : List α}
    (meets : Meets step condition s (before ++ after)) : Meets step condition s before := by
  intro earlier a later t split reached
  exact meets earlier a (later ++ after) t (by simp [split]) reached

/-- A condition on labels alone is met when every label meets it. -/
theorem meets_of_forall {condition : α → Prop} {s : σ} {labels : List α}
    (each : ∀ a ∈ labels, condition a) : Meets step (fun _ a => condition a) s labels := by
  intro before a after t split _
  exact each a (by simp [split])

theorem Meets.and {first second : σ → α → Prop} {s : σ} {labels : List α}
    (left : Meets step first s labels) (right : Meets step second s labels) :
    Meets step (fun t a => first t a ∧ second t a) s labels :=
  fun before a after t split reached =>
    ⟨left before a after t split reached, right before a after t split reached⟩

/-- A property of the labels taken so far and the state they lead to holds at
    the end of every conforming run if it holds at the start and every
    conforming step keeps it. -/
theorem history_invariant (condition : σ → α → Prop) {start : σ}
    (holds : List α → σ → Prop) (initially : holds [] start)
    (kept : ∀ labels t a u, holds labels t → condition t a → step t a = some u →
      holds (labels ++ [a]) u)
    {labels : List α} {s : σ} (meets : Meets step condition start labels)
    (reached : exec step start labels = some s) : holds labels s := by
  induction labels using List.reverseRecOn generalizing s with
  | nil =>
      obtain rfl : start = s := by simpa using reached
      exact initially
  | append_singleton labels a ih =>
      obtain ⟨t, before, taken⟩ := exec_concat.mp reached
      obtain ⟨earlier, last⟩ := meets_concat.mp meets
      exact kept labels t a s (ih earlier before) (last t before) taken

/-- The state form of `history_invariant`. -/
theorem invariant (condition : σ → α → Prop) {start : σ}
    (holds : σ → Prop) (initially : holds start)
    (kept : ∀ t a u, holds t → condition t a → step t a = some u → holds u)
    {labels : List α} {s : σ} (meets : Meets step condition start labels)
    (reached : exec step start labels = some s) : holds s :=
  history_invariant condition (fun _ => holds) initially
    (fun _ t a u held conforms taken => kept t a u held conforms taken) meets reached

/-- Without a condition on the steps, an invariant holds at the end of every run. -/
theorem invariant_always {start : σ} (holds : σ → Prop) (initially : holds start)
    (kept : ∀ t a u, holds t → step t a = some u → holds u)
    {labels : List α} {s : σ} (reached : exec step start labels = some s) : holds s :=
  invariant (fun _ _ => True) holds initially
    (fun t a u held _ taken => kept t a u held taken) (fun _ _ _ _ _ _ => trivial) reached

/-- A rank that each counted step lowers bounds how many of them a run has.  What
    other steps add to the rank, they add to the credit as well. -/
theorem countP_le_rank (condition : σ → α → Prop) {start : σ} (counts : α → Bool)
    (holds : σ → Prop) (rank credit : σ → Nat) (initially : holds start)
    (pays : ∀ t a u, holds t → condition t a → step t a = some u →
      holds u ∧ rank u + (if counts a then 1 else 0) + credit t ≤ rank t + credit u)
    {labels : List α} {s : σ} (meets : Meets step condition start labels)
    (reached : exec step start labels = some s) :
    holds s ∧ rank s + labels.countP counts + credit start ≤ rank start + credit s := by
  refine history_invariant condition (fun labels s => holds s ∧
    rank s + labels.countP counts + credit start ≤ rank start + credit s)
    ⟨initially, by simp⟩ ?_ meets reached
  rintro labels t a u ⟨held, spent⟩ conforms taken
  obtain ⟨held', paid⟩ := pays t a u held conforms taken
  refine ⟨held', ?_⟩
  rw [List.countP_append, List.countP_singleton]
  omega

end Spoor.Lib.Transition
