import Spoor.Buffer.Accounting
import Spoor.Lib.Threads
import Spoor.Lib.Transition

/-! # The dynamic pool under concurrent borrowers

`Borrow` loads the number of borrowed items, computes from it how large a slice
there is room for, and exchanges the sum for the number it loaded.  The exchange
fails when another thread changed the number in the meantime, and it may fail for
no reason; then `Borrow` starts over until its attempts are used up.  `Return`
subtracts the capacity of the slice.

A successful exchange finds the number it loaded, so what it computed from a
stale load is right at that moment.
-/

namespace Spoor.Buffer.DynamicBufferSlicePool

open Lib.MachineInteger Lib.Threads Lib.Transition

variable {τ : Type}

/-- Where a thread stands in `Borrow`: the step it takes next. -/
inductive Position where
  | idle
  | load (preferred attempt : Nat)
  | exchange (preferred attempt loaded : Nat)
  deriving Repr, DecidableEq

/-- The capacities of the slices a thread holds. -/
structure Thread where
  position : Position
  held : Multiset Nat

structure System (τ : Type) where
  pool : DynamicBufferSlicePool
  threads : τ → Thread

/-- `exchange` carries whether it fails for no reason. -/
inductive Action (τ : Type) where
  | borrow (t : τ) (preferred : Nat)
  | load (t : τ)
  | exchange (t : τ) (spurious : Bool)
  | handOver (t u : τ) (capacity : Nat)
  | giveBack (t : τ) (capacity : Nat)

namespace Action

/-- The thread that takes the step. -/
def thread : Action τ → τ
  | .borrow t _ | .load t | .exchange t _ | .handOver t _ _ | .giveBack t _ => t

/-- The step is part of `Borrow`. -/
def isBorrow : Action τ → Bool
  | .borrow _ _ | .load _ | .exchange _ _ => true
  | .handOver _ _ _ | .giveBack _ _ => false

end Action

namespace System

def start (o : Options) (τ : Type) : System τ where
  pool := .new o
  threads _ := ⟨.idle, 0⟩

/-- The slice an attempt asks for, by the number of borrowed items it loaded. -/
def asked (s : System τ) (preferred loaded : Nat) : Nat :=
  bufferSize { s.pool with borrowedItemsSize := loaded } preferred

/-- The start of an attempt, or the end of the loop. -/
def attempt (s : System τ) (preferred attempt : Nat) : Position :=
  if attempt < s.pool.options.borrowCasAttempts then .load preferred attempt else .idle

variable [DecidableEq τ]

def set (s : System τ) (t : τ) (thread : Thread) : System τ :=
  { s with threads := Function.update s.threads t thread }

@[simp] theorem set_self (s : System τ) (t : τ) (thread : Thread) :
    (s.set t thread).threads t = thread := Function.update_self ..

theorem set_of_ne (s : System τ) {t u : τ} (other : u ≠ t) (thread : Thread) :
    (s.set t thread).threads u = s.threads u := Function.update_of_ne other ..

def move (s : System τ) (t : τ) (position : Position) : System τ :=
  s.set t { s.threads t with position }

def release (s : System τ) (t : τ) (capacity : Nat) : System τ :=
  s.set t { s.threads t with held := (s.threads t).held.erase capacity }

def receive (s : System τ) (t : τ) (capacity : Nat) : System τ :=
  s.set t { s.threads t with held := capacity ::ₘ (s.threads t).held }

theorem position_release (s : System τ) (t u : τ) (capacity : Nat) :
    ((s.release t capacity).threads u).position = (s.threads u).position := by
  by_cases same : u = t
  · subst same
    rw [release, set_self]
  · rw [release, set_of_ne _ same]

theorem position_receive (s : System τ) (t u : τ) (capacity : Nat) :
    ((s.receive t capacity).threads u).position = (s.threads u).position := by
  by_cases same : u = t
  · subst same
    rw [receive, set_self]
  · rw [receive, set_of_ne _ same]

/-- A successful exchange; it grants a slice unless there is no room. -/
def exchanged (s : System τ) (t : τ) (preferred loaded : Nat) : System τ :=
  { if s.asked preferred loaded < 1 then s.move t .idle
    else s.set t ⟨.idle, s.asked preferred loaded ::ₘ (s.threads t).held⟩ with
    pool := { s.pool with borrowedItemsSize := addSize loaded (s.asked preferred loaded) } }

def step (s : System τ) : Action τ → Option (System τ)
  | .borrow t preferred =>
      if (s.threads t).position = .idle then some (s.move t (s.attempt preferred 0)) else none
  | .load t =>
      match (s.threads t).position with
      | .load preferred attempt =>
          some (s.move t (.exchange preferred attempt s.pool.borrowedItemsSize))
      | _ => none
  | .exchange t spurious =>
      match (s.threads t).position with
      | .exchange preferred attempt loaded =>
          if s.pool.borrowedItemsSize = loaded ∧ spurious = false then
            some (s.exchanged t preferred loaded)
          else some (s.move t (s.attempt preferred (attempt + 1)))
      | _ => none
  | .handOver t u capacity =>
      if (s.threads t).position = .idle ∧ capacity ∈ (s.threads t).held then
        some ((s.release t capacity).receive u capacity)
      else none
  | .giveBack t capacity =>
      if (s.threads t).position = .idle ∧ capacity ∈ (s.threads t).held then
        some
          { s.release t capacity with
            pool := { s.pool with borrowedItemsSize := subSize s.pool.borrowedItemsSize capacity } }
      else none

/-- What a step does, with what it needs. -/
inductive Effect (s : System τ) : Action τ → System τ → Prop where
  | borrow {t : τ} {preferred : Nat} (idle : (s.threads t).position = .idle) :
      Effect s (.borrow t preferred) (s.move t (s.attempt preferred 0))
  | load {t : τ} {preferred attempt : Nat}
      (stands : (s.threads t).position = .load preferred attempt) :
      Effect s (.load t) (s.move t (.exchange preferred attempt s.pool.borrowedItemsSize))
  | exchanged {t : τ} {spurious : Bool} {preferred attempt : Nat}
      (stands : (s.threads t).position =
        .exchange preferred attempt s.pool.borrowedItemsSize) :
      Effect s (.exchange t spurious) (s.exchanged t preferred s.pool.borrowedItemsSize)
  | failed {t : τ} {spurious : Bool} {preferred attempt loaded : Nat}
      (stands : (s.threads t).position = .exchange preferred attempt loaded) :
      Effect s (.exchange t spurious) (s.move t (s.attempt preferred (attempt + 1)))
  | handOver {t u : τ} {capacity : Nat} (idle : (s.threads t).position = .idle)
      (holds : capacity ∈ (s.threads t).held) :
      Effect s (.handOver t u capacity) ((s.release t capacity).receive u capacity)
  | giveBack {t : τ} {capacity : Nat} (idle : (s.threads t).position = .idle)
      (holds : capacity ∈ (s.threads t).held) :
      Effect s (.giveBack t capacity)
        { s.release t capacity with
          pool := { s.pool with borrowedItemsSize := subSize s.pool.borrowedItemsSize capacity } }

theorem step_effect {s s' : System τ} {a : Action τ} (taken : s.step a = some s') :
    Effect s a s' := by
  cases a with
  | borrow t preferred =>
      simp only [step, Option.ite_none_right_eq_some, Option.some.injEq] at taken
      obtain ⟨idle, rfl⟩ := taken
      exact .borrow idle
  | load t =>
      simp only [step] at taken
      split at taken
      case h_1 preferred attempt stands =>
        obtain rfl := Option.some.inj taken
        exact .load stands
      case h_2 => cases taken
  | exchange t spurious =>
      simp only [step] at taken
      split at taken
      case h_1 preferred attempt loaded stands =>
        split at taken
        · rename_i succeeds
          obtain ⟨rfl, -⟩ := succeeds
          obtain rfl := Option.some.inj taken
          exact .exchanged stands
        · obtain rfl := Option.some.inj taken
          exact .failed stands
      case h_2 => cases taken
  | handOver t u capacity =>
      simp only [step, Option.ite_none_right_eq_some, Option.some.injEq] at taken
      obtain ⟨⟨idle, holds⟩, rfl⟩ := taken
      exact .handOver idle holds
  | giveBack t capacity =>
      simp only [step, Option.ite_none_right_eq_some, Option.some.injEq] at taken
      obtain ⟨⟨idle, holds⟩, rfl⟩ := taken
      exact .giveBack idle holds

/-- An exchange that finds no room changes nothing. -/
theorem exchanged_zero {s : System τ} (small : s.pool.borrowedItemsSize < sizeModulus) {t : τ}
    {preferred : Nat} (none : s.asked preferred s.pool.borrowedItemsSize < 1) :
    s.exchanged t preferred s.pool.borrowedItemsSize = s.move t .idle := by
  have zero : s.asked preferred s.pool.borrowedItemsSize = 0 := by omega
  have same : addSize s.pool.borrowedItemsSize 0 = s.pool.borrowedItemsSize := addSize_of_lt small
  simp only [exchanged, zero, same]
  rfl

/-! ## Accounting -/

section Accounting

variable [Fintype τ] {o : Options} {s s' : System τ}

/-- The counter accounts for the slices of all threads, and what a thread loaded
    was such a counter. -/
structure Valid (o : Options) (s : System τ) : Prop where
  options : s.pool.options = o
  accounts : s.pool.Accounts (total Thread.held s.threads)
  loads : ∀ t preferred attempt loaded,
    (s.threads t).position = .exchange preferred attempt loaded → loaded ≤ s.pool.capacity

omit [DecidableEq τ] in
theorem Valid.initially (o : Options) : (start o τ).Valid o := by
  refine ⟨rfl, ?_, ?_⟩
  · have none : total Thread.held (start o τ).threads = 0 := total_zero fun t => rfl
    rw [none]
    exact .initially o
  · intro t preferred attempt loaded stands
    cases stands

/-- The loads of the other threads stay what they were. -/
theorem Valid.loads_set (valid : s.Valid o) {t : τ} {thread : Thread}
    (own : ∀ preferred attempt loaded, thread.position = .exchange preferred attempt loaded →
      loaded ≤ s.pool.capacity) :
    ∀ u preferred attempt loaded,
      ((s.set t thread).threads u).position = .exchange preferred attempt loaded →
        loaded ≤ s.pool.capacity := by
  intro u preferred attempt loaded stands
  by_cases same : u = t
  · subst same
    rw [set_self] at stands
    exact own preferred attempt loaded stands
  · rw [set_of_ne _ same] at stands
    exact valid.loads u preferred attempt loaded stands

theorem Valid.moved (valid : s.Valid o) {t : τ} {position : Position}
    (own : ∀ preferred attempt loaded, position = .exchange preferred attempt loaded →
      loaded ≤ s.pool.capacity) : (s.move t position).Valid o := by
  refine ⟨valid.options, ?_, valid.loads_set own⟩
  have same : total Thread.held (s.move t position).threads = total Thread.held s.threads :=
    total_update_same rfl
  rw [same]
  exact valid.accounts

omit [DecidableEq τ] [Fintype τ] in
theorem attempt_ne_exchange (s : System τ) {preferred next other failures loaded : Nat} :
    s.attempt preferred next ≠ .exchange other failures loaded := by
  unfold attempt
  split <;> simp

theorem held_receive (s : System τ) (t : τ) (capacity : Nat) :
    total Thread.held (s.receive t capacity).threads =
      capacity ::ₘ total Thread.held s.threads := by
  apply total_update_gains
  rfl

theorem held_release {t : τ} {capacity : Nat} (holds : capacity ∈ (s.threads t).held) :
    total Thread.held s.threads =
      capacity ::ₘ total Thread.held (s.release t capacity).threads := by
  apply total_update_loses
  exact (Multiset.cons_erase holds).symm

/-- A slice that is granted is smaller than what is left. -/
theorem Valid.granted (valid : s.Valid o) (t : τ) (preferred : Nat) :
    (s.exchanged t preferred s.pool.borrowedItemsSize).Valid o := by
  obtain ⟨fits, sum⟩ := valid.accounts.exchange preferred
  have size : s.asked preferred s.pool.borrowedItemsSize = s.pool.bufferSize preferred := rfl
  have idle : ∀ preferred attempt loaded, Position.idle = .exchange preferred attempt loaded →
      loaded ≤ s.pool.capacity := by simp
  by_cases none : s.asked preferred s.pool.borrowedItemsSize < 1
  · have bounded := valid.accounts.bounded
    rw [exchanged_zero (Nat.lt_of_le_of_lt bounded s.pool.options.representable) none]
    exact valid.moved idle
  · have more : total Thread.held (s.exchanged t preferred s.pool.borrowedItemsSize).threads =
        s.pool.bufferSize preferred ::ₘ total Thread.held s.threads := by
      rw [exchanged, if_neg none]
      apply total_update_gains
      rw [size]
    refine ⟨valid.options, ⟨?_, ?_⟩, ?_⟩
    · rw [more, Multiset.sum_cons, ← valid.accounts.borrowed, Nat.add_comm]
      exact sum
    · exact Nat.le_trans (Nat.le_of_eq sum) fits
    · rw [exchanged, if_neg none]
      exact valid.loads_set idle

theorem Valid.handedOver (valid : s.Valid o) {t u : τ} {capacity : Nat}
    (holds : capacity ∈ (s.threads t).held) :
    ((s.release t capacity).receive u capacity).Valid o := by
  refine ⟨valid.options, ?_, ?_⟩
  · rw [held_receive, ← held_release holds]
    exact valid.accounts
  · intro v preferred attempt loaded stands
    rw [position_receive, position_release] at stands
    exact valid.loads v preferred attempt loaded stands

theorem Valid.givenBack (valid : s.Valid o) {t : τ} {capacity : Nat}
    (holds : capacity ∈ (s.threads t).held) :
    Valid o { s.release t capacity with
      pool := { s.pool with
        borrowedItemsSize := subSize s.pool.borrowedItemsSize capacity } } := by
  refine ⟨valid.options, ?_, ?_⟩
  · have accounts := valid.accounts
    rw [held_release holds] at accounts
    exact @Accounts.returned Unit _ _ (.owned (.new capacity)) accounts
  · intro v preferred attempt loaded stands
    rw [position_release] at stands
    exact valid.loads v preferred attempt loaded stands

theorem Valid.step {a : Action τ} (valid : s.Valid o) (taken : s.step a = some s') :
    s'.Valid o := by
  cases step_effect taken with
  | borrow _ | failed _ =>
      apply valid.moved
      intro preferred attempt loaded same
      exact absurd same s.attempt_ne_exchange
  | load _ =>
      apply valid.moved
      intro preferred attempt loaded same
      obtain ⟨-, -, rfl⟩ := Position.exchange.inj same
      exact valid.accounts.bounded
  | exchanged _ => exact valid.granted _ _
  | handOver _ holds => exact valid.handedOver holds
  | giveBack _ holds => exact valid.givenBack holds

theorem Valid.exec {actions : List (Action τ)}
    (reached : exec System.step (start o τ) actions = some s) : s.Valid o :=
  invariant_always (Valid o) (.initially o) (fun _ _ _ valid taken => valid.step taken) reached

omit [DecidableEq τ] in
/-- What an attempt computes from its load stays within the word. -/
theorem Valid.asked_fits (valid : s.Valid o) {t : τ} {preferred attempt loaded : Nat}
    (stands : (s.threads t).position = .exchange preferred attempt loaded) :
    subSize s.pool.capacity loaded = s.pool.capacity - loaded ∧
      addSize loaded (s.asked preferred loaded) = loaded + s.asked preferred loaded ∧
      loaded + s.asked preferred loaded ≤ s.pool.capacity := by
  have bounded := valid.loads t preferred attempt loaded stands
  have representable := s.pool.options.representable
  have left : subSize s.pool.capacity loaded = s.pool.capacity - loaded :=
    subSize_of_le bounded representable
  have below : s.asked preferred loaded ≤ subSize s.pool.capacity loaded :=
    Nat.le_trans (Nat.min_le_right _ _) (Nat.min_le_right _ _)
  have fits : loaded + s.asked preferred loaded ≤ s.pool.capacity := by omega
  exact ⟨left, addSize_of_lt (Nat.lt_of_le_of_lt fits representable), fits⟩

omit [DecidableEq τ] in
theorem Valid.asked_eq (valid : s.Valid o) (preferred : Nat) :
    s.asked preferred s.pool.borrowedItemsSize =
      min preferred (min o.maxSliceCapacity (s.pool.capacity - s.pool.borrowedItemsSize)) := by
  have left := valid.accounts.size_eq
  rw [size] at left
  rw [asked, bufferSize, ← valid.options]
  change min (min preferred s.pool.options.maxSliceCapacity)
    (min s.pool.capacity (subSize s.pool.capacity s.pool.borrowedItemsSize)) = _
  rw [left]
  omega

end Accounting

/-! ## A borrow that fails leaves no trace -/

section Failing

variable {s s' : System τ} {t : τ}

/-- The thread does nothing but borrow, and gets nothing. -/
def Unsuccessful (t : τ) (s : System τ) (a : Action τ) : Prop :=
  a.thread = t → a.isBorrow = true ∧
    ∀ s', s.step a = some s' → (s'.threads t).held = (s.threads t).held

/-- The system as if the thread were between two calls. -/
def rested (s : System τ) (t : τ) : System τ := s.move t .idle

theorem rested_of_idle (idle : (s.threads t).position = .idle) : s.rested t = s := by
  have same : ({ s.threads t with position := Position.idle } : Thread) = s.threads t := by
    rw [← idle]
  rw [rested, move, set, same, Function.update_eq_self]

theorem rested_move (s : System τ) (t : τ) (position : Position) :
    (s.move t position).rested t = s.rested t := by
  simp [rested, move, set]

/-- The thread's own steps change nothing that another thread can see. -/
theorem rested_of_unsuccessful {a : Action τ} (small : s.pool.borrowedItemsSize < sizeModulus)
    (own : a.thread = t) (unsuccessful : Unsuccessful t s a) (taken : s.step a = some s') :
    s'.rested t = s.rested t := by
  obtain ⟨borrows, unchanged⟩ := unsuccessful own
  have held := unchanged s' taken
  cases step_effect taken with
  | borrow _ | load _ | failed _ =>
      obtain rfl := own
      exact rested_move s _ _
  | @exchanged u _ preferred _ _ =>
      have same : u = t := own
      subst same
      by_cases none : s.asked preferred s.pool.borrowedItemsSize < 1
      · rw [exchanged_zero small none]
        exact rested_move s _ _
      · have granted : s.asked preferred s.pool.borrowedItemsSize ::ₘ (s.threads u).held =
            (s.threads u).held := by
          simpa [exchanged, none, set] using held
        exact absurd (congrArg Multiset.card granted) (by simp)
  | handOver _ _ | giveBack _ _ => cases borrows

theorem rested_set {u : τ} (other : u ≠ t) (thread : Thread) :
    (s.set u thread).rested t = (s.rested t).set u thread := by
  rw [rested, move, set_of_ne _ (Ne.symm other), rested, move, set, set, set, set]
  simp only [Function.update_comm (Ne.symm other)]

theorem threads_rested {u : τ} (other : u ≠ t) : (s.rested t).threads u = s.threads u :=
  set_of_ne s other _

theorem receive_rested (u : τ) (capacity : Nat) :
    (s.receive u capacity).rested t = (s.rested t).receive u capacity := by
  by_cases same : u = t
  · subst same
    simp [rested, receive, move, set]
  · rw [receive, rested_set same, receive, threads_rested same]

theorem move_rested {u : τ} (other : u ≠ t) (position : Position) :
    (s.move u position).rested t = (s.rested t).move u position := by
  simp only [move, threads_rested other, rested_set other]

theorem release_rested {u : τ} (other : u ≠ t) (capacity : Nat) :
    (s.release u capacity).rested t = (s.rested t).release u capacity := by
  simp only [release, threads_rested other, rested_set other]

theorem exchanged_rested {u : τ} (other : u ≠ t) (preferred loaded : Nat) :
    (s.exchanged u preferred loaded).rested t = (s.rested t).exchanged u preferred loaded := by
  have same : (s.rested t).asked preferred loaded = s.asked preferred loaded := rfl
  have threads : (if s.asked preferred loaded < 1 then (s.rested t).move u .idle
      else (s.rested t).set u ⟨.idle, s.asked preferred loaded ::ₘ (s.threads u).held⟩) =
        rested (if s.asked preferred loaded < 1 then s.move u .idle
          else s.set u ⟨.idle, s.asked preferred loaded ::ₘ (s.threads u).held⟩) t := by
    split
    · rw [move_rested other]
    · rw [rested_set other]
  simp only [exchanged, same, threads_rested other, threads]
  rfl

/-- The other threads take the same steps whether or not the thread rests. -/
theorem step_rested {a : Action τ} (other : a.thread ≠ t) (taken : s.step a = some s') :
    (s.rested t).step a = some (s'.rested t) := by
  cases a with
  | borrow u preferred =>
      have elsewhere : u ≠ t := other
      simp only [step, Option.ite_none_right_eq_some, Option.some.injEq] at taken
      obtain ⟨idle, rfl⟩ := taken
      rw [step, threads_rested elsewhere, if_pos idle, move_rested elsewhere]
      rfl
  | load u =>
      have elsewhere : u ≠ t := other
      cases position : (s.threads u).position with
      | load preferred attempt =>
          simp only [step, position, Option.some.injEq] at taken
          subst taken
          simp only [step, threads_rested elsewhere, position, move_rested elsewhere]
          rfl
      | idle | exchange _ _ _ => simp [step, position] at taken
  | exchange u spurious =>
      have elsewhere : u ≠ t := other
      cases position : (s.threads u).position with
      | exchange preferred attempt loaded =>
          simp only [step, position] at taken
          simp only [step, threads_rested elsewhere, position]
          change (if s.pool.borrowedItemsSize = loaded ∧ spurious = false then _ else _) = _
          split at taken
          · rename_i succeeds
            obtain rfl := Option.some.inj taken
            rw [if_pos succeeds, exchanged_rested elsewhere]
          · rename_i fails
            obtain rfl := Option.some.inj taken
            rw [if_neg fails, move_rested elsewhere]
            rfl
      | idle | load _ _ => simp [step, position] at taken
  | handOver u v capacity =>
      have elsewhere : u ≠ t := other
      simp only [step, Option.ite_none_right_eq_some, Option.some.injEq] at taken
      obtain ⟨allowed, rfl⟩ := taken
      rw [step, threads_rested elsewhere, if_pos allowed, receive_rested, release_rested elsewhere]
  | giveBack u capacity =>
      have elsewhere : u ≠ t := other
      simp only [step, Option.ite_none_right_eq_some, Option.some.injEq] at taken
      obtain ⟨allowed, rfl⟩ := taken
      rw [step, threads_rested elsewhere, if_pos allowed, ← release_rested elsewhere]
      rfl

/-- Without the steps of a thread that only borrows and gets nothing, the run is
    the same for everyone else. -/
theorem exec_unsuccessful {actions : List (Action τ)}
    (small : ∀ before u, exec System.step s before = some u →
      u.pool.borrowedItemsSize < sizeModulus)
    (unsuccessful : Meets System.step (Unsuccessful t) s actions)
    (taken : exec System.step s actions = some s') :
    exec System.step (s.rested t) (actions.filter fun a => a.thread ≠ t) = some (s'.rested t) := by
  induction actions generalizing s with
  | nil =>
      obtain rfl : s = s' := by simpa using taken
      rfl
  | cons a actions ih =>
      cases first : s.step a with
      | none => simp [first] at taken
      | some u =>
          rw [exec_cons, first, Option.bind_some] at taken
          rw [meets_cons] at unsuccessful
          have later := ih
            (fun before v reached => small (a :: before) v (by simp [first, reached]))
            (unsuccessful.2 u first) taken
          by_cases own : a.thread = t
          · rw [List.filter_cons_of_neg (by simp [own]),
              ← rested_of_unsuccessful (small [] s rfl) own unsuccessful.1 first]
            exact later
          · rw [List.filter_cons_of_pos (by simp [own]), exec_cons, step_rested own first]
            exact later

end Failing

/-! ## The pool over whole runs -/

section Runs

variable [Fintype τ] {o : Options} {s : System τ}

/-- The counter is the sum of what was granted and is not yet subtracted, and
    never more than the capacity; attempts compute within the word; a grant is
    the smallest of what is preferred, allowed and left; and a borrow that fails
    is as if it had not run. -/
theorem dynamicPool_accounted {actions : List (Action τ)}
    (reached : exec System.step (start o τ) actions = some s) :
    s.pool.borrowedItemsSize = (total Thread.held s.threads).sum ∧
    s.pool.borrowedItemsSize ≤ s.pool.capacity ∧
    s.pool.size = s.pool.capacity - s.pool.borrowedItemsSize ∧
    (∀ t preferred attempt loaded,
      (s.threads t).position = .exchange preferred attempt loaded →
        loaded ≤ s.pool.capacity ∧ subSize s.pool.capacity loaded = s.pool.capacity - loaded ∧
        addSize loaded (s.asked preferred loaded) = loaded + s.asked preferred loaded ∧
        loaded + s.asked preferred loaded ≤ s.pool.capacity) ∧
    (∀ t spurious s', s.step (.exchange t spurious) = some s' →
      (s'.threads t).held ≠ (s.threads t).held → ∃ preferred attempt granted,
        (s.threads t).position = .exchange preferred attempt s.pool.borrowedItemsSize ∧
        (s'.threads t).held = granted ::ₘ (s.threads t).held ∧
        granted = min preferred
          (min o.maxSliceCapacity (s.pool.capacity - s.pool.borrowedItemsSize)) ∧
        1 ≤ granted) ∧
    (∀ t call s', (s.threads t).position = .idle → exec System.step s call = some s' →
      Meets System.step (Unsuccessful t) s call → (s'.threads t).position = .idle →
        exec System.step s (call.filter fun a => a.thread ≠ t) = some s') := by
  have valid := Valid.exec reached
  refine ⟨valid.accounts.borrowed, valid.accounts.bounded, valid.accounts.size_eq, ?_, ?_, ?_⟩
  · intro t preferred attempt loaded stands
    exact ⟨valid.loads t preferred attempt loaded stands, valid.asked_fits stands⟩
  · intro t spurious s' taken changed
    cases step_effect taken with
    | @exchanged _ _ preferred attempt stands =>
        by_cases none : s.asked preferred s.pool.borrowedItemsSize < 1
        · rw [exchanged, if_pos none, move, set_self] at changed
          exact absurd rfl changed
        · refine ⟨preferred, attempt, _, stands, ?_, valid.asked_eq preferred, by omega⟩
          rw [exchanged, if_neg none, set_self]
    | failed _ =>
        rw [move, set_self] at changed
        exact absurd rfl changed
  · intro t call s' idle taken unsuccessful idle'
    have small : ∀ before u, exec System.step s before = some u →
        u.pool.borrowedItemsSize < sizeModulus := by
      intro before u continued
      have whole : exec System.step (start o τ) (actions ++ before) = some u := by
        rw [exec_append, reached, Option.bind_some, continued]
      exact Nat.lt_of_le_of_lt (Valid.exec whole).accounts.bounded u.pool.options.representable
    have without := exec_unsuccessful small unsuccessful taken
    rwa [rested_of_idle idle, rested_of_idle idle'] at without

/-- A borrower whose first exchange finds another number. -/
def overtakenBorrow : List (Action Bool) :=
  [.borrow false 4, .load false, .exchange false false, .borrow true 4, .load true,
    .giveBack false 3, .exchange true false, .load true]

theorem overtakenBorrow_accounted :
    ∃ s s', exec System.step (start ⟨3, 4, 2, by decide⟩ Bool) overtakenBorrow = some s ∧
      s.step (.exchange true false) = some s' ∧ s.pool.borrowedItemsSize = 0 ∧
      ∃ granted, (s'.threads true).held = granted ::ₘ (s.threads true).held ∧ 1 ≤ granted := by
  have seen : ((exec System.step (start ⟨3, 4, 2, by decide⟩ Bool) overtakenBorrow).map fun s =>
      (s.pool.borrowedItemsSize, (s.threads true).held,
        (s.step (.exchange true false)).map fun s' => (s'.threads true).held)) =
      some (0, 0, some {3}) := by decide +kernel
  obtain ⟨s, reached, outcome⟩ := Option.map_eq_some_iff.mp seen
  obtain ⟨empty, none, next⟩ : s.pool.borrowedItemsSize = 0 ∧ (s.threads true).held = 0 ∧
      (s.step (.exchange true false)).map (fun s' => (s'.threads true).held) = some {3} := by
    simpa using outcome
  obtain ⟨s', taken, one⟩ := Option.map_eq_some_iff.mp next
  obtain ⟨-, -, -, -, grants, -⟩ := dynamicPool_accounted reached
  obtain ⟨_, _, granted, -, more, -, positive⟩ :=
    grants true false s' taken (by rw [one, none]; decide)
  exact ⟨s, s', reached, taken, empty, granted, more, positive⟩

end Runs

end System

end Spoor.Buffer.DynamicBufferSlicePool
