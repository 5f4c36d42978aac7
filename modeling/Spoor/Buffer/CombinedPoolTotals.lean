import Spoor.Buffer.DynamicPoolSteps
import Spoor.Buffer.ReservedPoolSize

/-! # The totals of the combined pool

The combined pool adds the capacities and the sizes of its two parts as 64-bit
sizes, and takes the answers of both whether they are empty or full.  The
answers agree with the totals as long as the sums fit.

Threads borrow from the reserved pool first.  A thread whose search there finds
nothing goes on in the dynamic pool.  Each pool takes its steps as it does on its
own.
-/

namespace Spoor.Buffer.CombinedBufferSlicePool.Concurrent

open Lib.MachineInteger Lib.Threads Lib.Transition

variable {α τ : Type}

/-- `preferred` is the size that a thread borrows while it is at the reserved
    pool. -/
structure System (α τ : Type) where
  reserved : ReservedBufferSlicePool.System α τ
  dynamic : DynamicBufferSlicePool.System τ
  preferred : τ → Option Nat

inductive Action (α τ : Type) where
  | borrow (t : τ) (preferredSliceCapacity : Nat)
  | reserved (action : ReservedBufferSlicePool.Action α τ)
  | fallBack (t : τ)
  | dynamic (action : DynamicBufferSlicePool.Action τ)

namespace System

def start (o : Options) (value : α) (τ : Type) : System α τ where
  reserved := .start o.reserved value τ
  dynamic := .start o.dynamic τ
  preferred _ := none

def pool (s : System α τ) : CombinedBufferSlicePool α := ⟨s.reserved.pool, s.dynamic.pool⟩

/-- The thread is in none of the pool's methods. -/
def Idle (s : System α τ) (t : τ) : Prop :=
  (s.reserved.threads t).position = .idle ∧ (s.dynamic.threads t).position = .idle ∧
    s.preferred t = none

instance (s : System α τ) (t : τ) : Decidable (s.Idle t) :=
  inferInstanceAs (Decidable (_ ∧ _ ∧ _))

variable [DecidableEq τ]

def stepReserved (s : System α τ) (action : ReservedBufferSlicePool.Action α τ) :
    Option (System α τ) :=
  (s.reserved.step action).map fun reserved => { s with reserved }

def stepDynamic (s : System α τ) (action : DynamicBufferSlicePool.Action τ) :
    Option (System α τ) :=
  (s.dynamic.step action).map fun dynamic => { s with dynamic }

def prefer (s : System α τ) (t : τ) (preferred : Option Nat) : System α τ :=
  { s with preferred := Function.update s.preferred t preferred }

/-- A step of one thread.  Threads start a method only when they are idle, and a
    search in the reserved pool without success leaves the size they prefer. -/
def step (s : System α τ) : Action α τ → Option (System α τ)
  | .borrow t preferredSliceCapacity =>
      if s.Idle t then (s.prefer t (some preferredSliceCapacity)).stepReserved (.borrow t)
      else none
  | .reserved action =>
      match action with
      | .borrow _ => none
      | .subtract t => (s.prefer t none).stepReserved action
      | .exchange _ | .clear _ | .reset _ | .add _ => s.stepReserved action
      | .push t _ _ | .handOver t _ _ | .giveBack t _ =>
          if s.Idle t then s.stepReserved action else none
  | .fallBack t =>
      match s.preferred t with
      | none => none
      | some preferredSliceCapacity =>
          if (s.reserved.threads t).position = .idle then
            (s.prefer t none).stepDynamic (.borrow t preferredSliceCapacity)
          else none
  | .dynamic action =>
      match action with
      | .borrow _ _ => none
      | .load _ | .exchange _ _ => s.stepDynamic action
      | .handOver t _ _ | .giveBack t _ => if s.Idle t then s.stepDynamic action else none

/-- Each pool takes a step of its own or stays as it is. -/
structure Parts (s s' : System α τ) : Prop where
  reserved : s'.reserved = s.reserved ∨ ∃ action, s.reserved.step action = some s'.reserved
  dynamic : s'.dynamic = s.dynamic ∨ ∃ action, s.dynamic.step action = some s'.dynamic

theorem parts_of_reserved {s s' : System α τ} {action : ReservedBufferSlicePool.Action α τ}
    (taken : s.stepReserved action = some s') : s.Parts s' := by
  obtain ⟨reserved, stepped, rfl⟩ := Option.map_eq_some_iff.mp taken
  exact ⟨.inr ⟨action, stepped⟩, .inl rfl⟩

theorem parts_of_dynamic {s s' : System α τ} {action : DynamicBufferSlicePool.Action τ}
    (taken : s.stepDynamic action = some s') : s.Parts s' := by
  obtain ⟨dynamic, stepped, rfl⟩ := Option.map_eq_some_iff.mp taken
  exact ⟨.inl rfl, .inr ⟨action, stepped⟩⟩

theorem step_parts {s s' : System α τ} {action : Action α τ} (taken : s.step action = some s') :
    s.Parts s' := by
  cases action with
  | borrow t preferredSliceCapacity =>
      obtain ⟨_, taken⟩ := Option.ite_none_right_eq_some.mp taken
      have parts := parts_of_reserved taken
      exact ⟨parts.reserved, parts.dynamic⟩
  | reserved action =>
      cases action with
      | borrow t => cases taken
      | subtract t =>
          have parts := parts_of_reserved taken
          exact ⟨parts.reserved, parts.dynamic⟩
      | exchange _ | clear _ | reset _ | add _ => exact parts_of_reserved taken
      | push _ _ _ | handOver _ _ _ | giveBack _ _ =>
          obtain ⟨_, taken⟩ := Option.ite_none_right_eq_some.mp taken
          exact parts_of_reserved taken
  | fallBack t =>
      rw [step] at taken
      cases wanted : s.preferred t with
      | none => simp [wanted] at taken
      | some preferredSliceCapacity =>
          simp only [wanted] at taken
          obtain ⟨_, taken⟩ := Option.ite_none_right_eq_some.mp taken
          have parts := parts_of_dynamic taken
          exact ⟨parts.reserved, parts.dynamic⟩
  | dynamic action =>
      cases action with
      | borrow _ _ => cases taken
      | load _ | exchange _ _ => exact parts_of_dynamic taken
      | handOver _ _ _ | giveBack _ _ =>
          obtain ⟨_, taken⟩ := Option.ite_none_right_eq_some.mp taken
          exact parts_of_dynamic taken

section Reachable

variable [Fintype τ] {o : Options} {value : α} {s : System α τ} {actions : List (Action α τ)}

/-- What holds of the runs of the pools holds in a run of both. -/
structure Valid (o : Options) (s : System α τ) : Prop where
  reserved : s.reserved.Valid o.reserved
  dynamic : s.dynamic.Valid o.dynamic

theorem Valid.step {s' : System α τ} {action : Action α τ} (valid : s.Valid o)
    (taken : s.step action = some s') : s'.Valid o := by
  have parts := step_parts taken
  constructor
  · obtain same | ⟨_, stepped⟩ := parts.reserved
    · rw [same]
      exact valid.reserved
    · exact valid.reserved.step stepped
  · obtain same | ⟨_, stepped⟩ := parts.dynamic
    · rw [same]
      exact valid.dynamic
    · exact valid.dynamic.step stepped

theorem valid_exec (reached : exec System.step (start o value τ) actions = some s) :
    s.Valid o :=
  invariant_always (Valid o) ⟨.initially o.reserved value, .initially o.dynamic⟩
    (fun _ _ _ valid taken => valid.step taken) reached

end Reachable

end System

/-- The totals are the sums of the parts', and the pool is empty or full exactly
    if its totals say so. -/
structure TotalsExact (p : CombinedBufferSlicePool α) : Prop where
  capacity : p.capacity = p.reserved.capacity + p.dynamic.capacity
  size : p.size = p.reserved.size + p.dynamic.size
  empty : p.empty = true ↔ p.size = 0
  full : p.full = true ↔ p.capacity ≤ p.size

theorem totalsExact_of_bounded {p : CombinedBufferSlicePool α}
    (reserved : p.reserved.size ≤ p.reserved.capacity)
    (dynamic : p.dynamic.size ≤ p.dynamic.capacity)
    (fits : p.reserved.capacity + p.dynamic.capacity < sizeModulus) : TotalsExact p := by
  have capacity : p.capacity = p.reserved.capacity + p.dynamic.capacity := addSize_of_lt fits
  have size : p.size = p.reserved.size + p.dynamic.size := addSize_of_lt (by omega)
  refine ⟨capacity, size, ?_, ?_⟩
  · rw [size, CombinedBufferSlicePool.empty, ReservedBufferSlicePool.empty,
      DynamicBufferSlicePool.empty, Bool.and_eq_true, beq_iff_eq, beq_iff_eq]
    omega
  · rw [size, capacity, CombinedBufferSlicePool.full, ReservedBufferSlicePool.full,
      DynamicBufferSlicePool.full, Bool.and_eq_true, decide_eq_true_eq, decide_eq_true_eq]
    omega

/-- Between calls the totals are exact if and only if the capacities of the two
    pools together fit a 64-bit size. -/
theorem combinedPool_totalsExact_iff [DecidableEq τ] [Fintype τ] {o : Options} {value : α}
    {actions : List (Action α τ)} {s : System α τ}
    (reached : exec System.step (System.start o value τ) actions = some s) (quiet : ∀ t, s.Idle t) :
    TotalsExact s.pool ↔ o.reserved.capacity + o.dynamic.capacity < 2 ^ 64 := by
  have valid := System.valid_exec reached
  have reservedCapacity : s.pool.reserved.capacity = o.reserved.capacity := by
    rw [ReservedBufferSlicePool.capacity, System.pool, valid.reserved.options]
  have dynamicCapacity : s.pool.dynamic.capacity = o.dynamic.capacity := by
    rw [DynamicBufferSlicePool.capacity, System.pool, valid.dynamic.options]
  rw [← reservedCapacity, ← dynamicCapacity]
  constructor
  · intro exact
    rw [← exact.capacity]
    exact addSize_lt _ _
  · intro fits
    have reserved := valid.reserved.size_add_held fun t => (quiet t).1
    have dynamic := valid.dynamic.accounts.size_add_lent
    apply totalsExact_of_bounded ?_ ?_ fits
    · rw [reservedCapacity]
      exact Nat.le_of_add_right_le reserved.le
    · exact Nat.le_of_add_right_le dynamic.le

/-- A reserved pool of one slice for one item and a dynamic pool. -/
def smallPools (capacity : Nat) (representable : capacity < sizeModulus) : Options where
  reserved := ReservedBufferSlicePool.System.oneSlice
  dynamic := ⟨4, capacity, 2, representable⟩

/-- One slice of each pool is borrowed. -/
def borrowBoth : List (Action Nat Bool) :=
  [.borrow true 4, .reserved (.exchange true), .borrow false 3, .reserved (.exchange false),
    .reserved (.subtract true), .reserved (.exchange false), .fallBack false,
    .dynamic (.load false), .dynamic (.exchange false false)]

theorem borrowBoth_totalsExact :
    ∃ s, exec System.step (.start (smallPools 10 (by decide)) 0 Bool) borrowBoth = some s ∧
      TotalsExact s.pool := by
  have seen : ((exec System.step (.start (smallPools 10 (by decide)) 0 Bool) borrowBoth).map
      fun s => decide (∀ t, s.Idle t)) = some true := by decide +kernel
  obtain ⟨s, reached, quiet⟩ := Option.map_eq_some_iff.mp seen
  exact ⟨s, reached, (combinedPool_totalsExact_iff reached (of_decide_eq_true quiet)).mpr
    (by decide)⟩

/-- With the default capacity of the dynamic pool the total is zero. -/
theorem defaultPools_not_exact :
    (∀ t, (System.start (smallPools (2 ^ 64 - 1) (by decide)) (0 : Nat) Bool).Idle t) ∧
      (System.start (smallPools (2 ^ 64 - 1) (by decide)) (0 : Nat) Bool).pool.capacity = 0 ∧
      ¬TotalsExact (System.start (smallPools (2 ^ 64 - 1) (by decide)) (0 : Nat) Bool).pool := by
  have zero :
      (System.start (smallPools (2 ^ 64 - 1) (by decide)) (0 : Nat) Bool).pool.capacity = 0 := rfl
  refine ⟨fun _ => ⟨rfl, rfl, rfl⟩, zero, ?_⟩
  intro exact
  have capacity := exact.capacity
  rw [zero] at capacity
  exact absurd capacity (by decide)

end Spoor.Buffer.CombinedBufferSlicePool.Concurrent
