import Spoor.Buffer.Accounting
import Spoor.Lib.Threads
import Spoor.Lib.Transition

/-! # The reserved pool under concurrent borrowers

Threads borrow and return slices without a lock.  `Borrow` exchanges one flag
after another until it has set one, and then subtracts the slice's capacity from
the size.  `Return` clears the slice, resets its flag and then adds the capacity
back.  Each of these is one atomic step, and the steps of different threads come
in any order.  Between two calls a thread writes to the slices it holds and hands
them to other threads.

The flag of a slice is set exactly while one thread owns it.  The size is what
the capacity leaves, up to the wrap of a 64-bit word, when everything subtracted
and not yet added back is taken away.
-/

namespace Spoor.Buffer.ReservedBufferSlicePool

open Lib.MachineInteger Lib.Threads Lib.Transition

variable {α τ : Type}

/-- Where a thread stands in `Borrow` or `Return`: the step it takes next. -/
inductive Position where
  | idle
  | exchange (index : Nat)
  | subtract (index : Nat)
  | clear (index : Nat)
  | reset (index : Nat)
  | add (index : Nat)
  deriving Repr, DecidableEq

structure Thread where
  position : Position
  held : Multiset Nat

structure System (α τ : Type) where
  pool : ReservedBufferSlicePool α
  threads : τ → Thread

inductive Action (α τ : Type) where
  | borrow (t : τ)
  | exchange (t : τ)
  | subtract (t : τ)
  | push (t : τ) (index : Nat) (item : α)
  | handOver (t u : τ) (index : Nat)
  | giveBack (t : τ) (index : Nat)
  | clear (t : τ)
  | reset (t : τ)
  | add (t : τ)

namespace System

def start (o : Options) (value : α) (τ : Type) : System α τ where
  pool := .new o value
  threads _ := ⟨.idle, 0⟩

variable [DecidableEq τ]

def set (s : System α τ) (t : τ) (thread : Thread) : System α τ :=
  { s with threads := Function.update s.threads t thread }

def move (s : System α τ) (t : τ) (position : Position) : System α τ :=
  s.set t { s.threads t with position }

def release (s : System α τ) (t : τ) (index : Nat) : System α τ :=
  s.set t { s.threads t with held := (s.threads t).held.erase index }

def receive (s : System α τ) (t : τ) (index : Nat) : System α τ :=
  s.set t { s.threads t with held := index ::ₘ (s.threads t).held }

/-- A step of one thread, if the thread stands there. -/
def step (s : System α τ) : Action α τ → Option (System α τ)
  | .borrow t => if (s.threads t).position = .idle then some (s.move t (.exchange 0)) else none
  | .exchange t =>
      match (s.threads t).position with
      | .exchange index =>
          if s.pool.pool.length ≤ index then some (s.move t .idle)
          else if index ∈ s.pool.borrowed then some (s.move t (.exchange (index + 1)))
          else some
            { s.move t (.subtract index) with
              pool := { s.pool with borrowed := insert index s.pool.borrowed } }
      | _ => none
  | .subtract t =>
      match (s.threads t).position with
      | .subtract index =>
          some
            { s.set t ⟨.idle, index ::ₘ (s.threads t).held⟩ with
              pool := { s.pool with size := subSize s.pool.size (s.pool.sliceCapacity index) } }
      | _ => none
  | .push t index item =>
      if (s.threads t).position = .idle ∧ index ∈ (s.threads t).held then
        some { s with pool := { s.pool with pool := s.pool.pool.modify index (·.push item) } }
      else none
  | .handOver t u index =>
      if (s.threads t).position = .idle ∧ index ∈ (s.threads t).held then
        some ((s.release t index).receive u index)
      else none
  | .giveBack t index =>
      if (s.threads t).position = .idle ∧ index ∈ (s.threads t).held then
        some (s.set t
          ⟨if s.pool.capacity ≤ index then .idle else .clear index,
            (s.threads t).held.erase index⟩)
      else none
  | .clear t =>
      match (s.threads t).position with
      | .clear index =>
          some
            { s.move t (.reset index) with
              pool := { s.pool with pool := s.pool.pool.modify index (·.clear) } }
      | _ => none
  | .reset t =>
      match (s.threads t).position with
      | .reset index =>
          some
            { s.move t (.add index) with
              pool := { s.pool with borrowed := s.pool.borrowed.erase index } }
      | _ => none
  | .add t =>
      match (s.threads t).position with
      | .add index =>
          some
            { s.move t .idle with
              pool := { s.pool with size := addSize s.pool.size (s.pool.sliceCapacity index) } }
      | _ => none

/-- What a step does, with what it needs. -/
inductive Effect (s : System α τ) : Action α τ → System α τ → Prop where
  | borrow {t : τ} (idle : (s.threads t).position = .idle) :
      Effect s (.borrow t) (s.move t (.exchange 0))
  | exhausted {t : τ} {index : Nat} (stands : (s.threads t).position = .exchange index)
      (past : s.pool.pool.length ≤ index) : Effect s (.exchange t) (s.move t .idle)
  | occupied {t : τ} {index : Nat} (stands : (s.threads t).position = .exchange index)
      (inside : index < s.pool.pool.length) (flagged : index ∈ s.pool.borrowed) :
      Effect s (.exchange t) (s.move t (.exchange (index + 1)))
  | taken {t : τ} {index : Nat} (stands : (s.threads t).position = .exchange index)
      (inside : index < s.pool.pool.length) (free : index ∉ s.pool.borrowed) :
      Effect s (.exchange t)
        { s.move t (.subtract index) with
          pool := { s.pool with borrowed := insert index s.pool.borrowed } }
  | subtract {t : τ} {index : Nat} (stands : (s.threads t).position = .subtract index) :
      Effect s (.subtract t)
        { s.set t ⟨.idle, index ::ₘ (s.threads t).held⟩ with
          pool := { s.pool with size := subSize s.pool.size (s.pool.sliceCapacity index) } }
  | push {t : τ} {index : Nat} {item : α} (holds : index ∈ (s.threads t).held) :
      Effect s (.push t index item)
        { s with pool := { s.pool with pool := s.pool.pool.modify index (·.push item) } }
  | handOver {t u : τ} {index : Nat} (holds : index ∈ (s.threads t).held) :
      Effect s (.handOver t u index) ((s.release t index).receive u index)
  | giveBack {t : τ} {index : Nat} (idle : (s.threads t).position = .idle)
      (holds : index ∈ (s.threads t).held) :
      Effect s (.giveBack t index)
        (s.set t
          ⟨if s.pool.capacity ≤ index then .idle else .clear index,
            (s.threads t).held.erase index⟩)
  | clear {t : τ} {index : Nat} (stands : (s.threads t).position = .clear index) :
      Effect s (.clear t)
        { s.move t (.reset index) with
          pool := { s.pool with pool := s.pool.pool.modify index (·.clear) } }
  | reset {t : τ} {index : Nat} (stands : (s.threads t).position = .reset index) :
      Effect s (.reset t)
        { s.move t (.add index) with
          pool := { s.pool with borrowed := s.pool.borrowed.erase index } }
  | add {t : τ} {index : Nat} (stands : (s.threads t).position = .add index) :
      Effect s (.add t)
        { s.move t .idle with
          pool := { s.pool with size := addSize s.pool.size (s.pool.sliceCapacity index) } }

theorem step_effect {s s' : System α τ} {a : Action α τ} (taken : s.step a = some s') :
    Effect s a s' := by
  cases a with
  | borrow t =>
      simp only [step, Option.ite_none_right_eq_some, Option.some.injEq] at taken
      obtain ⟨idle, rfl⟩ := taken
      exact .borrow idle
  | exchange t =>
      simp only [step] at taken
      split at taken
      case h_1 index stands =>
        split at taken
        · rename_i past
          obtain rfl := Option.some.inj taken
          exact .exhausted stands past
        · rename_i inside
          split at taken
          · rename_i flagged
            obtain rfl := Option.some.inj taken
            exact .occupied stands (Nat.lt_of_not_le inside) flagged
          · rename_i free
            obtain rfl := Option.some.inj taken
            exact .taken stands (Nat.lt_of_not_le inside) free
      case h_2 => cases taken
  | subtract t =>
      simp only [step] at taken
      split at taken
      case h_1 index stands =>
        obtain rfl := Option.some.inj taken
        exact .subtract stands
      case h_2 => cases taken
  | push t index item =>
      simp only [step, Option.ite_none_right_eq_some, Option.some.injEq] at taken
      obtain ⟨⟨-, holds⟩, rfl⟩ := taken
      exact .push holds
  | handOver t u index =>
      simp only [step, Option.ite_none_right_eq_some, Option.some.injEq] at taken
      obtain ⟨⟨-, holds⟩, rfl⟩ := taken
      exact .handOver holds
  | giveBack t index =>
      simp only [step, Option.ite_none_right_eq_some, Option.some.injEq] at taken
      obtain ⟨⟨idle, holds⟩, rfl⟩ := taken
      exact .giveBack idle holds
  | clear t =>
      simp only [step] at taken
      split at taken
      case h_1 index stands =>
        obtain rfl := Option.some.inj taken
        exact .clear stands
      case h_2 => cases taken
  | reset t =>
      simp only [step] at taken
      split at taken
      case h_1 index stands =>
        obtain rfl := Option.some.inj taken
        exact .reset stands
      case h_2 => cases taken
  | add t =>
      simp only [step] at taken
      split at taken
      case h_1 index stands =>
        obtain rfl := Option.some.inj taken
        exact .add stands
      case h_2 => cases taken

end System

/-! ## Who owns a slice -/

def Options.sliceCapacity (o : Options) (index : Nat) : Nat := o.sliceCapacities.getD index 0

namespace Position

/-- The slice whose flag a thread in this position is responsible for. -/
def owned : Position → Multiset Nat
  | .subtract index | .clear index | .reset index => {index}
  | _ => 0

/-- The slice that may still have the items of its last borrower. -/
def used : Position → Multiset Nat
  | .clear index => {index}
  | _ => 0

/-- The slice whose capacity was subtracted and is not added back yet. -/
def outstanding : Position → Multiset Nat
  | .clear index | .reset index | .add index => {index}
  | _ => 0

end Position

namespace Thread

def owned (t : Thread) : Multiset Nat := t.position.owned + t.held

def used (t : Thread) : Multiset Nat := t.position.used + t.held

def outstanding (t : Thread) : Multiset Nat := t.position.outstanding + t.held

theorem used_le_owned (t : Thread) : t.used ≤ t.owned := by
  refine add_le_add ?_ le_rfl
  cases t.position <;> simp [Position.used, Position.owned]

theorem held_le_used (t : Thread) : t.held ≤ t.used := Multiset.le_add_left _ _

end Thread

/-- A change of one slice that keeps its capacity keeps all capacities. -/
theorem map_capacity_modify {change : Slice α → Slice α}
    (sized : ∀ slice, (change slice).capacity = slice.capacity) (index : Nat)
    (pool : List (Slice α)) :
    (pool.modify index change).map Slice.capacity = pool.map Slice.capacity := by
  refine List.ext_getElem? fun other => ?_
  rw [List.getElem?_map, List.getElem?_modify, List.getElem?_map]
  cases pool[other]? with
  | none => rfl
  | some slice => by_cases same : index = other <;> simp [same, sized]

namespace System

/-- The capacities of the slices with these indices together. -/
def capacityOf (o : Options) (indices : Multiset Nat) : Nat := (indices.map o.sliceCapacity).sum

variable [Fintype τ]

/-- The flags of the pool are those of the slices that threads own; what no
    thread used since it was cleared is empty; and the size accounts for what is
    outstanding, up to the wrap of a word. -/
structure Valid (o : Options) (s : System α τ) : Prop where
  options : s.pool.options = o
  capacities : s.pool.pool.map Slice.capacity = o.sliceCapacities
  flags : total Thread.owned s.threads = s.pool.borrowed.val
  inside : s.pool.borrowed ⊆ Finset.range s.pool.pool.length
  slices : ∀ index slice, s.pool.pool[index]? = some slice →
    slice.WellFormed ∧ (slice.size = 0 ∨ index ∈ total Thread.used s.threads)
  counted : s.pool.size + capacityOf o (total Thread.outstanding s.threads) ≡ o.capacity
    [MOD sizeModulus]
  small : s.pool.size < sizeModulus

variable {o : Options} {s : System α τ}

theorem Valid.initially (o : Options) (value : α) : (start o value τ).Valid o where
  options := rfl
  capacities := by
    simp [start, new, Slice.capacity, UnownedBufferSlice.capacity, UnownedBufferSlice.new,
      Function.comp_def]
  flags := total_zero fun t => rfl
  inside := Finset.empty_subset _
  slices := by
    intro index slice stored
    have fresh := Clean.initially o value slice (List.mem_of_getElem? stored)
    exact ⟨fresh.formed, .inl fresh.empty⟩
  counted := by
    have none : total Thread.outstanding (start o value τ).threads = 0 :=
      total_zero fun t => rfl
    rw [none]
    rfl
  small := o.representable

theorem outstanding_subtract [DecidableEq τ] {t : τ} {index : Nat}
    (stands : (s.threads t).position = .subtract index) :
    total Thread.outstanding (s.set t ⟨.idle, index ::ₘ (s.threads t).held⟩).threads =
      index ::ₘ total Thread.outstanding s.threads := by
  apply total_update_gains
  simp [Thread.outstanding, stands, Position.outstanding]

theorem outstanding_add [DecidableEq τ] {t : τ} {index : Nat}
    (stands : (s.threads t).position = .add index) :
    total Thread.outstanding s.threads =
      index ::ₘ total Thread.outstanding (s.move t .idle).threads := by
  apply total_update_loses
  simp [Thread.outstanding, stands, Position.outstanding]

/-- A move to a position with the same slices changes no total. -/
theorem total_move_same [DecidableEq τ] (part : Position → Multiset Nat) {t : τ}
    {position : Position} (same : part position = part (s.threads t).position) :
    total (fun thread => part thread.position + thread.held) (s.move t position).threads =
      total (fun thread => part thread.position + thread.held) s.threads := by
  apply total_update_same
  rw [same]

namespace Valid

theorem sliceCapacity_eq (valid : s.Valid o) (index : Nat) :
    s.pool.sliceCapacity index = o.sliceCapacity index := by
  rw [ReservedBufferSlicePool.sliceCapacity, valid.capacities, Options.sliceCapacity]

theorem length_eq (valid : s.Valid o) : s.pool.pool.length = o.sliceCapacities.length := by
  rw [← valid.capacities, List.length_map]

/-- No thread owns a slice twice and no two threads own the same one. -/
theorem nodup (valid : s.Valid o) : (total Thread.owned s.threads).Nodup := by
  rw [valid.flags]
  exact s.pool.borrowed.nodup

theorem owned_inside (valid : s.Valid o) {index : Nat}
    (owned : index ∈ total Thread.owned s.threads) : index < s.pool.pool.length := by
  rw [valid.flags] at owned
  exact Finset.mem_range.mp (valid.inside owned)

/-- A step that changes no total and leaves the pool alone keeps the invariant. -/
theorem of_totals (valid : s.Valid o) {threads : τ → Thread}
    (owned : total Thread.owned threads = total Thread.owned s.threads)
    (used : total Thread.used threads = total Thread.used s.threads)
    (outstanding : total Thread.outstanding threads = total Thread.outstanding s.threads) :
    ({ s with threads } : System α τ).Valid o where
  options := valid.options
  capacities := valid.capacities
  flags := owned.trans valid.flags
  inside := valid.inside
  slices := by
    rw [used]
    exact valid.slices
  counted := by
    rw [outstanding]
    exact valid.counted
  small := valid.small

theorem of_thread [DecidableEq τ] (valid : s.Valid o) {t : τ} {thread : Thread}
    (owned : thread.owned = (s.threads t).owned) (used : thread.used = (s.threads t).used)
    (outstanding : thread.outstanding = (s.threads t).outstanding) : (s.set t thread).Valid o :=
  valid.of_totals (total_update_same owned) (total_update_same used)
    (total_update_same outstanding)

/-- The exchange that sets a flag makes its thread the owner. -/
theorem taken [DecidableEq τ] (valid : s.Valid o) {t : τ} {index : Nat}
    (stands : (s.threads t).position = .exchange index) (inside : index < s.pool.pool.length)
    (free : index ∉ s.pool.borrowed) :
    Valid o { s.move t (.subtract index) with
      pool := { s.pool with borrowed := insert index s.pool.borrowed } } where
  options := valid.options
  capacities := valid.capacities
  flags := by
    rw [Finset.insert_val_of_notMem free, ← valid.flags]
    apply total_update_gains
    simp [Thread.owned, stands, Position.owned]
  inside := Finset.insert_subset (Finset.mem_range.mpr inside) valid.inside
  slices := by
    have same : total Thread.used (s.move t (.subtract index)).threads =
        total Thread.used s.threads := total_move_same Position.used (by rw [stands]; rfl)
    simp only [same]
    exact valid.slices
  counted := by
    have same : total Thread.outstanding (s.move t (.subtract index)).threads =
        total Thread.outstanding s.threads :=
      total_move_same Position.outstanding (by rw [stands]; rfl)
    simp only [same]
    exact valid.counted
  small := valid.small

theorem sliceCapacity_le (o : Options) (index : Nat) : o.sliceCapacity index ≤ sizeModulus := by
  have sum := sum_sliceCapacities o
  have representable := o.representable
  rw [Options.sliceCapacity, List.getD_eq_getElem?_getD]
  cases stored : o.sliceCapacities[index]? with
  | none => simp
  | some length =>
      have listed := List.mem_of_getElem? stored
      have below := List.single_le_sum (fun _ _ => Nat.zero_le _) length listed
      simp only [Option.getD_some]
      omega

theorem capacityOf_cons (o : Options) (index : Nat) (indices : Multiset Nat) :
    capacityOf o (index ::ₘ indices) = o.sliceCapacity index + capacityOf o indices := by
  simp [capacityOf]

/-- The subtraction hands the slice to its borrower. -/
theorem subtracted [DecidableEq τ] (valid : s.Valid o) {t : τ} {index : Nat}
    (stands : (s.threads t).position = .subtract index) :
    Valid o { s.set t ⟨.idle, index ::ₘ (s.threads t).held⟩ with
      pool := { s.pool with size := subSize s.pool.size (s.pool.sliceCapacity index) } } where
  options := valid.options
  capacities := valid.capacities
  flags := by
    refine Eq.trans (total_update_same ?_) valid.flags
    simp [Thread.owned, stands, Position.owned]
  inside := valid.inside
  slices := by
    have gained : total Thread.used (s.set t ⟨.idle, index ::ₘ (s.threads t).held⟩).threads =
        index ::ₘ total Thread.used s.threads := by
      apply total_update_gains
      simp [Thread.used, stands, Position.used]
    intro other slice stored
    obtain ⟨formed, empty | used⟩ := valid.slices other slice stored
    · exact ⟨formed, .inl empty⟩
    · refine ⟨formed, .inr ?_⟩
      simp only [gained]
      exact Multiset.mem_cons_of_mem used
  counted := by
    simp only [outstanding_subtract stands, capacityOf_cons, valid.sliceCapacity_eq]
    rw [← Nat.add_assoc]
    exact ((subSize_add_modEq (sliceCapacity_le o index)).add_right _).trans valid.counted
  small := subSize_lt _ _

/-- Writing to a slice in use changes nothing else. -/
theorem written (valid : s.Valid o) {change : Slice α → Slice α} {index : Nat}
    (inUse : index ∈ total Thread.used s.threads)
    (sized : ∀ slice, (change slice).capacity = slice.capacity)
    (formed : ∀ slice, slice.WellFormed → (change slice).WellFormed) :
    Valid o { s with pool := { s.pool with pool := s.pool.pool.modify index change } } where
  options := valid.options
  capacities := by
    rw [← valid.capacities]
    exact map_capacity_modify sized index s.pool.pool
  flags := valid.flags
  inside := by
    simp only [List.length_modify]
    exact valid.inside
  slices := by
    intro other slice stored
    obtain ⟨old, storedOld, rfl⟩ : ∃ old, s.pool.pool[other]? = some old ∧
        (if index = other then change old else old) = slice := by
      simpa [List.getElem?_modify] using stored
    obtain ⟨formedOld, empty⟩ := valid.slices other old storedOld
    by_cases same : index = other
    · subst same
      rw [if_pos rfl]
      exact ⟨formed old formedOld, .inr inUse⟩
    · rw [if_neg same]
      exact ⟨formedOld, empty⟩
  counted := valid.counted
  small := valid.small

/-- After the clear the slice is empty again and no longer in use. -/
theorem cleared [DecidableEq τ] (valid : s.Valid o) {t : τ} {index : Nat}
    (stands : (s.threads t).position = .clear index) :
    Valid o { s.move t (.reset index) with
      pool := { s.pool with pool := s.pool.pool.modify index (·.clear) } } where
  options := valid.options
  capacities := by
    rw [← valid.capacities]
    exact map_capacity_modify capacity_clear index s.pool.pool
  flags := by
    refine Eq.trans (total_update_same ?_) valid.flags
    simp [Thread.owned, stands, Position.owned]
  inside := by
    simp only [List.length_modify]
    exact valid.inside
  slices := by
    have lost : total Thread.used s.threads =
        index ::ₘ total Thread.used (s.move t (.reset index)).threads := by
      apply total_update_loses
      simp [Thread.used, stands, Position.used]
    intro other slice stored
    obtain ⟨old, storedOld, rfl⟩ : ∃ old, s.pool.pool[other]? = some old ∧
        (if index = other then old.clear else old) = slice := by
      simpa [List.getElem?_modify] using stored
    obtain ⟨formedOld, empty | used⟩ := valid.slices other old storedOld
    · by_cases same : index = other
      · rw [if_pos same]
        exact ⟨formedOld.clear_fresh.formed, .inl formedOld.clear_fresh.empty⟩
      · rw [if_neg same]
        exact ⟨formedOld, .inl empty⟩
    · by_cases same : index = other
      · rw [if_pos same]
        exact ⟨formedOld.clear_fresh.formed, .inl formedOld.clear_fresh.empty⟩
      · rw [if_neg same]
        refine ⟨formedOld, .inr ?_⟩
        rw [lost, Multiset.mem_cons] at used
        exact used.resolve_left fun equal => same equal.symm
  counted := by
    have kept : total Thread.outstanding (s.move t (.reset index)).threads =
        total Thread.outstanding s.threads :=
      total_move_same Position.outstanding (by rw [stands]; rfl)
    simp only [kept]
    exact valid.counted
  small := valid.small

/-- Resetting the flag gives the slice up. -/
theorem flagReset [DecidableEq τ] (valid : s.Valid o) {t : τ} {index : Nat}
    (stands : (s.threads t).position = .reset index) :
    Valid o { s.move t (.add index) with
      pool := { s.pool with borrowed := s.pool.borrowed.erase index } } where
  options := valid.options
  capacities := valid.capacities
  flags := by
    have lost : total Thread.owned s.threads =
        index ::ₘ total Thread.owned (s.move t (.add index)).threads := by
      apply total_update_loses
      simp [Thread.owned, stands, Position.owned]
    rw [Finset.erase_val, ← valid.flags, lost, Multiset.erase_cons_head]
  inside := (Finset.erase_subset _ _).trans valid.inside
  slices := by
    have same : total Thread.used (s.move t (.add index)).threads =
        total Thread.used s.threads := total_move_same Position.used (by rw [stands]; rfl)
    simp only [same]
    exact valid.slices
  counted := by
    have same : total Thread.outstanding (s.move t (.add index)).threads =
        total Thread.outstanding s.threads :=
      total_move_same Position.outstanding (by rw [stands]; rfl)
    simp only [same]
    exact valid.counted
  small := valid.small

theorem added [DecidableEq τ] (valid : s.Valid o) {t : τ} {index : Nat}
    (stands : (s.threads t).position = .add index) :
    Valid o { s.move t .idle with
      pool := { s.pool with size := addSize s.pool.size (s.pool.sliceCapacity index) } } where
  options := valid.options
  capacities := valid.capacities
  flags := by
    refine Eq.trans (total_update_same ?_) valid.flags
    simp [Thread.owned, stands, Position.owned]
  inside := valid.inside
  slices := by
    have same : total Thread.used (s.move t .idle).threads = total Thread.used s.threads :=
      total_move_same Position.used (by rw [stands]; rfl)
    simp only [same]
    exact valid.slices
  counted := by
    have counted := valid.counted
    rw [outstanding_add stands, capacityOf_cons, ← Nat.add_assoc] at counted
    rw [valid.sliceCapacity_eq]
    exact ((addSize_modEq _ _).add_right _).trans counted
  small := addSize_lt _ _

/-- Handing a slice over moves it from one thread's part of a total to another's. -/
theorem total_handOver [DecidableEq τ] (part : Position → Multiset Nat) {t u : τ} {index : Nat}
    (holds : index ∈ (s.threads t).held) :
    total (fun thread => part thread.position + thread.held)
        ((s.release t index).receive u index).threads =
      total (fun thread => part thread.position + thread.held) s.threads := by
  have lost : total (fun thread => part thread.position + thread.held) s.threads =
      index ::ₘ total (fun thread => part thread.position + thread.held)
        (s.release t index).threads := by
    apply total_update_loses
    rw [← Multiset.add_cons, Multiset.cons_erase holds]
  have gained : total (fun thread => part thread.position + thread.held)
      ((s.release t index).receive u index).threads =
        index ::ₘ total (fun thread => part thread.position + thread.held)
          (s.release t index).threads := by
    apply total_update_gains
    exact Multiset.add_cons _ _ _
  exact gained.trans lost.symm

theorem handedOver [DecidableEq τ] (valid : s.Valid o) {t u : τ} {index : Nat}
    (holds : index ∈ (s.threads t).held) : ((s.release t index).receive u index).Valid o :=
  valid.of_totals (total_handOver Position.owned holds) (total_handOver Position.used holds)
    (total_handOver Position.outstanding holds)

/-- The pool knows every slice that a thread holds. -/
theorem known (valid : s.Valid o) {t : τ} {index : Nat} (holds : index ∈ (s.threads t).held) :
    ¬ s.pool.capacity ≤ index := by
  have owned : index ∈ (s.threads t).owned :=
    Multiset.mem_of_le ((s.threads t).held_le_used.trans (s.threads t).used_le_owned) holds
  have inside := valid.owned_inside (mem_total.mpr ⟨t, owned⟩)
  have few : s.pool.pool.length ≤ s.pool.capacity := by
    rw [valid.length_eq, ReservedBufferSlicePool.capacity, valid.options]
    exact length_sliceCapacities o
  omega

/-- A thread that returns a slice still owns it. -/
theorem givenBack [DecidableEq τ] (valid : s.Valid o) {t : τ} {index : Nat}
    (idle : (s.threads t).position = .idle) (holds : index ∈ (s.threads t).held) :
    (s.set t ⟨if s.pool.capacity ≤ index then .idle else .clear index,
      (s.threads t).held.erase index⟩).Valid o := by
  rw [if_neg (valid.known holds)]
  apply valid.of_thread
  · rw [Thread.owned, Thread.owned, idle]
    simp [Position.owned, holds]
  · rw [Thread.used, Thread.used, idle]
    simp [Position.used, holds]
  · rw [Thread.outstanding, Thread.outstanding, idle]
    simp [Position.outstanding, holds]

theorem step [DecidableEq τ] {s' : System α τ} {a : Action α τ} (valid : s.Valid o)
    (taken : s.step a = some s') : s'.Valid o := by
  cases step_effect taken with
  | borrow idle =>
      apply valid.of_thread <;>
        simp [Thread.owned, Thread.used, Thread.outstanding, idle, Position.owned, Position.used,
          Position.outstanding]
  | exhausted stands _ | occupied stands _ _ =>
      apply valid.of_thread <;>
        simp [Thread.owned, Thread.used, Thread.outstanding, stands, Position.owned, Position.used,
          Position.outstanding]
  | taken stands inside free => exact valid.taken stands inside free
  | subtract stands => exact valid.subtracted stands
  | @push t index item holds =>
      apply valid.written
      · exact mem_total.mpr ⟨t, Multiset.mem_of_le (s.threads t).held_le_used holds⟩
      · exact fun slice => slice.capacity_push item
      · exact fun slice formed => (formed.push item).1
  | handOver holds => exact valid.handedOver holds
  | giveBack idle holds => exact valid.givenBack idle holds
  | clear stands => exact valid.cleared stands
  | reset stands => exact valid.flagReset stands
  | add stands => exact valid.added stands

theorem exec [DecidableEq τ] {value : α} {actions : List (Action α τ)}
    (reached : exec System.step (start o value τ) actions = some s) : s.Valid o :=
  invariant_always (Valid o) (.initially o value) (fun _ _ _ valid taken => valid.step taken)
    reached

end Valid

end System

end Spoor.Buffer.ReservedBufferSlicePool
