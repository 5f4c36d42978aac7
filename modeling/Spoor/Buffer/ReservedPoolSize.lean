import Spoor.Buffer.ReservedPoolSteps

/-! # What the size of a reserved pool says

While no slice is counted twice among those that are outstanding, the size is
exactly the capacity that they leave.  That is so whenever no call is in
progress.  In between, a slice whose flag is already reset can be borrowed and
subtracted before its return is added, and then the size wraps.
-/

namespace Spoor.Buffer.ReservedBufferSlicePool

open Lib.MachineInteger Lib.Threads Lib.Transition

variable {α τ : Type} [Fintype τ]

/-- The slice that a thread in this position owns without having used it. -/
def Position.pending : Position → Multiset Nat
  | .subtract index | .reset index => {index}
  | _ => 0

theorem Thread.owned_eq (t : Thread) : t.owned = t.used + t.position.pending := by
  cases position : t.position <;>
    simp [Thread.owned, Thread.used, Position.owned, Position.used, Position.pending, position,
      Multiset.add_comm]

namespace System

variable {o : Options} {s : System α τ}

theorem Valid.disjoint (valid : s.Valid o) :
    Disjoint (total Thread.used s.threads) (total (·.position.pending) s.threads) := by
  have split : total Thread.owned s.threads =
      total Thread.used s.threads + total (·.position.pending) s.threads := by
    simp only [total, Thread.owned_eq, Finset.sum_add_distrib]
  have distinct := valid.nodup
  rw [split, Multiset.nodup_add] at distinct
  exact distinct.2.2

/-- A slice is empty when it is handed out. -/
theorem Valid.empty_of_subtract (valid : s.Valid o) {t : τ} {index : Nat}
    (stands : (s.threads t).position = .subtract index) :
    ∃ slice, s.pool.pool[index]? = some slice ∧ slice.size = 0 := by
  have owned : index ∈ (s.threads t).owned := by simp [Thread.owned, stands, Position.owned]
  have inside := valid.owned_inside (mem_total.mpr ⟨t, owned⟩)
  refine ⟨_, List.getElem?_eq_getElem inside, ?_⟩
  have pending : index ∈ total (·.position.pending) s.threads := by
    refine mem_total.mpr ⟨t, ?_⟩
    simp [stands, Position.pending]
  rcases (valid.slices index _ (List.getElem?_eq_getElem inside)).2 with empty | used
  · exact empty
  · exact absurd pending (Multiset.disjoint_left.mp valid.disjoint used)

/-- Two threads do not hold the same slice. -/
theorem Valid.exclusive (valid : s.Valid o) {t u : τ} {index : Nat}
    (holds : index ∈ (s.threads t).owned) (other : index ∈ (s.threads u).owned) : t = u := by
  by_contra different
  have distinct := Multiset.nodup_of_le (add_le_total different) valid.nodup
  rw [Multiset.nodup_add] at distinct
  exact Multiset.disjoint_left.mp distinct.2.2 holds other

theorem capacityOf_le (o : Options) {indices : Multiset Nat} (distinct : indices.Nodup)
    (inside : ∀ index ∈ indices, index < o.sliceCapacities.length) :
    capacityOf o indices ≤ o.capacity := by
  have below : (⟨indices, distinct⟩ : Finset Nat) ⊆ Finset.range o.sliceCapacities.length :=
    fun index listed => Finset.mem_range.mpr (inside index listed)
  calc capacityOf o indices
      = ∑ index ∈ (⟨indices, distinct⟩ : Finset Nat), o.sliceCapacity index := rfl
    _ ≤ ∑ index ∈ Finset.range o.sliceCapacities.length, o.sliceCapacity index :=
        Finset.sum_le_sum_of_subset below
    _ = o.sliceCapacities.sum := sum_range_getD o.sliceCapacities
    _ ≤ o.capacity := sum_sliceCapacities o

theorem capacityOf_eq_zero (o : Options) {indices : Multiset Nat}
    (inside : ∀ index ∈ indices, index < o.sliceCapacities.length) :
    capacityOf o indices = 0 ↔ indices = 0 := by
  constructor
  · intro zero
    rw [capacityOf, Multiset.sum_eq_zero_iff] at zero
    refine Multiset.eq_zero_of_forall_notMem fun index listed => ?_
    have none := zero _ (Multiset.mem_map_of_mem o.sliceCapacity listed)
    have positive := o.sliceCapacities_pos _ (List.getElem_mem (inside index listed))
    rw [Options.sliceCapacity, List.getD_eq_getElem?_getD,
      List.getElem?_eq_getElem (inside index listed), Option.getD_some] at none
    omega
  · rintro rfl
    rfl

/-- Without slices that are outstanding twice the size does not wrap. -/
theorem Valid.size_add (valid : s.Valid o)
    (distinct : (total Thread.outstanding s.threads).Nodup)
    (inside : ∀ index ∈ total Thread.outstanding s.threads, index < o.sliceCapacities.length) :
    s.pool.size + capacityOf o (total Thread.outstanding s.threads) = o.capacity := by
  have below := capacityOf_le o distinct inside
  have counted := valid.counted
  have small := valid.small
  have representable := o.representable
  simp only [Nat.ModEq, sizeModulus] at counted small representable
  omega

theorem outstanding_of_idle (quiet : ∀ t, (s.threads t).position = .idle) :
    total Thread.outstanding s.threads = total Thread.held s.threads := by
  simp only [total, Thread.outstanding, quiet, Position.outstanding, zero_add]

theorem held_le_owned (s : System α τ) :
    total Thread.held s.threads ≤ total Thread.owned s.threads :=
  Finset.sum_le_sum fun t _ => (s.threads t).held_le_used.trans (s.threads t).used_le_owned

theorem full_iff (valid : s.Valid o)
    (size : s.pool.size + capacityOf o (total Thread.outstanding s.threads) = o.capacity)
    (inside : ∀ index ∈ total Thread.outstanding s.threads, index < o.sliceCapacities.length) :
    s.pool.full = true ↔ total Thread.outstanding s.threads = 0 := by
  rw [ReservedBufferSlicePool.full, ReservedBufferSlicePool.capacity, valid.options,
    decide_eq_true_eq, ← capacityOf_eq_zero o inside]
  omega

theorem Valid.held_nodup (valid : s.Valid o) : (total Thread.held s.threads).Nodup :=
  Multiset.nodup_of_le (held_le_owned s) valid.nodup

theorem Valid.held_inside (valid : s.Valid o) :
    ∀ index ∈ total Thread.held s.threads, index < o.sliceCapacities.length := by
  intro index listed
  rw [← valid.length_eq]
  exact valid.owned_inside (Multiset.mem_of_le (held_le_owned s) listed)

/-- Between calls the size is the capacity without what is held. -/
theorem Valid.size_add_held (valid : s.Valid o) (quiet : ∀ t, (s.threads t).position = .idle) :
    s.pool.size + capacityOf o (total Thread.held s.threads) = o.capacity := by
  have outstanding := outstanding_of_idle quiet
  rw [← outstanding]
  apply valid.size_add
  · rw [outstanding]
    exact valid.held_nodup
  · rw [outstanding]
    exact valid.held_inside

/-- No slice has two holders, a slice is empty when it is handed out, and
    between calls the size is the capacity without what is held. -/
theorem reservedPool_exclusive [DecidableEq τ] {value : α} {actions : List (Action α τ)}
    (reached : exec System.step (start o value τ) actions = some s) :
    (∀ t u index, index ∈ (s.threads t).held → index ∈ (s.threads u).held → t = u) ∧
    (∀ t, (s.threads t).held.Nodup) ∧
    (∀ t index, (s.threads t).position = .subtract index →
      ∃ slice, s.pool.pool[index]? = some slice ∧ slice.size = 0) ∧
    ((∀ t, (s.threads t).position = .idle) →
      ((total Thread.held s.threads).map s.pool.sliceCapacity).sum ≤ s.pool.capacity ∧
      s.pool.size =
        s.pool.capacity - ((total Thread.held s.threads).map s.pool.sliceCapacity).sum ∧
      (s.pool.full = true ↔ ∀ t, (s.threads t).held = 0)) := by
  have valid := Valid.exec reached
  have owns : ∀ t, (s.threads t).held ≤ (s.threads t).owned := fun t =>
    (s.threads t).held_le_used.trans (s.threads t).used_le_owned
  refine ⟨?_, ?_, fun t index stands => valid.empty_of_subtract stands, ?_⟩
  · intro t u index holds other
    exact valid.exclusive (Multiset.mem_of_le (owns t) holds) (Multiset.mem_of_le (owns u) other)
  · intro t
    have part : (s.threads t).owned ≤ total Thread.owned s.threads :=
      Finset.single_le_sum (fun _ _ => Multiset.zero_le _) (Finset.mem_univ t)
    exact Multiset.nodup_of_le ((owns t).trans part) valid.nodup
  · intro quiet
    have outstanding := outstanding_of_idle quiet
    have inside := valid.held_inside
    have size := valid.size_add_held quiet
    rw [← outstanding] at inside size
    have full := full_iff valid size inside
    have sums : ((total Thread.held s.threads).map s.pool.sliceCapacity).sum =
        capacityOf o (total Thread.outstanding s.threads) := by
      rw [outstanding, capacityOf]
      simp only [valid.sliceCapacity_eq]
    refine ⟨?_, ?_, ?_⟩
    · rw [sums, ReservedBufferSlicePool.capacity, valid.options]
      omega
    · rw [sums, ReservedBufferSlicePool.capacity, valid.options]
      omega
    · rw [full, outstanding]
      simp [total]

/-- A pool of one slice for one item. -/
def oneSlice : Options := ⟨1, 1, by decide⟩

/-- Two borrowers one after the other. -/
def orderlyReturn : List (Action Nat Bool) :=
  [.borrow false, .exchange false, .subtract false, .giveBack false 0, .clear false, .reset false,
    .borrow true, .exchange true, .add false, .subtract true]

theorem orderlyReturn_exclusive :
    ∃ s, exec System.step (start oneSlice 0 Bool) orderlyReturn = some s ∧
      0 ∈ (s.threads true).held ∧ (∀ t u index, index ∈ (s.threads t).held →
        index ∈ (s.threads u).held → t = u) ∧
      s.pool.size =
        s.pool.capacity - ((total Thread.held s.threads).map s.pool.sliceCapacity).sum := by
  obtain ⟨s, reached, holds, quiet⟩ : ∃ s,
      exec System.step (start oneSlice 0 Bool) orderlyReturn = some s ∧
        0 ∈ (s.threads true).held ∧ ∀ t, (s.threads t).position = .idle :=
    ⟨_, rfl, by decide, by decide⟩
  obtain ⟨exclusive, -, -, accounted⟩ := reservedPool_exclusive reached
  exact ⟨s, reached, holds, exclusive, (accounted quiet).2.1⟩

/-- A thread in the first position is about to subtract a slice that a thread in
    the second position has yet to add back. -/
def overtakes : Position → Position → Bool
  | .subtract index, .add other => index = other
  | _, _ => false

/-- The condition on a subtraction: no return of the same slice stands between
    its reset of the flag and its addition. -/
def Settled (s : System α τ) : Action α τ → Prop
  | .subtract t => ∀ u, overtakes (s.threads t).position (s.threads u).position = false
  | _ => True

instance decidableSettled (s : System α τ) : ∀ a, Decidable (Settled s a)
  | .subtract t =>
      inferInstanceAs
        (Decidable (∀ u, overtakes (s.threads t).position (s.threads u).position = false))
  | .borrow _ | .exchange _ | .push _ _ _ | .handOver _ _ _ | .giveBack _ _ | .clear _ | .reset _
  | .add _ => .isTrue trivial

/-- No slice is outstanding twice. -/
structure Single (o : Options) (s : System α τ) : Prop where
  valid : s.Valid o
  distinct : (total Thread.outstanding s.threads).Nodup
  inside : ∀ index ∈ total Thread.outstanding s.threads, index < o.sliceCapacities.length

theorem Single.initially (o : Options) (value : α) : (start o value τ).Single o := by
  have none : total Thread.outstanding (start o value τ).threads = 0 := total_zero fun t => rfl
  refine ⟨.initially o value, ?_, ?_⟩
  · rw [none]
    exact Multiset.nodup_zero
  · simp [none]

/-- A slice that is about to be subtracted is not outstanding, unless a return of
    it is still to be added. -/
theorem Valid.notMem_outstanding (valid : s.Valid o) {t : τ} {index : Nat}
    (stands : (s.threads t).position = .subtract index)
    (settled : ∀ u, (s.threads u).position ≠ .add index) :
    index ∉ total Thread.outstanding s.threads := by
  have owned : index ∈ (s.threads t).owned := by simp [Thread.owned, stands, Position.owned]
  have pending : index ∈ total (·.position.pending) s.threads :=
    mem_total.mpr ⟨t, by simp [stands, Position.pending]⟩
  intro listed
  obtain ⟨u, outstanding⟩ := mem_total.mp listed
  rw [Thread.outstanding, Multiset.mem_add] at outstanding
  rcases outstanding with passing | holds
  · have returning : (s.threads u).position = .clear index ∨
        (s.threads u).position = .reset index := by
      have elsewhere := settled u
      cases position : (s.threads u).position <;>
        simp_all [Position.outstanding]
    have other : index ∈ (s.threads u).owned := by
      rcases returning with position | position <;>
        simp [Thread.owned, position, Position.owned]
    obtain rfl := valid.exclusive owned other
    rw [stands] at returning
    simp at returning
  · have used : index ∈ total Thread.used s.threads :=
      mem_total.mpr ⟨u, Multiset.mem_of_le (s.threads u).held_le_used holds⟩
    exact Multiset.disjoint_left.mp valid.disjoint used pending

theorem Single.of_outstanding {s' : System α τ} (single : s.Single o) (valid : s'.Valid o)
    (same : total Thread.outstanding s'.threads = total Thread.outstanding s.threads) :
    s'.Single o := by
  refine ⟨valid, ?_, ?_⟩
  · rw [same]
    exact single.distinct
  · rw [same]
    exact single.inside

theorem Single.step [DecidableEq τ] {s' : System α τ} {a : Action α τ} (single : s.Single o)
    (settled : Settled s a) (taken : s.step a = some s') : s'.Single o := by
  have valid := single.valid.step taken
  cases step_effect taken with
  | borrow idle =>
      apply single.of_outstanding valid
      apply total_update_same
      simp [Thread.outstanding, idle, Position.outstanding]
  | exhausted stands _ | occupied stands _ _ | taken stands _ _ | clear stands | reset stands =>
      apply single.of_outstanding valid
      apply total_update_same
      simp [Thread.outstanding, stands, Position.outstanding]
  | push holds => exact single.of_outstanding valid rfl
  | handOver holds =>
      exact single.of_outstanding valid (Valid.total_handOver Position.outstanding holds)
  | giveBack idle holds =>
      apply single.of_outstanding valid
      apply total_update_same
      rw [if_neg (single.valid.known holds), Thread.outstanding, Thread.outstanding, idle]
      simp [Position.outstanding, holds]
  | @subtract t index stands =>
      have fresh := single.valid.notMem_outstanding stands fun u adds => by
        have free := settled u
        simp [stands, adds, overtakes] at free
      have more := outstanding_subtract stands
      refine ⟨valid, ?_, ?_⟩
      · rw [more]
        exact Multiset.nodup_cons.mpr ⟨fresh, single.distinct⟩
      · intro other listed
        rw [more, Multiset.mem_cons] at listed
        rcases listed with rfl | earlier
        · rw [← single.valid.length_eq]
          have owned : other ∈ (s.threads t).owned := by
            simp [Thread.owned, stands, Position.owned]
          exact single.valid.owned_inside (mem_total.mpr ⟨t, owned⟩)
        · exact single.inside other earlier
  | @add t index stands =>
      have less := outstanding_add stands
      have distinct := single.distinct
      have inside := single.inside
      rw [less] at distinct inside
      exact ⟨valid, (Multiset.nodup_cons.mp distinct).2,
        fun other listed => inside other (Multiset.mem_cons_of_mem listed)⟩

/-- In a run whose subtractions are all settled the size never wraps, and the
    pool is never full while every slice is held. -/
theorem reservedPool_size_le [DecidableEq τ] {value : α} {actions : List (Action α τ)}
    (settled : Meets System.step Settled (start o value τ) actions)
    (reached : exec System.step (start o value τ) actions = some s) :
    s.pool.size ≤ s.pool.capacity ∧
      (s.pool.pool ≠ [] → (∀ index < s.pool.pool.length, ∃ t, index ∈ (s.threads t).held) →
        s.pool.full = false) := by
  have single : s.Single o :=
    invariant Settled (Single o) (.initially o value)
      (fun _ _ _ single settled taken => single.step settled taken) settled reached
  have size := single.valid.size_add single.distinct single.inside
  refine ⟨?_, ?_⟩
  · rw [ReservedBufferSlicePool.capacity, single.valid.options]
    omega
  · intro some held
    obtain ⟨t, holds⟩ := held 0 (List.length_pos_iff.mpr some)
    have outstanding : 0 ∈ total Thread.outstanding s.threads :=
      mem_total.mpr ⟨t, Multiset.mem_add.mpr (.inr holds)⟩
    rw [← Bool.not_eq_true, full_iff single.valid size single.inside]
    intro none
    rw [none] at outstanding
    exact Multiset.notMem_zero 0 outstanding

/-- A second borrower takes the slice back before the first return is added. -/
def overtakenReturn : List (Action Nat Bool) :=
  [.borrow false, .exchange false, .subtract false, .giveBack false 0, .clear false, .reset false,
    .borrow true, .exchange true, .subtract true]

theorem overtakenReturn_wraps :
    ∃ s, exec System.step (start oneSlice 0 Bool) overtakenReturn = some s ∧
      s.pool.capacity < s.pool.size ∧ s.pool.pool ≠ [] ∧
      (∀ index < s.pool.pool.length, ∃ t, index ∈ (s.threads t).held) ∧ s.pool.full = true := by
  refine ⟨_, rfl, ?_, ?_, ?_, ?_⟩
  · decide
  · decide
  · decide
  · decide

theorem orderlyReturn_settled :
    ∃ s, exec System.step (start oneSlice 0 Bool) orderlyReturn = some s ∧
      s.pool.size ≤ s.pool.capacity ∧ s.pool.full = false := by
  obtain ⟨s, reached, some, held⟩ : ∃ s,
      exec System.step (start oneSlice 0 Bool) orderlyReturn = some s ∧ s.pool.pool ≠ [] ∧
        ∀ index < s.pool.pool.length, ∃ t, index ∈ (s.threads t).held :=
    ⟨_, rfl, by decide, by decide⟩
  obtain ⟨bounded, full⟩ := reservedPool_size_le (by decide +kernel) reached
  exact ⟨s, reached, bounded, full some held⟩

end System

end Spoor.Buffer.ReservedBufferSlicePool
