import Mathlib.Data.Multiset.Filter
import Spoor.Buffer.BufferSlicePool

/-! # What a pool knows about the slices it lent

A pool keeps no table of its borrowers.  It knows a slice by its place in the
reserved pool or by nothing but its capacity.  `Accounts` says that a collection
of lent slices is what the pool's flags and counters add up to; borrowing adds a
slice to it, returning takes one away, and a pool that accounts for nothing is
full.  What a pool lends is empty: slices are made empty, and a slice that comes
back is cleared.
-/

namespace Spoor.Buffer

open Lib.MachineInteger

variable {α : Type}

/-- What identifies a slice to its owner. -/
abbrev Token : Type := Owner × Nat

def OwnedSlicePtr.token (ptr : OwnedSlicePtr Owner α) : Token := (ptr.owner, ptr.slice.capacity)

namespace ReservedBufferSlicePool

def sliceCapacity (p : ReservedBufferSlicePool α) (index : Nat) : Nat :=
  (p.pool.map Slice.capacity).getD index 0

/-- The pool lent the slices with these indices and capacities. -/
structure Accounts (p : ReservedBufferSlicePool α) (lent : Multiset (Nat × Nat)) : Prop where
  lent : lent = p.borrowed.val.map fun index => (index, p.sliceCapacity index)
  inside : p.borrowed ⊆ Finset.range p.pool.length
  countable : p.pool.length ≤ p.capacity
  fits : ∑ index ∈ Finset.range p.pool.length, p.sliceCapacity index ≤ p.capacity
  size : p.size + ∑ index ∈ p.borrowed, p.sliceCapacity index = p.capacity

variable {p : ReservedBufferSlicePool α} {lent : Multiset (Nat × Nat)}

/-- Slices that can have items take up all of the capacity. -/
theorem sum_sliceCapacities_eq {o : Options} (positive : o.maxSliceCapacity ≠ 0) :
    o.sliceCapacities.sum = o.capacity := by
  have whole := Nat.div_add_mod' o.capacity o.maxSliceCapacity
  rw [Options.sliceCapacities, if_neg positive]
  split <;> simp <;> omega

theorem sum_sliceCapacities (o : Options) : o.sliceCapacities.sum ≤ o.capacity := by
  by_cases none : o.maxSliceCapacity = 0
  · simp [Options.sliceCapacities, none]
  · exact Nat.le_of_eq (sum_sliceCapacities_eq none)

theorem length_sliceCapacities (o : Options) : o.sliceCapacities.length ≤ o.capacity := by
  unfold Options.sliceCapacities
  split
  · exact Nat.zero_le _
  · rename_i positive
    have whole := Nat.div_add_mod' o.capacity o.maxSliceCapacity
    have many : o.capacity / o.maxSliceCapacity ≤
        o.capacity / o.maxSliceCapacity * o.maxSliceCapacity :=
      Nat.le_mul_of_pos_right _ (Nat.pos_of_ne_zero positive)
    split <;> simp <;> omega

theorem sum_range_getD (l : List Nat) :
    ∑ index ∈ Finset.range l.length, l.getD index 0 = l.sum := by
  induction l with
  | nil => rfl
  | cons first rest ih =>
      rw [List.length_cons, Finset.sum_range_succ', List.sum_cons, ← ih]
      simp [Nat.add_comm]

theorem Accounts.initially (o : Options) (value : α) : (new o value).Accounts 0 where
  lent := rfl
  inside := Finset.empty_subset _
  countable := by
    simp only [new, List.length_map]
    exact length_sliceCapacities o
  fits := by
    have capacities : (new o value).pool.map Slice.capacity = o.sliceCapacities := by
      simp [new, Slice.capacity, UnownedBufferSlice.capacity, UnownedBufferSlice.new,
        Function.comp_def]
    simp only [sliceCapacity, capacities]
    rw [← List.length_map (f := Slice.capacity), capacities, sum_range_getD]
    exact sum_sliceCapacities o
  size := by simp [new, capacity]

theorem Accounts.sum_le (accounts : p.Accounts lent) {indices : Finset Nat}
    (inside : indices ⊆ Finset.range p.pool.length) :
    ∑ index ∈ indices, p.sliceCapacity index ≤ p.capacity :=
  Nat.le_trans (Finset.sum_le_sum_of_subset inside) accounts.fits

/-- What `Borrow` does when it lends a slice. -/
theorem borrow_ok {overtaken : Overtaken} {ptr : OwnedSlicePtr Owner α}
    {p' : ReservedBufferSlicePool α} (lends : p.borrow overtaken = (.ok ptr, p')) :
    ∃ index slice, p.pool[index]? = some slice ∧ index ∉ p.borrowed ∧
      ptr = ⟨.reserved index, slice⟩ ∧
      p' = { p with
        borrowed := insert index p.borrowed
        size := subSize p.size slice.capacity } := by
  unfold borrow at lends
  simp only at lends
  split at lends
  · simp at lends
  · rename_i index found
    split at lends
    · simp at lends
    · rename_i slice stored
      obtain ⟨answer, rfl⟩ := Prod.mk.inj lends
      obtain rfl := Except.ok.inj answer
      exact ⟨index, slice, stored, by simpa using List.find?_some found, rfl, rfl⟩

theorem borrow_refused {overtaken : Overtaken} {error : BorrowError}
    {p' : ReservedBufferSlicePool α} (refuses : p.borrow overtaken = (.error error, p')) :
    p' = p := by
  unfold borrow at refuses
  simp only at refuses
  split at refuses
  · exact (Prod.mk.inj refuses).2.symm
  · split at refuses
    · exact (Prod.mk.inj refuses).2.symm
    · simp at refuses

/-- What a borrower gets is a slice nobody else has. -/
theorem Accounts.lend {overtaken : Overtaken} {ptr : OwnedSlicePtr Owner α}
    {p' : ReservedBufferSlicePool α} (accounts : p.Accounts lent)
    (lends : p.borrow overtaken = (.ok ptr, p')) :
    ∃ index, ptr.owner = .reserved index ∧
      p'.Accounts ((index, ptr.slice.capacity) ::ₘ lent) := by
  obtain ⟨index, slice, stored, free, rfl, rfl⟩ := borrow_ok lends
  refine ⟨index, rfl, ?_⟩
  have capacity : p.sliceCapacity index = slice.capacity := by simp [sliceCapacity, stored]
  have inside : insert index p.borrowed ⊆ Finset.range p.pool.length := by
    refine Finset.insert_subset ?_ accounts.inside
    exact Finset.mem_range.mpr (List.getElem?_eq_some_iff.mp stored).1
  have more := accounts.sum_le inside
  have size := accounts.size
  have representable := p.options.representable
  rw [Finset.sum_insert free, capacity] at more
  constructor
  · change _ = Multiset.map (fun index => (index, p.sliceCapacity index))
      (insert index p.borrowed).val
    rw [Finset.insert_val_of_notMem free, Multiset.map_cons, capacity, accounts.lent]
  · exact inside
  · exact accounts.countable
  · exact accounts.fits
  · change subSize p.size slice.capacity + ∑ index ∈ insert index p.borrowed,
      p.sliceCapacity index = p.capacity
    rw [Finset.sum_insert free, capacity,
      subSize_of_le (by omega) (by simp only [ReservedBufferSlicePool.capacity] at size; omega)]
    omega

theorem capacity_clear (slice : Slice α) : slice.clear.capacity = slice.capacity := by
  cases slice <;> rfl

/-- A slice keeps its capacity while it is away. -/
theorem map_capacity_set {index : Nat} {slice : Slice α} (inside : index < p.pool.length)
    (capacity : p.sliceCapacity index = slice.capacity) :
    (p.pool.set index slice.clear).map Slice.capacity = p.pool.map Slice.capacity := by
  have stored : (p.pool.map Slice.capacity)[index]? = some slice.clear.capacity := by
    rw [capacity_clear, ← capacity, sliceCapacity, List.getD_eq_getElem?_getD]
    simp [inside]
  obtain ⟨bounded, same⟩ := List.getElem?_eq_some_iff.mp stored
  rw [List.map_set, ← same, List.set_getElem_self]

theorem Accounts.returned {index : Nat} {slice : Slice α}
    (accounts : p.Accounts ((index, slice.capacity) ::ₘ lent)) :
    (p.giveBack index slice).Accounts lent := by
  obtain ⟨member, capacity⟩ : index ∈ p.borrowed ∧ p.sliceCapacity index = slice.capacity := by
    have listed := accounts.lent ▸ Multiset.mem_cons_self (index, slice.capacity) lent
    simpa using listed
  have inside : index < p.pool.length := Finset.mem_range.mp (accounts.inside member)
  have countable := accounts.countable
  have size := accounts.size
  have representable := p.options.representable
  have rest := Finset.add_sum_erase p.borrowed p.sliceCapacity member
  rw [giveBack, if_neg (by omega)]
  set returned : ReservedBufferSlicePool α :=
    { p with
      pool := p.pool.set index slice.clear
      borrowed := p.borrowed.erase index
      size := addSize p.size slice.capacity } with returns
  have sized : returned.sliceCapacity = p.sliceCapacity := by
    funext other
    rw [sliceCapacity, sliceCapacity, returns, map_capacity_set inside capacity]
  have length : returned.pool.length = p.pool.length := List.length_set
  constructor
  · have split := accounts.lent
    rw [← Finset.insert_erase member, Finset.insert_val_of_notMem (Finset.notMem_erase _ _),
      Multiset.map_cons, capacity] at split
    rw [sized]
    exact (Multiset.cons_inj_right _).mp split
  · rw [length]
    exact (Finset.erase_subset _ _).trans accounts.inside
  · rw [length]
    exact countable
  · rw [length, sized]
    exact accounts.fits
  · change addSize p.size slice.capacity + ∑ other ∈ p.borrowed.erase index,
      returned.sliceCapacity other = p.capacity
    rw [capacity] at rest
    rw [sized, addSize_of_lt (by simp only [ReservedBufferSlicePool.capacity] at size; omega)]
    omega

/-- What is lent and what is left add up to the capacity. -/
theorem Accounts.size_add_lent (accounts : p.Accounts lent) :
    p.size + (lent.map Prod.snd).sum = p.capacity := by
  rw [accounts.lent, Multiset.map_map]
  exact accounts.size

theorem Accounts.isFull (accounts : p.Accounts 0) : p.full = true := by
  have size := accounts.size_add_lent
  rw [Multiset.map_zero, Multiset.sum_zero] at size
  rw [full, decide_eq_true_eq]
  omega

end ReservedBufferSlicePool

namespace DynamicBufferSlicePool

/-- The pool lent slices with these capacities. -/
structure Accounts (p : DynamicBufferSlicePool) (lent : Multiset Nat) : Prop where
  borrowed : p.borrowedItemsSize = lent.sum
  bounded : p.borrowedItemsSize ≤ p.capacity

variable {p p' : DynamicBufferSlicePool} {lent : Multiset Nat}

theorem Accounts.initially (o : Options) : (new o).Accounts 0 where
  borrowed := rfl
  bounded := Nat.zero_le _

theorem Accounts.size_eq (accounts : p.Accounts lent) :
    p.size = p.capacity - p.borrowedItemsSize :=
  subSize_of_le accounts.bounded p.options.representable

/-- An exchange never takes more than what is left. -/
theorem Accounts.exchange (accounts : p.Accounts lent) (preferred : Nat) :
    p.borrowedItemsSize + p.bufferSize preferred ≤ p.capacity ∧
      addSize p.borrowedItemsSize (p.bufferSize preferred) =
        p.borrowedItemsSize + p.bufferSize preferred := by
  have bounded := accounts.bounded
  have left := accounts.size_eq
  have representable := p.options.representable
  have asked : p.bufferSize preferred ≤ p.size :=
    Nat.le_trans (Nat.min_le_right _ _) (Nat.min_le_right _ _)
  have fits : p.borrowedItemsSize + p.bufferSize preferred ≤ p.capacity := by omega
  exact ⟨fits, addSize_of_lt (Nat.lt_of_le_of_lt fits representable)⟩

/-- What `Borrow` does when it lends a slice. -/
theorem borrow_ok {overtaken : Overtaken} {preferred : Nat} {ptr : OwnedSlicePtr Owner α}
    (lends : p.borrow overtaken preferred = (.ok ptr, p')) :
    0 < p.bufferSize preferred ∧ ptr = ⟨.dynamic, .owned (.new (p.bufferSize preferred))⟩ ∧
      p' = { p with
        borrowedItemsSize := addSize p.borrowedItemsSize (p.bufferSize preferred) } := by
  unfold borrow at lends
  simp only at lends
  split at lends
  · split at lends
    · simp at lends
    · rename_i room
      obtain ⟨answer, rfl⟩ := Prod.mk.inj lends
      obtain rfl := Except.ok.inj answer
      exact ⟨Nat.pos_of_ne_zero (by omega), rfl, rfl⟩
  · simp at lends

/-- A refused `Borrow` at most exchanges the number it found for itself. -/
theorem borrow_refused {overtaken : Overtaken} {preferred : Nat} {error : BorrowError}
    (refuses : (p.borrow overtaken preferred : Except _ (OwnedSlicePtr Owner α) × _) =
      (.error error, p')) :
    p' = p ∨ p' = { p with borrowedItemsSize := addSize p.borrowedItemsSize 0 } := by
  unfold borrow at refuses
  simp only at refuses
  split at refuses
  · split at refuses
    · rename_i none
      obtain ⟨-, rfl⟩ := Prod.mk.inj refuses
      rw [Nat.lt_one_iff.mp none]
      exact .inr rfl
    · simp at refuses
  · exact .inl (Prod.mk.inj refuses).2.symm

theorem Accounts.lend {overtaken : Overtaken} {preferred : Nat} {ptr : OwnedSlicePtr Owner α}
    (accounts : p.Accounts lent) (lends : p.borrow overtaken preferred = (.ok ptr, p')) :
    ptr.owner = .dynamic ∧ p'.Accounts (ptr.slice.capacity ::ₘ lent) := by
  obtain ⟨fits, sum⟩ := accounts.exchange preferred
  obtain ⟨-, rfl, rfl⟩ := borrow_ok lends
  refine ⟨rfl, ?_, ?_⟩
  · rw [Multiset.sum_cons, ← accounts.borrowed, sum, Nat.add_comm]
    rfl
  · rw [sum]
    exact fits

theorem Accounts.refuse {overtaken : Overtaken} {preferred : Nat} {error : BorrowError}
    (accounts : p.Accounts lent)
    (refuses : (p.borrow overtaken preferred : Except _ (OwnedSlicePtr Owner α) × _) =
      (.error error, p')) : p'.Accounts lent := by
  rcases borrow_refused refuses with rfl | rfl
  · exact accounts
  · have small := Nat.lt_of_le_of_lt accounts.bounded p.options.representable
    rw [addSize_of_lt small, Nat.add_zero]
    exact accounts

theorem Accounts.returned {slice : Slice α}
    (accounts : p.Accounts (slice.capacity ::ₘ lent)) : (p.giveBack slice).Accounts lent := by
  have bounded := accounts.bounded
  have representable := p.options.representable
  have borrowed := accounts.borrowed
  rw [Multiset.sum_cons] at borrowed
  have less : (p.giveBack slice).borrowedItemsSize = lent.sum := by
    change subSize p.borrowedItemsSize slice.capacity = lent.sum
    rw [subSize_of_le (by omega) (Nat.lt_of_le_of_lt bounded representable)]
    omega
  exact ⟨less, by rw [less]; exact Nat.le_trans (by omega) bounded⟩

theorem Accounts.size_add_lent (accounts : p.Accounts lent) : p.size + lent.sum = p.capacity := by
  have size := accounts.size_eq
  have borrowed := accounts.borrowed
  have bounded := accounts.bounded
  omega

theorem Accounts.isFull (accounts : p.Accounts 0) : p.full = true := by
  have size := accounts.size_add_lent
  rw [Multiset.sum_zero] at size
  rw [full, decide_eq_true_eq]
  omega

end DynamicBufferSlicePool

def Token.reserved? : Token → Option (Nat × Nat)
  | (.reserved index, capacity) => some (index, capacity)
  | (.dynamic, _) => none

def Token.dynamic? : Token → Option Nat
  | (.reserved _, _) => none
  | (.dynamic, capacity) => some capacity

namespace CombinedBufferSlicePool

/-- The slices of each of the two pools are accounted for by that pool. -/
structure Accounts (p : CombinedBufferSlicePool α) (lent : Multiset Token) : Prop where
  reserved : p.reserved.Accounts (lent.filterMap Token.reserved?)
  dynamic : p.dynamic.Accounts (lent.filterMap Token.dynamic?)

variable {p p' : CombinedBufferSlicePool α} {lent : Multiset Token}

theorem Accounts.initially (o : Options) (value : α) : (new o value).Accounts 0 where
  reserved := .initially o.reserved value
  dynamic := .initially o.dynamic

theorem accounts_cons_reserved {index capacity : Nat} :
    p.Accounts ((.reserved index, capacity) ::ₘ lent) ↔
      p.reserved.Accounts ((index, capacity) ::ₘ lent.filterMap Token.reserved?) ∧
        p.dynamic.Accounts (lent.filterMap Token.dynamic?) := by
  have taken : ((Owner.reserved index, capacity) ::ₘ lent).filterMap Token.reserved? =
      (index, capacity) ::ₘ lent.filterMap Token.reserved? := Multiset.filterMap_cons_some _ _ _ rfl
  have left : ((Owner.reserved index, capacity) ::ₘ lent).filterMap Token.dynamic? =
      lent.filterMap Token.dynamic? := Multiset.filterMap_cons_none _ _ rfl
  constructor
  · rintro ⟨reserved, dynamic⟩
    exact ⟨taken ▸ reserved, left ▸ dynamic⟩
  · rintro ⟨reserved, dynamic⟩
    exact ⟨taken.symm ▸ reserved, left.symm ▸ dynamic⟩

theorem accounts_cons_dynamic {capacity : Nat} :
    p.Accounts ((.dynamic, capacity) ::ₘ lent) ↔
      p.reserved.Accounts (lent.filterMap Token.reserved?) ∧
        p.dynamic.Accounts (capacity ::ₘ lent.filterMap Token.dynamic?) := by
  have left : ((Owner.dynamic, capacity) ::ₘ lent).filterMap Token.reserved? =
      lent.filterMap Token.reserved? := Multiset.filterMap_cons_none _ _ rfl
  have taken : ((Owner.dynamic, capacity) ::ₘ lent).filterMap Token.dynamic? =
      capacity ::ₘ lent.filterMap Token.dynamic? := Multiset.filterMap_cons_some _ _ _ rfl
  constructor
  · rintro ⟨reserved, dynamic⟩
    exact ⟨left ▸ reserved, taken ▸ dynamic⟩
  · rintro ⟨reserved, dynamic⟩
    exact ⟨left.symm ▸ reserved, taken.symm ▸ dynamic⟩

/-- A slice comes from the reserved pool, or from the dynamic pool when the
    reserved pool refuses one. -/
theorem borrow_ok {overtaken : Overtaken} {preferred : Nat} {ptr : OwnedSlicePtr Owner α}
    (lends : borrow overtaken preferred p = (.ok ptr, p')) :
    (p.reserved.borrow overtaken = (.ok ptr, p'.reserved) ∧ p'.dynamic = p.dynamic) ∨
      (∃ error, p.reserved.borrow overtaken = (.error error, p.reserved)) ∧
        p'.reserved = p.reserved ∧
        p.dynamic.borrow overtaken preferred = (.ok ptr, p'.dynamic) := by
  unfold borrow at lends
  split at lends
  · rename_i ptr reserved lends'
    obtain ⟨answer, rfl⟩ := Prod.mk.inj lends
    obtain rfl := Except.ok.inj answer
    exact .inl ⟨lends', rfl⟩
  · rename_i error reserved refuses
    obtain rfl := ReservedBufferSlicePool.borrow_refused refuses
    obtain ⟨answer, rfl⟩ := Prod.mk.inj lends
    exact .inr ⟨⟨error, refuses⟩, rfl, Prod.ext answer rfl⟩

theorem borrow_refused {overtaken : Overtaken} {preferred : Nat} {error : BorrowError}
    (refuses : borrow overtaken preferred p = (.error error, p')) :
    p'.reserved = p.reserved ∧
      (p.dynamic.borrow overtaken preferred : Except _ (OwnedSlicePtr Owner α) × _) =
        (.error error, p'.dynamic) := by
  unfold borrow at refuses
  split at refuses
  · simp at refuses
  · rename_i _ reserved refuses'
    obtain rfl := ReservedBufferSlicePool.borrow_refused refuses'
    obtain ⟨answer, rfl⟩ := Prod.mk.inj refuses
    exact ⟨rfl, Prod.ext answer rfl⟩

theorem Accounts.lend {overtaken : Overtaken} {preferred : Nat} {ptr : OwnedSlicePtr Owner α}
    (accounts : p.Accounts lent) (lends : borrow overtaken preferred p = (.ok ptr, p')) :
    p'.Accounts (ptr.token ::ₘ lent) := by
  rcases borrow_ok lends with ⟨lends', same⟩ | ⟨-, same, lends'⟩
  · obtain ⟨index, owner, lent'⟩ := accounts.reserved.lend lends'
    rw [OwnedSlicePtr.token, owner, accounts_cons_reserved, same]
    exact ⟨lent', accounts.dynamic⟩
  · obtain ⟨owner, lent'⟩ := accounts.dynamic.lend lends'
    rw [OwnedSlicePtr.token, owner, accounts_cons_dynamic, same]
    exact ⟨accounts.reserved, lent'⟩

theorem Accounts.refuse {overtaken : Overtaken} {preferred : Nat} {error : BorrowError}
    (accounts : p.Accounts lent) (refuses : borrow overtaken preferred p = (.error error, p')) :
    p'.Accounts lent := by
  obtain ⟨same, refuses'⟩ := borrow_refused refuses
  refine ⟨?_, accounts.dynamic.refuse refuses'⟩
  rw [same]
  exact accounts.reserved

theorem Accounts.returned {ptr : OwnedSlicePtr Owner α}
    (accounts : p.Accounts (ptr.token ::ₘ lent)) : (p.giveBack ptr).Accounts lent := by
  unfold CombinedBufferSlicePool.giveBack
  cases owner : ptr.owner with
  | reserved index =>
      rw [OwnedSlicePtr.token, owner, accounts_cons_reserved] at accounts
      exact ⟨accounts.1.returned, accounts.2⟩
  | dynamic =>
      rw [OwnedSlicePtr.token, owner, accounts_cons_dynamic] at accounts
      exact ⟨accounts.1, accounts.2.returned⟩

theorem Accounts.isFull (accounts : p.Accounts 0) : p.full = true := by
  rw [CombinedBufferSlicePool.full, Bool.and_eq_true]
  exact ⟨accounts.reserved.isFull, accounts.dynamic.isFull⟩

end CombinedBufferSlicePool

namespace ReservedBufferSlicePool

/-- The slices of the pool are as they are to be lent. -/
def Clean (p : ReservedBufferSlicePool α) : Prop := ∀ slice ∈ p.pool, slice.Fresh

theorem Options.sliceCapacities_pos (o : Options) : ∀ length ∈ o.sliceCapacities, 0 < length := by
  intro length member
  unfold Options.sliceCapacities at member
  split at member
  · cases member
  · rename_i positive
    rcases List.mem_append.mp member with whole | rest
    · obtain ⟨-, rfl⟩ := List.mem_replicate.mp whole
      exact Nat.pos_of_ne_zero positive
    · split at rest
      · cases rest
      · rename_i remainder
        obtain rfl := List.mem_singleton.mp rest
        exact Nat.pos_of_ne_zero remainder

theorem Clean.initially (o : Options) (value : α) : (new o value).Clean := by
  intro slice member
  obtain ⟨length, listed, rfl⟩ := List.mem_map.mp member
  apply Slice.fresh_unowned
  have positive := o.sliceCapacities_pos length listed
  intro none
  simp only [List.replicate_eq_nil_iff] at none
  omega

theorem Clean.lend {p p' : ReservedBufferSlicePool α} {overtaken : Overtaken}
    {answer : Except BorrowError (OwnedSlicePtr Owner α)} (clean : p.Clean)
    (answers : p.borrow overtaken = (answer, p')) :
    p'.Clean ∧ ∀ ptr, answer = .ok ptr → ptr.slice.Fresh := by
  cases answer with
  | error error =>
      obtain rfl := borrow_refused answers
      exact ⟨clean, by simp⟩
  | ok lent =>
      obtain ⟨index, slice, stored, -, rfl, rfl⟩ := borrow_ok answers
      refine ⟨clean, ?_⟩
      rintro _ ⟨⟩
      exact clean slice (List.mem_of_getElem? stored)

theorem Clean.returned {p : ReservedBufferSlicePool α} {slice : Slice α} (clean : p.Clean)
    (index : Nat) (formed : slice.WellFormed) : (p.giveBack index slice).Clean := by
  unfold giveBack
  split
  · exact clean
  · intro other member
    rcases List.mem_or_eq_of_mem_set member with before | rfl
    · exact clean other before
    · exact formed.clear_fresh

end ReservedBufferSlicePool

theorem DynamicBufferSlicePool.borrow_fresh {p p' : DynamicBufferSlicePool}
    {overtaken : Overtaken} {preferredSliceCapacity : Nat} {ptr : OwnedSlicePtr Owner α}
    (lends : p.borrow overtaken preferredSliceCapacity = (.ok ptr, p')) : ptr.slice.Fresh := by
  obtain ⟨positive, rfl, -⟩ := borrow_ok lends
  exact Slice.fresh_owned positive

namespace CombinedBufferSlicePool

/-- What a pool with clean slices lends is fresh, and its slices stay clean. -/
theorem borrow_fresh {p p' : CombinedBufferSlicePool α} {overtaken : Overtaken}
    {preferredSliceCapacity : Nat} {answer : Except BorrowError (OwnedSlicePtr Owner α)}
    (clean : p.reserved.Clean)
    (answers : borrow overtaken preferredSliceCapacity p = (answer, p')) :
    p'.reserved.Clean ∧ ∀ ptr, answer = .ok ptr → ptr.slice.Fresh := by
  cases answer with
  | error error =>
      rw [(borrow_refused answers).1]
      exact ⟨clean, by simp⟩
  | ok lent =>
      rcases borrow_ok answers with ⟨lends, -⟩ | ⟨-, same, lends⟩
      · exact clean.lend lends
      · rw [same]
        refine ⟨clean, ?_⟩
        rintro _ ⟨⟩
        exact DynamicBufferSlicePool.borrow_fresh lends

theorem giveBack_clean {p : CombinedBufferSlicePool α} {ptr : OwnedSlicePtr Owner α}
    (clean : p.reserved.Clean) (formed : ptr.slice.WellFormed) :
    (p.giveBack ptr).reserved.Clean := by
  unfold giveBack
  split
  · exact clean.returned _ formed
  · exact clean

end CombinedBufferSlicePool

theorem Slice.capacity_push (s : Slice α) (item : α) : (s.push item).capacity = s.capacity := by
  cases s with
  | owned s =>
      simp only [Slice.push, Slice.capacity, OwnedBufferSlice.push]
      split
      · rfl
      · split <;> rfl
  | unowned s =>
      simp only [Slice.push, Slice.capacity, UnownedBufferSlice.push]
      split
      · rfl
      · exact List.length_set

namespace CircularSliceBuffer

/-- The slices of a buffer, as their owners know them. -/
def tokens (b : CircularSliceBuffer Owner α) : Multiset Token := b.slices.map OwnedSlicePtr.token

variable {b : CircularSliceBuffer Owner α}

theorem map_token_insert (item : α) :
    (b.insert item).slices.map OwnedSlicePtr.token = b.slices.map OwnedSlicePtr.token := by
  unfold CircularSliceBuffer.insert
  split
  · rename_i ptr current
    obtain ⟨inside, rfl⟩ := List.getElem?_eq_some_iff.mp current
    have same : (b.slices.map OwnedSlicePtr.token).set b.insertionIterator
        (b.slices.get ⟨b.insertionIterator, inside⟩).token = b.slices.map OwnedSlicePtr.token := by
      rw [← List.map_set]
      simp
    simp only [List.map_set, OwnedSlicePtr.token, Slice.capacity_push]
    exact same
  · rfl

theorem tokens_insert (item : α) : (b.insert item).tokens = b.tokens := by
  rw [tokens, tokens, map_token_insert]

/-- Getting ready for a push takes what the pool gives and loses nothing. -/
theorem Prepared.accounts {p : CombinedBufferSlicePool α} {others : Multiset Token}
    {overtaken : Overtaken} {result : CircularSliceBuffer Owner α × CombinedBufferSlicePool α}
    (accounts : p.Accounts (b.tokens + others))
    (prepared : b.Prepared (CombinedBufferSlicePool.borrow overtaken) p result) :
    result.2.Accounts (result.1.tokens + others) := by
  cases prepared with
  | inside =>
      rw [advance_eq]
      exact accounts
  | wrapped => exact accounts
  | refused error pool' _ _ refuses => exact accounts.refuse refuses
  | lent ptr pool' _ _ lends =>
      have more : (b.acquire ptr).tokens = ptr.token ::ₘ b.tokens := by
        simp only [tokens, acquire, List.map_append, List.map_cons, List.map_nil]
        exact Multiset.coe_eq_coe.mpr List.perm_append_comm
      rw [more, Multiset.cons_add]
      exact accounts.lend lends

theorem push_accounts {p : CombinedBufferSlicePool α} {others : Multiset Token}
    (accounts : p.Accounts (b.tokens + others)) (overtaken : Overtaken) (item : α) :
    (b.push (CombinedBufferSlicePool.borrow overtaken) p item).2.Accounts
      ((b.push (CombinedBufferSlicePool.borrow overtaken) p item).1.tokens + others) := by
  unfold push
  split
  · exact accounts
  · simp only [tokens_insert]
    exact (prepareToPush_prepared (CombinedBufferSlicePool.borrow overtaken) p).accounts accounts

end CircularSliceBuffer

end Spoor.Buffer
