import Spoor.Lib.RingWindow

/-! # Buffer slices

A slice is a circular buffer over one piece of memory.  `OwnedBufferSlice`
grows a vector up to its capacity; `UnownedBufferSlice` writes into a span that
is already full of other values and counts how many of them are its own.  Both
move an insertion iterator through the memory.

A slice that is well formed behaves as a `Segment`: its view splits the items
it holds at the insertion iterator.
-/

namespace Spoor.Buffer

open Lib.RingWindow

variable {α : Type}

/-- `insertionIterator` is the iterator's distance from the beginning. -/
structure OwnedBufferSlice (α : Type) where
  capacity : Nat
  buffer : List α
  insertionIterator : Nat

namespace OwnedBufferSlice

def new (capacity : Nat) : OwnedBufferSlice α := ⟨capacity, [], 0⟩

def size (s : OwnedBufferSlice α) : Nat := s.buffer.length

def empty (s : OwnedBufferSlice α) : Bool := s.buffer.isEmpty

def full (s : OwnedBufferSlice α) : Bool := s.capacity ≤ s.size

def willWrapOnNextPush (s : OwnedBufferSlice α) : Bool :=
  s.full && s.insertionIterator == s.buffer.length

def push (s : OwnedBufferSlice α) (item : α) : OwnedBufferSlice α :=
  if s.capacity = 0 then s
  else
    let insertionIterator := if s.willWrapOnNextPush then 0 else s.insertionIterator
    if s.full then
      { s with
        buffer := s.buffer.set insertionIterator item
        insertionIterator := insertionIterator + 1 }
    else { s with buffer := s.buffer ++ [item], insertionIterator := s.buffer.length + 1 }

def clear (s : OwnedBufferSlice α) : OwnedBufferSlice α :=
  { s with buffer := [], insertionIterator := 0 }

def contiguousMemoryChunks (s : OwnedBufferSlice α) : List (List α) :=
  if s.empty then []
  else if !s.full || s.insertionIterator == s.buffer.length then [s.buffer]
  else [s.buffer.drop s.insertionIterator, s.buffer.take s.insertionIterator]

end OwnedBufferSlice

/-- `buffer` is the whole span; the items of the slice are its first `size`. -/
structure UnownedBufferSlice (α : Type) where
  buffer : List α
  insertionIterator : Nat
  size : Nat

namespace UnownedBufferSlice

def new (buffer : List α) : UnownedBufferSlice α := ⟨buffer, 0, 0⟩

def capacity (s : UnownedBufferSlice α) : Nat := s.buffer.length

def empty (s : UnownedBufferSlice α) : Bool := s.size == 0

def full (s : UnownedBufferSlice α) : Bool := s.capacity ≤ s.size

def willWrapOnNextPush (s : UnownedBufferSlice α) : Bool :=
  s.insertionIterator == s.buffer.length

def push (s : UnownedBufferSlice α) (item : α) : UnownedBufferSlice α :=
  if s.capacity = 0 then s
  else
    let insertionIterator := if s.willWrapOnNextPush then 0 else s.insertionIterator
    { buffer := s.buffer.set insertionIterator item
      insertionIterator := insertionIterator + 1
      size := min (s.size + 1) s.capacity }

def clear (s : UnownedBufferSlice α) : UnownedBufferSlice α :=
  { s with insertionIterator := 0, size := 0 }

def contiguousMemoryChunks (s : UnownedBufferSlice α) : List (List α) :=
  if s.empty then []
  else if !s.full || s.insertionIterator == s.buffer.length then [s.buffer.take s.size]
  else [s.buffer.drop s.insertionIterator, s.buffer.take s.insertionIterator]

end UnownedBufferSlice

/-- The chunks of a segment: what the previous lap left, if anything, and then
    what the current lap wrote. -/
def chunksOf (s : Segment α) : List (List α) :=
  if s.size = 0 then [] else if s.older = [] then [s.newer] else [s.older, s.newer]

theorem flatten_chunksOf (s : Segment α) : (chunksOf s).flatten = s.contents := by
  unfold chunksOf
  split
  · rename_i none
    exact (List.eq_nil_of_length_eq_zero none).symm
  · split
    · rename_i unused
      simp [Segment.contents, unused]
    · simp [Segment.contents]

namespace OwnedBufferSlice

variable {s : OwnedBufferSlice α}

def WellFormed (s : OwnedBufferSlice α) : Prop :=
  Cuttable s.capacity s.buffer s.insertionIterator

def view (s : OwnedBufferSlice α) : Segment α :=
  .cut s.capacity s.buffer s.insertionIterator

theorem willWrap_iff (formed : s.WellFormed) :
    s.willWrapOnNextPush = true ↔ s.view.Lapped := by
  have bounded := formed.bounded
  rw [view, formed.lapped_iff, willWrapOnNextPush, full, size, Bool.and_eq_true,
    decide_eq_true_eq, beq_iff_eq]
  omega

theorem chunks_eq (formed : s.WellFormed) : s.contiguousMemoryChunks = chunksOf s.view := by
  rw [contiguousMemoryChunks, chunksOf, view, formed.size]
  by_cases none : s.buffer = []
  · simp [empty, none]
  · by_cases ended : s.insertionIterator = s.buffer.length
    · simp [empty, none, ended, Segment.cut]
    · have left := formed.older_ne_nil.mpr ended
      have filled : s.full = true := by
        rw [full, size, decide_eq_true_eq]
        exact Nat.le_of_eq (formed.full ended).symm
      simp [empty, none, ended, left, filled]
      simp [Segment.cut]

theorem push_view (formed : s.WellFormed) (item : α) :
    (s.push item).WellFormed ∧ (s.push item).view = s.view.push item := by
  have positive := formed.positive
  have bounded := formed.bounded
  rw [push, if_neg (by omega)]
  by_cases room : s.buffer.length < s.capacity
  · have short : s.full = false := by
      rw [full, size, decide_eq_false_iff_not]
      omega
    have appended := formed.append item room
    simpa [short, view, WellFormed] using ⟨appended.1, appended.2.symm⟩
  · have filled : s.full = true := by
      rw [full, size, decide_eq_true_eq]
      omega
    by_cases ended : s.insertionIterator = s.buffer.length
    · have wraps : s.willWrapOnNextPush = true := by simp [willWrapOnNextPush, filled, ended]
      have wrapped := formed.wrap item (by omega) ended
      simp only [wraps, filled, if_true]
      exact ⟨wrapped.1, wrapped.2.symm⟩
    · have stays : s.willWrapOnNextPush = false := by simp [willWrapOnNextPush, ended]
      have inside := formed.inside
      have overwritten := formed.overwrite item (by omega)
      simp only [stays, filled, if_true, Bool.false_eq_true, if_false]
      exact ⟨overwritten.1, overwritten.2.symm⟩

end OwnedBufferSlice

namespace UnownedBufferSlice

variable {s : UnownedBufferSlice α}

/-- The items of the slice among the values of its span. -/
def items (s : UnownedBufferSlice α) : List α := s.buffer.take s.size

structure WellFormed (s : UnownedBufferSlice α) : Prop where
  counted : s.size ≤ s.buffer.length
  cuttable : Cuttable s.capacity s.items s.insertionIterator

def view (s : UnownedBufferSlice α) : Segment α := .cut s.capacity s.items s.insertionIterator

theorem full_iff : s.full = true ↔ s.buffer.length ≤ s.size := decide_eq_true_iff

theorem length_items (formed : s.WellFormed) : s.items.length = s.size := by
  rw [items, List.length_take]
  exact Nat.min_eq_left formed.counted

theorem willWrap_iff (formed : s.WellFormed) :
    s.willWrapOnNextPush = true ↔ s.view.Lapped := by
  have length := length_items formed
  have counted := formed.counted
  have appending := formed.cuttable.appending
  rw [view, formed.cuttable.lapped_iff, willWrapOnNextPush, beq_iff_eq]
  simp only [capacity] at appending ⊢
  omega

theorem chunks_eq (formed : s.WellFormed) : s.contiguousMemoryChunks = chunksOf s.view := by
  have length := length_items formed
  have counted := formed.counted
  rw [contiguousMemoryChunks, chunksOf, view, formed.cuttable.size, length]
  by_cases none : s.size = 0
  · simp [empty, none]
  · by_cases ended : s.insertionIterator = s.items.length
    · have single : (!s.full || s.insertionIterator == s.buffer.length) = true := by
        rw [Bool.or_eq_true, Bool.not_eq_true', beq_iff_eq, ← Bool.not_eq_true, full_iff]
        omega
      simp only [empty, none, beq_iff_eq, if_false, single, if_true, cut_of_ended ended]
      rfl
    · have left := formed.cuttable.older_ne_nil.mpr ended
      have filled := formed.cuttable.full ended
      have whole : s.items = s.buffer := by
        rw [items, ← length, filled]
        exact List.take_length
      have double : (!s.full || s.insertionIterator == s.buffer.length) = false := by
        rw [Bool.or_eq_false_iff, Bool.not_eq_false', beq_eq_false_iff_ne, full_iff]
        simp only [capacity] at filled
        omega
      simp only [empty, none, beq_iff_eq, if_false, double, left, Bool.false_eq_true]
      rw [whole]
      rfl

private theorem simulate {pushed : UnownedBufferSlice α} {item : α} {held : List α} {index : Nat}
    (sized : pushed.capacity = s.capacity) (counted : pushed.size ≤ pushed.buffer.length)
    (holds : pushed.items = held) (position : pushed.insertionIterator = index)
    (cut : Cuttable s.capacity held index ∧
      (Segment.cut s.capacity s.items s.insertionIterator).push item =
        .cut s.capacity held index) :
    pushed.WellFormed ∧ pushed.view = s.view.push item := by
  subst holds position
  rw [← sized] at cut
  refine ⟨⟨counted, cut.1⟩, ?_⟩
  rw [view, view, ← sized]
  exact cut.2.symm

theorem push_view (formed : s.WellFormed) (item : α) :
    (s.push item).WellFormed ∧ (s.push item).view = s.view.push item := by
  have positive := formed.cuttable.positive
  have length := length_items formed
  have counted := formed.counted
  rw [push, if_neg (by omega)]
  by_cases room : s.items.length < s.capacity
  · have position := formed.cuttable.appending room
    have stays : s.willWrapOnNextPush = false := by
      simp only [willWrapOnNextPush, beq_eq_false_iff_ne]
      simp only [capacity] at room
      omega
    have more : min (s.size + 1) s.capacity = s.size + 1 := by omega
    simp only [stays, Bool.false_eq_true, if_false, more]
    refine simulate (by simp [capacity]) ?_ ?_ ?_ (formed.cuttable.append item room)
    · simp only [List.length_set]
      simp only [capacity] at room
      omega
    · rw [items, position, length, take_set_succ item (by simp only [capacity] at room; omega)]
      rfl
    · simp [position]
  · have filled : s.items.length = s.capacity :=
      Nat.le_antisymm formed.cuttable.bounded (Nat.le_of_not_lt room)
    have whole : s.items = s.buffer := by
      rw [items, ← length, filled]
      exact List.take_length
    have stable : min (s.size + 1) s.capacity = s.buffer.length := by
      simp only [capacity] at filled ⊢
      omega
    by_cases ended : s.insertionIterator = s.items.length
    · have wraps : s.willWrapOnNextPush = true := by simp [willWrapOnNextPush, ended, whole]
      simp only [wraps, if_true, stable]
      refine simulate (by simp [capacity]) (by simp) ?_ rfl (formed.cuttable.wrap item filled ended)
      rw [whole, items]
      exact List.take_of_length_le (by simp)
    · have stays : s.willWrapOnNextPush = false := by
        simpa [willWrapOnNextPush, whole] using ended
      have inside := formed.cuttable.inside
      simp only [stays, Bool.false_eq_true, if_false, stable]
      refine simulate (by simp [capacity]) (by simp) ?_ rfl
        (formed.cuttable.overwrite item (by omega))
      rw [whole, items]
      exact List.take_of_length_le (by simp)

end UnownedBufferSlice

/-- The slices a pool lends, behind the interface `CircularBuffer`. -/
inductive Slice (α : Type) where
  | owned (slice : OwnedBufferSlice α)
  | unowned (slice : UnownedBufferSlice α)

namespace Slice

def push : Slice α → α → Slice α
  | .owned s, item => .owned (s.push item)
  | .unowned s, item => .unowned (s.push item)

def clear : Slice α → Slice α
  | .owned s => .owned s.clear
  | .unowned s => .unowned s.clear

def contiguousMemoryChunks : Slice α → List (List α)
  | .owned s => s.contiguousMemoryChunks
  | .unowned s => s.contiguousMemoryChunks

def size : Slice α → Nat
  | .owned s => s.size
  | .unowned s => s.size

def empty : Slice α → Bool
  | .owned s => s.empty
  | .unowned s => s.empty

def capacity : Slice α → Nat
  | .owned s => s.capacity
  | .unowned s => s.capacity

def full : Slice α → Bool
  | .owned s => s.full
  | .unowned s => s.full

def willWrapOnNextPush : Slice α → Bool
  | .owned s => s.willWrapOnNextPush
  | .unowned s => s.willWrapOnNextPush

def WellFormed : Slice α → Prop
  | .owned s => s.WellFormed
  | .unowned s => s.WellFormed

def view : Slice α → Segment α
  | .owned s => s.view
  | .unowned s => s.view

/-- A slice as a pool lends it: empty, and with room for at least one item. -/
structure Fresh (s : Slice α) : Prop where
  formed : s.WellFormed
  empty : s.size = 0

variable {s : Slice α}

theorem capacity_view (s : Slice α) : s.view.capacity = s.capacity := by
  cases s <;> rfl

theorem WellFormed.view_formed (formed : s.WellFormed) : s.view.Formed := by
  cases s with
  | owned => exact Cuttable.formed formed
  | unowned => exact Cuttable.formed formed.cuttable

theorem WellFormed.size_view (formed : s.WellFormed) : s.view.size = s.size := by
  cases s with
  | owned => exact Cuttable.size formed
  | unowned => exact (Cuttable.size formed.cuttable).trans (UnownedBufferSlice.length_items formed)

theorem WellFormed.willWrap_iff (formed : s.WellFormed) :
    s.willWrapOnNextPush = true ↔ s.view.Lapped := by
  cases s with
  | owned => exact OwnedBufferSlice.willWrap_iff formed
  | unowned => exact UnownedBufferSlice.willWrap_iff formed

theorem WellFormed.chunks_eq (formed : s.WellFormed) :
    s.contiguousMemoryChunks = chunksOf s.view := by
  cases s with
  | owned => exact OwnedBufferSlice.chunks_eq formed
  | unowned => exact UnownedBufferSlice.chunks_eq formed

/-- A push on a slice is a push on the segment it behaves as. -/
theorem WellFormed.push (formed : s.WellFormed) (item : α) :
    (s.push item).WellFormed ∧ (s.push item).view = s.view.push item := by
  cases s with
  | owned => exact OwnedBufferSlice.push_view formed item
  | unowned => exact UnownedBufferSlice.push_view formed item

theorem fresh_owned {capacity : Nat} (positive : 0 < capacity) :
    (Slice.owned (.new capacity) : Slice α).Fresh where
  formed := ⟨positive, Nat.le_refl 0, Nat.zero_le _, fun _ => rfl⟩
  empty := rfl

theorem fresh_unowned {buffer : List α} (positive : buffer ≠ []) :
    (Slice.unowned (.new buffer)).Fresh where
  formed := ⟨Nat.zero_le _, List.length_pos_iff.mpr positive, Nat.zero_le _, Nat.zero_le _,
    fun _ => rfl⟩
  empty := rfl

/-- A slice that comes back and is cleared can be lent again. -/
theorem WellFormed.clear_fresh (formed : s.WellFormed) : s.clear.Fresh := by
  cases s with
  | owned => exact fresh_owned formed.positive
  | unowned =>
      refine ⟨⟨Nat.zero_le _, formed.cuttable.positive, Nat.zero_le _, Nat.zero_le _, ?_⟩, rfl⟩
      exact fun _ => rfl

theorem Fresh.isEmpty (fresh : s.Fresh) : s.empty = true := by
  have none := fresh.empty
  cases s with
  | owned s => exact List.isEmpty_iff_length_eq_zero.mpr none
  | unowned s => exact beq_iff_eq.mpr none

theorem Fresh.view_eq (fresh : s.Fresh) : s.view = ⟨s.capacity, [], []⟩ := by
  have size : s.view.size = 0 := fresh.formed.size_view.trans fresh.empty
  rw [Segment.size_eq] at size
  have older : s.view.older = [] := List.eq_nil_of_length_eq_zero (by omega)
  have newer : s.view.newer = [] := List.eq_nil_of_length_eq_zero (by omega)
  rw [← capacity_view]
  cases shape : s.view with
  | mk capacity before written =>
      simp only [shape] at older newer
      rw [older, newer]

theorem Fresh.unlapped (fresh : s.Fresh) : ¬ s.view.Lapped := by
  have positive := fresh.formed.view_formed.positive
  rintro ⟨-, full⟩
  rw [fresh.view_eq] at full positive
  simp only [List.length_nil] at full positive
  omega

end Slice

end Spoor.Buffer
