import Spoor.Buffer.Slice

/-! # The circular slice buffer

A buffer fills the slices it borrows one after the other and asks its pool for
another one as long as they do not add up to its capacity.  When they do, or
when the pool refuses, it goes round the slices it has.  A refused slice may be
granted on a later lap, so the ring can grow at any time it comes to its end.

`borrow` is the pool's `Borrow`.  Sizes count items held in memory at one time,
so their sums do not overflow.
-/

namespace Spoor.Buffer

open Lib.RingWindow

variable {α ω π : Type}

/-- `OwnedPtr` to a slice; `owner` says which pool it goes back to, and where. -/
structure OwnedSlicePtr (ω α : Type) where
  owner : ω
  slice : Slice α

inductive BorrowError where
  | noSlicesAvailable
  | casAttemptsExhausted
  deriving DecidableEq

/-- A pool's `Borrow`: its answer to a preferred capacity, and the pool after it. -/
abbrev Borrow (ω π α : Type) : Type :=
  Nat → π → Except BorrowError (OwnedSlicePtr ω α) × π

structure CircularSliceBuffer (ω α : Type) where
  capacity : Nat
  slices : List (OwnedSlicePtr ω α)
  size : Nat
  acquiredSlicesCapacity : Nat
  insertionIterator : Nat

namespace CircularSliceBuffer

def new (capacity : Nat) : CircularSliceBuffer ω α := ⟨capacity, [], 0, 0, 0⟩

variable (b : CircularSliceBuffer ω α)

def empty : Bool := b.size == 0

def full : Bool := b.capacity ≤ b.size

/-- The slice the insertion iterator points to, unless it is the end iterator. -/
def current : Option (OwnedSlicePtr ω α) := b.slices[b.insertionIterator]?

/-- The first statement of `PrepareToPush`. -/
def advance : CircularSliceBuffer ω α :=
  match b.current with
  | some ptr =>
      if ptr.slice.willWrapOnNextPush then
        { b with insertionIterator := b.insertionIterator + 1 }
      else b
  | none => b

/-- `PrepareToPush` asks the pool for a slice. -/
def borrows : Bool :=
  b.advance.insertionIterator == b.slices.length && b.acquiredSlicesCapacity < b.capacity

def begin : CircularSliceBuffer ω α := { b with insertionIterator := 0 }

def acquire (ptr : OwnedSlicePtr ω α) : CircularSliceBuffer ω α :=
  { b with
    slices := b.slices ++ [ptr]
    acquiredSlicesCapacity := b.acquiredSlicesCapacity + ptr.slice.capacity
    insertionIterator := b.slices.length }

def prepareToPush (borrow : Borrow ω π α) (pool : π) : CircularSliceBuffer ω α × π :=
  let b := b.advance
  if b.insertionIterator = b.slices.length then
    if b.capacity ≤ b.acquiredSlicesCapacity then (b.begin, pool)
    else
      match borrow (b.capacity - b.size) pool with
      | (.ok ptr, pool) => (b.acquire ptr, pool)
      | (.error _, pool) => (b.begin, pool)
  else (b, pool)

/-- The end of `Push`, from the test of the insertion iterator on. -/
def insert (item : α) : CircularSliceBuffer ω α :=
  match b.current with
  | some ptr =>
      { b with
        slices := b.slices.set b.insertionIterator { ptr with slice := ptr.slice.push item }
        size := min (b.size + 1) b.acquiredSlicesCapacity }
  | none => b

def push (borrow : Borrow ω π α) (pool : π) (item : α) : CircularSliceBuffer ω α × π :=
  if b.capacity = 0 then (b, pool)
  else
    let (b, pool) := b.prepareToPush borrow pool
    (b.insert item, pool)

/-- `Push` reaches the push of a slice. -/
def accepts (borrow : Borrow ω π α) (pool : π) : Bool :=
  b.capacity != 0 && (b.prepareToPush borrow pool).1.current.isSome

/-- `Clear`, with the slices it gives back to the pool. -/
def clear : CircularSliceBuffer ω α × List (OwnedSlicePtr ω α) :=
  (new b.capacity, b.slices)

/-- There is no answer where the source would step back from the end of no slices. -/
def willWrapOnNextPush : Option Bool :=
  if b.capacity = 0 then some true
  else if b.acquiredSlicesCapacity < b.capacity then some false
  else
    b.slices.getLast?.map fun last =>
      b.insertionIterator + 1 == b.slices.length && last.slice.willWrapOnNextPush

/-- There is no answer where the source would dereference an end iterator or
    take the last of no chunks. -/
def contiguousMemoryChunks : Option (List (List α)) :=
  if b.empty then some []
  else do
    let ptr ← b.current
    let insertionChunks := ptr.slice.contiguousMemoryChunks
    let first := if 1 < insertionChunks.length then insertionChunks.take 1 else []
    let after := (b.slices.drop (b.insertionIterator + 1)).flatMap
      fun ptr => ptr.slice.contiguousMemoryChunks
    let before := (b.slices.take b.insertionIterator).flatMap
      fun ptr => ptr.slice.contiguousMemoryChunks
    let last ← insertionChunks.getLast?
    pure (first ++ after ++ before ++ [last])

section Prepare

variable {b} (borrow : Borrow ω π α) (pool : π)

theorem advance_eq : b.advance = { b with insertionIterator := b.advance.insertionIterator } := by
  unfold advance
  cases b.current with
  | none => rfl
  | some ptr => cases wraps : ptr.slice.willWrapOnNextPush <;> simp [wraps]

/-- What `PrepareToPush` can do: stay inside the slices, go back to the first
    one, or put a borrowed one behind the last. -/
inductive Prepared (b : CircularSliceBuffer ω α) (borrow : Borrow ω π α) (pool : π) :
    CircularSliceBuffer ω α × π → Prop where
  | inside : b.advance.insertionIterator ≠ b.slices.length →
      Prepared b borrow pool (b.advance, pool)
  | wrapped : b.advance.insertionIterator = b.slices.length →
      b.capacity ≤ b.acquiredSlicesCapacity → Prepared b borrow pool (b.begin, pool)
  | refused (error : BorrowError) (pool' : π) : b.advance.insertionIterator = b.slices.length →
      b.acquiredSlicesCapacity < b.capacity →
      borrow (b.capacity - b.size) pool = (.error error, pool') →
      Prepared b borrow pool (b.begin, pool')
  | lent (ptr : OwnedSlicePtr ω α) (pool' : π) : b.advance.insertionIterator = b.slices.length →
      b.acquiredSlicesCapacity < b.capacity →
      borrow (b.capacity - b.size) pool = (.ok ptr, pool') →
      Prepared b borrow pool (b.acquire ptr, pool')

theorem prepareToPush_prepared : b.Prepared borrow pool (b.prepareToPush borrow pool) := by
  have advanced := b.advance_eq
  have slices : b.advance.slices = b.slices := by rw [advanced]
  have capacity : b.advance.capacity = b.capacity := by rw [advanced]
  have size : b.advance.size = b.size := by rw [advanced]
  have acquired : b.advance.acquiredSlicesCapacity = b.acquiredSlicesCapacity := by rw [advanced]
  have begins : b.advance.begin = b.begin := by
    rw [begin, begin, advanced]
  have acquires : ∀ ptr, b.advance.acquire ptr = b.acquire ptr := by
    intro ptr
    rw [acquire, acquire, advanced]
  unfold prepareToPush
  simp only [slices, capacity, size, acquired, begins, acquires]
  split
  · rename_i ended
    split
    · rename_i full
      exact .wrapped ended full
    · rename_i room
      split
      · rename_i ptr pool' answer
        exact .lent ptr pool' ended (Nat.lt_of_not_le room) answer
      · rename_i error pool' answer
        exact .refused error pool' ended (Nat.lt_of_not_le room) answer
  · rename_i inner
    exact .inside inner

end Prepare

end CircularSliceBuffer

end Spoor.Buffer
