import Mathlib.Algebra.BigOperators.Group.Finset.Basic
import Mathlib.Algebra.Order.BigOperators.Group.Finset
import Spoor.Buffer.CircularSliceBuffer
import Spoor.Lib.MachineInteger

/-! # Buffer slice pools

The reserved pool cuts one piece of memory into slices and lends each of them to
one borrower at a time.  The dynamic pool allocates slices up to a total
capacity.  The combined pool asks the first one and then the second one.

Both pools are lock-free.  A borrower can be overtaken while it looks for a
slice, and its choice carries how: how many slices it passed by that were
returned behind its back, and how many of its exchanges failed.  A slice is
moved to the borrower and back, so the copy in a reserved pool is only looked at
while the slice is not borrowed.
-/

namespace Spoor.Buffer

open Lib.MachineInteger

variable {α : Type}

/-- The pool a slice was borrowed from, with its place in the reserved pool. -/
inductive Owner where
  | reserved (index : Nat)
  | dynamic
  deriving DecidableEq

/-- What happened to a borrower while it looked for a slice. -/
structure Overtaken where
  passed : Nat
  failures : Nat

structure ReservedBufferSlicePool.Options where
  maxSliceCapacity : Nat
  capacity : Nat
  representable : capacity < sizeModulus

/-- `borrowed` has the indices whose flag is set. -/
structure ReservedBufferSlicePool (α : Type) where
  options : ReservedBufferSlicePool.Options
  pool : List (Slice α)
  borrowed : Finset Nat
  size : Nat

namespace ReservedBufferSlicePool

/-- The capacities of the slices the constructor makes. -/
def Options.sliceCapacities (o : Options) : List Nat :=
  if o.maxSliceCapacity = 0 then []
  else
    List.replicate (o.capacity / o.maxSliceCapacity) o.maxSliceCapacity ++
      if o.capacity % o.maxSliceCapacity = 0 then [] else [o.capacity % o.maxSliceCapacity]

def new (o : Options) (value : α) : ReservedBufferSlicePool α where
  options := o
  pool := o.sliceCapacities.map fun length => .unowned (.new (List.replicate length value))
  borrowed := ∅
  size := o.capacity

variable (p : ReservedBufferSlicePool α)

def capacity : Nat := p.options.capacity

def empty : Bool := p.size == 0

def full : Bool := p.capacity ≤ p.size

/-- `Borrow`. -/
def borrow (overtaken : Overtaken) :
    Except BorrowError (OwnedSlicePtr Owner α) × ReservedBufferSlicePool α :=
  let indices := List.range' overtaken.passed (p.pool.length - overtaken.passed)
  match indices.find? (· ∉ p.borrowed) with
  | none => (.error .noSlicesAvailable, p)
  | some index =>
      match p.pool[index]? with
      | none => (.error .noSlicesAvailable, p)
      | some slice =>
          (.ok ⟨.reserved index, slice⟩,
            { p with
              borrowed := insert index p.borrowed
              size := subSize p.size slice.capacity })

/-- `Return` of a slice. -/
def giveBack (index : Nat) (slice : Slice α) : ReservedBufferSlicePool α :=
  if p.capacity ≤ index then p
  else
    { p with
      pool := p.pool.set index slice.clear
      borrowed := p.borrowed.erase index
      size := addSize p.size slice.capacity }

end ReservedBufferSlicePool

structure DynamicBufferSlicePool.Options where
  maxSliceCapacity : Nat
  capacity : Nat
  borrowCasAttempts : Nat
  representable : capacity < sizeModulus

structure DynamicBufferSlicePool where
  options : DynamicBufferSlicePool.Options
  borrowedItemsSize : Nat

namespace DynamicBufferSlicePool

def new (o : Options) : DynamicBufferSlicePool := ⟨o, 0⟩

variable (p : DynamicBufferSlicePool)

def capacity : Nat := p.options.capacity

def size : Nat := subSize p.capacity p.borrowedItemsSize

def empty : Bool := p.size == 0

def full : Bool := p.capacity ≤ p.size

/-- The size of the slice an exchange asks for. -/
def bufferSize (preferredSliceCapacity : Nat) : Nat :=
  min (min preferredSliceCapacity p.options.maxSliceCapacity)
    (min p.capacity (subSize p.capacity p.borrowedItemsSize))

/-- `Borrow`; the attempt after the failed ones succeeds. -/
def borrow (overtaken : Overtaken) (preferredSliceCapacity : Nat) :
    Except BorrowError (OwnedSlicePtr Owner α) × DynamicBufferSlicePool :=
  if overtaken.failures < p.options.borrowCasAttempts then
    let bufferSize := p.bufferSize preferredSliceCapacity
    let exchanged := { p with borrowedItemsSize := addSize p.borrowedItemsSize bufferSize }
    if bufferSize < 1 then (.error .noSlicesAvailable, exchanged)
    else (.ok ⟨.dynamic, .owned (.new bufferSize)⟩, exchanged)
  else (.error .casAttemptsExhausted, p)

/-- `Return` of a slice. -/
def giveBack (slice : Slice α) : DynamicBufferSlicePool :=
  { p with borrowedItemsSize := subSize p.borrowedItemsSize slice.capacity }

end DynamicBufferSlicePool

structure CombinedBufferSlicePool.Options where
  reserved : ReservedBufferSlicePool.Options
  dynamic : DynamicBufferSlicePool.Options

structure CombinedBufferSlicePool (α : Type) where
  reserved : ReservedBufferSlicePool α
  dynamic : DynamicBufferSlicePool

namespace CombinedBufferSlicePool

def new (o : Options) (value : α) : CombinedBufferSlicePool α :=
  ⟨.new o.reserved value, .new o.dynamic⟩

def capacity (p : CombinedBufferSlicePool α) : Nat :=
  addSize p.reserved.capacity p.dynamic.capacity

def size (p : CombinedBufferSlicePool α) : Nat := addSize p.reserved.size p.dynamic.size

def empty (p : CombinedBufferSlicePool α) : Bool := p.reserved.empty && p.dynamic.empty

def full (p : CombinedBufferSlicePool α) : Bool := p.reserved.full && p.dynamic.full

def borrow (overtaken : Overtaken) : Borrow Owner (CombinedBufferSlicePool α) α :=
  fun preferredSliceCapacity p =>
    match p.reserved.borrow overtaken with
    | (.ok ptr, reserved) => (.ok ptr, { p with reserved })
    | (.error _, reserved) =>
        let (answer, dynamic) := p.dynamic.borrow overtaken preferredSliceCapacity
        (answer, { p with reserved, dynamic })

/-- The end of an `OwnedPtr`: the slice goes back to its owner. -/
def giveBack (p : CombinedBufferSlicePool α) (ptr : OwnedSlicePtr Owner α) :
    CombinedBufferSlicePool α :=
  match ptr.owner with
  | .reserved index => { p with reserved := p.reserved.giveBack index ptr.slice }
  | .dynamic => { p with dynamic := p.dynamic.giveBack ptr.slice }

end CombinedBufferSlicePool

end Spoor.Buffer
