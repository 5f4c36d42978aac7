import Spoor.Buffer.CircularSliceBuffer

/-! # The event logger

An event logger writes the events of one thread to a circular slice buffer and
hands the buffer over to the flush queue.  Each operation returns the buffer it
passes to `Enqueue`, if any; what the queue does with it is not the logger's
concern, which goes on with a new one.
-/

namespace Spoor.EventLogging

open Buffer

variable {α ω π : Type}

structure Options where
  preferredCapacity : Nat
  flushBufferWhenFull : Bool

/-- `attached` says that `pool_` is not null. -/
structure EventLogger (ω α : Type) where
  options : Options
  attached : Bool
  buffer : Option (CircularSliceBuffer ω α)

namespace EventLogger

def new (options : Options) : EventLogger ω α := ⟨options, false, none⟩

/-- `Flush`, with the buffer it passes to `Enqueue`. -/
def flush (l : EventLogger ω α) : EventLogger ω α × Option (CircularSliceBuffer ω α) :=
  match l.buffer with
  | some buffer =>
      if buffer.empty then (l, none)
      else ({ l with buffer := some (.new l.options.preferredCapacity) }, some buffer)
  | none => (l, none)

/-- `SetPool`, with the buffer its flush passes to `Enqueue`. -/
def setPool (l : EventLogger ω α) (attached : Bool) :
    EventLogger ω α × Option (CircularSliceBuffer ω α) :=
  if attached then
    ({ l with attached := true, buffer := some (.new l.options.preferredCapacity) }, none)
  else ({ l.flush.1 with attached := false, buffer := none }, l.flush.2)

/-- `Clear`, with the slices the buffer gives back. -/
def clear (l : EventLogger ω α) : EventLogger ω α × List (OwnedSlicePtr ω α) :=
  match l.buffer with
  | some buffer => ({ l with buffer := some buffer.clear.1 }, buffer.clear.2)
  | none => (l, [])

/-- The first half of `LogEvent`. -/
def push (borrow : Borrow ω π α) (l : EventLogger ω α) (pool : π) (event : α) :
    EventLogger ω α × π :=
  match l.attached, l.buffer with
  | true, some buffer =>
      let (buffer, pool) := buffer.push borrow pool event
      ({ l with buffer := some buffer }, pool)
  | _, _ => (l, pool)

/-- The test in the second half of `LogEvent`. -/
def flushesNow (l : EventLogger ω α) : Bool :=
  match l.attached, l.buffer with
  | true, some buffer => l.options.flushBufferWhenFull && buffer.full
  | _, _ => false

/-- `LogEvent`, with the buffer its flush passes to `Enqueue`. -/
def logEvent (borrow : Borrow ω π α) (l : EventLogger ω α) (pool : π) (event : α) :
    (EventLogger ω α × π) × Option (CircularSliceBuffer ω α) :=
  let (l, pool) := l.push borrow pool event
  if l.flushesNow then ((l.flush.1, pool), l.flush.2) else ((l, pool), none)

end EventLogger

end Spoor.EventLogging
