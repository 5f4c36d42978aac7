import Spoor.Buffer.BufferSlicePool
import Spoor.EventLogging.EventLogger
import Spoor.FlushQueue.Handover

/-! # The runtime manager

The manager owns the pool and tells the loggers of all threads when to start,
flush and stop.  The slices of the pool travel from a logger's buffer through
the flush queue to its worker, and every buffer that is destroyed gives its
slices back one at a time.

A thread has one logger, which has no lock of its own: only its thread may use
it, or the manager while that thread is outside the manager.  Here the calls that
go through all loggers are made while every thread is outside, and a thread logs
while no such call is under way.  This is a discipline of the callers: `Deinitialize`
holds `lock_` twice and not to its end, so that others could enter in between
(`Overlapping` has these runs).  Threads log in parallel, and the worker of the queue
runs at any time.  There is no successor where the source would use a logger or a pool
that is gone, or would fail an expectation.
-/

namespace Spoor.Runtime.RuntimeManager

open Buffer EventLogging FlushQueue

variable {n : Nat} {α κ : Type}

/-- A pointer to a slice of the manager's pool. -/
abbrev SlicePtr (α : Type) : Type := OwnedSlicePtr Owner α

/-- `value` is what the memory of the reserved pool is filled with. -/
structure Options (α : Type) where
  queue : DiskFlushQueue.Options
  pool : CombinedBufferSlicePool.Options
  value : α
  threadEventBufferCapacity : Nat
  flushAllEvents : Bool

/-- The logger of a thread; `notified` says that it knows the manager. -/
inductive ThreadLocal (α : Type) where
  | unconstructed
  | alive (logger : EventLogger Owner α) (notified : Bool)
  | destroyed

/-- What a thread still has to do with loggers before it returns. -/
inductive Instruction (n : Nat) (α : Type) where
  | logEvent (event : α)
  | flush (logger : Fin n)
  | renew (logger : Fin n)
  | unsubscribe
  | leave
  | destroy

/-- Where a call that goes through all loggers stands; `rest` are the loggers it
    has not come to yet. -/
inductive Position (n : Nat) (κ : Type) where
  | attach (rest : List (Fin n))
  | deinitializeRuntime
  | detach (rest : List (Fin n))
  | drop (logger : Fin n) (rest : List (Fin n))
  | flush (rest : List (Fin n)) (completion : Option κ) (deinitializing : Bool)
  | clear (rest : List (Fin n)) (deinitializing : Bool)
  | drainAndStop
  | resetPool

/-- The call has not started to initialise or to deinitialise anything. -/
def Position.resting : Position n κ → Bool
  | .deinitializeRuntime | .flush _ _ false | .clear _ false => true
  | _ => false

/-- `releasing` and `workerReleasing` are the slices of destroyed buffers that a
    thread, or the worker, has not given back yet. -/
structure System (n : Nat) (α κ : Type) where
  pool : Option (CombinedBufferSlicePool α)
  initialized : Bool
  enabled : Bool
  eventLoggers : Finset (Fin n)
  loggers : Fin n → ThreadLocal α
  call : Option (Fin n × Position n κ)
  code : Fin n → List (Instruction n α)
  releasing : Fin n → List (SlicePtr α)
  queue : DiskFlushQueue.State (CircularSliceBuffer Owner α) κ
  workerReleasing : List (SlicePtr α)

/-- `exit` is the end of a thread, which destroys its logger. -/
inductive Method (α κ : Type) where
  | initializeRuntime
  | deinitializeRuntime
  | enable
  | disable
  | flush (completion : Option κ)
  | clear
  | logEvent (event : α)
  | exit

/-- `order` is the order in which a loop that starts with the step goes through the
    loggers. -/
inductive Action (n : Nat) (α κ : Type) where
  | call (thread : Fin n) (method : Method α κ) (order : List (Fin n))
  | thread (thread : Fin n) (now : Int) (overtaken : Overtaken) (order : List (Fin n))
  | worker (now : Int) (ok : Bool)

/-- `RuntimeManager::RuntimeManager`. -/
def initial : System n α κ where
  pool := none
  initialized := false
  enabled := false
  eventLoggers := ∅
  loggers := fun _ => .unconstructed
  call := none
  code := fun _ => []
  releasing := fun _ => []
  queue := DiskFlushQueue.initial
  workerReleasing := []

def ThreadLocal.slices : ThreadLocal α → List (SlicePtr α)
  | .alive logger _ => logger.buffer.toList.flatMap CircularSliceBuffer.slices
  | _ => []

/-- A buffer that has been moved from. -/
def moved (buffer : CircularSliceBuffer Owner α) : CircularSliceBuffer Owner α :=
  { buffer with slices := [] }

/-- The end of `SetPool` with no pool, after its flush. -/
def detached (logger : EventLogger Owner α) : EventLogger Owner α :=
  { logger with attached := false, buffer := none }

namespace System

variable (o : Options α) (s : System n α κ)

/-- The thread is outside the manager. -/
def outside (thread : Fin n) : Bool :=
  (s.code thread).isEmpty && (s.releasing thread).isEmpty &&
    (s.queue.clients thread).isIdle && s.call.all fun call => call.1 ≠ thread

def goto (thread : Fin n) (code : List (Instruction n α)) : System n α κ :=
  { s with code := Function.update s.code thread code }

/-- The logger is replaced by what becomes of it, and `thread` destroys the slices
    it had. -/
def replaceLogger (thread logger : Fin n) (after : ThreadLocal α) : System n α κ :=
  { s with
    loggers := Function.update s.loggers logger after
    releasing := Function.update s.releasing thread (s.loggers logger).slices }

/-- A thread enters a method of the flush queue. -/
def enter (thread : Fin n)
    (method : DiskFlushQueue.Call (CircularSliceBuffer Owner α) κ) : Option (System n α κ) :=
  (DiskFlushQueue.callStep s.queue thread method).map fun queue => { s with queue }

/-- A loop through the loggers in some order. -/
def loops (order : List (Fin n)) : Bool := order.Nodup && order.toFinset = s.eventLoggers

/-- `LogEvent` of the manager, up to its test: the logger is constructed when its
    thread first comes here. -/
def construct (thread : Fin n) : Option (System n α κ) :=
  match s.loggers thread with
  | .unconstructed =>
      let logger : EventLogger Owner α := .new ⟨o.threadEventBufferCapacity, o.flushAllEvents⟩
      some { s with
        eventLoggers := insert thread s.eventLoggers
        loggers := Function.update s.loggers thread
          (.alive (logger.setPool s.pool.isSome).1 true) }
  | .alive _ _ => some s
  | .destroyed => none

/-- What a method does first.  `free` says that no call goes through the loggers, and
    `alone` that one may start to. -/
def begin (free alone : Bool) (thread : Fin n) (method : Method α κ) (order : List (Fin n)) :
    Option (System n α κ) :=
  match method with
  | .enable => some (if s.initialized then { s with enabled := true } else s)
  | .disable => some { s with enabled := false }
  | .logEvent event =>
      if !free then none
      else (s.construct o thread).map fun s =>
        if s.enabled then s.goto thread [.logEvent event] else s
  | .exit =>
      match free, s.loggers thread with
      | true, .alive _ _ => some (s.goto thread [.flush thread, .unsubscribe, .destroy])
      | _, _ => none
  | .initializeRuntime =>
      if !alone then none
      else if s.initialized then some s
      else if !s.loops order || !s.pool.all CombinedBufferSlicePool.full then none
      else
        { s with
          pool := some (.new o.pool o.value)
          call := some (thread, .attach order) }.enter thread .run
  | .deinitializeRuntime =>
      if !alone then none
      else some { s with enabled := false, call := some (thread, .deinitializeRuntime) }
  | .flush completion =>
      if !alone || !s.loops order then none
      else some { s with call := some (thread, .flush order completion false) }
  | .clear =>
      if !alone || !s.loops order then none
      else some { s with call := some (thread, .clear order false) }

/-- A thread enters a method of the manager.  A call that goes through all loggers starts
    while everybody is outside, and nobody logs or ends before it is over.  The locks of the
    source allow more than that. -/
def callStep (thread : Fin n) (method : Method α κ) (order : List (Fin n)) :
    Option (System n α κ) :=
  if !s.outside thread then none
  else s.begin o s.call.isNone (s.call.isNone && decide (∀ other, s.outside other = true)) thread
    method order

/-- The next thing a thread does with a logger. -/
def execute (thread : Fin n) (overtaken : Overtaken) (rest : List (Instruction n α)) :
    Instruction n α → Option (System n α κ)
  | .logEvent event =>
      match s.loggers thread with
      | .alive logger notified =>
          if !logger.attached then some (s.goto thread rest)
          else s.pool.map fun pool =>
            let (logger, pool) := logger.push (CombinedBufferSlicePool.borrow overtaken) pool event
            { s with
              pool := some pool
              loggers := Function.update s.loggers thread (.alive logger notified) }.goto thread
              (if logger.flushesNow then .flush thread :: rest else rest)
      | _ => none
  | .flush owner =>
      match s.loggers owner with
      | .alive logger notified =>
          match logger.flush.2 with
          | none => some (s.goto thread rest)
          | some buffer =>
              let logger := { logger with buffer := some (moved buffer) }
              ({ s with
                loggers := Function.update s.loggers owner (.alive logger notified) }.goto thread
                (.renew owner :: rest)).enter thread (.enqueue buffer)
      | _ => none
  | .renew owner =>
      match s.loggers owner with
      | .alive logger notified =>
          let buffer := logger.buffer.map fun _ => .new logger.options.preferredCapacity
          some ((s.replaceLogger thread owner (.alive { logger with buffer } notified)).goto thread
            rest)
      | _ => none
  | .unsubscribe =>
      match s.loggers thread with
      | .alive _ notified =>
          some (s.goto thread (if notified then .flush thread :: .leave :: rest else rest))
      | _ => none
  | .leave =>
      match s.loggers thread with
      | .alive logger notified =>
          some { (s.replaceLogger thread thread (.alive (detached logger) notified)).goto thread
            rest with eventLoggers := s.eventLoggers.erase thread }
      | _ => none
  | .destroy =>
      match s.loggers thread with
      | .alive _ _ => some ((s.replaceLogger thread thread .destroyed).goto thread rest)
      | _ => none

/-- The next thing a call does that goes through all loggers. -/
def advance (thread : Fin n) (order : List (Fin n)) : Position n κ → Option (System n α κ)
  | .attach [] => some { s with initialized := true, call := none }
  | .attach (owner :: rest) =>
      match s.loggers owner with
      | .alive logger notified =>
          some { s.replaceLogger thread owner (.alive (logger.setPool true).1 notified) with
            call := some (thread, .attach rest) }
      | _ => none
  | .deinitializeRuntime =>
      if !s.initialized then some { s with call := none }
      else if !s.loops order then none
      else some { s with initialized := false, call := some (thread, .detach order) }
  | .detach (owner :: rest) =>
      match s.loggers owner with
      | .alive logger _ =>
          some ({ s with
            loggers := Function.update s.loggers owner (.alive logger false)
            call := some (thread, .drop owner rest) }.goto thread [.flush owner])
      | _ => none
  | .detach [] =>
      if !s.loops order then none
      else
        let position :=
          if o.flushAllEvents then .flush order none true else .clear order true
        some { s with call := some (thread, position) }
  | .drop owner rest =>
      match s.loggers owner with
      | .alive logger notified =>
          some { s.replaceLogger thread owner (.alive (detached logger) notified) with
            call := some (thread, .detach rest) }
      | _ => none
  | .flush (owner :: rest) completion deinitializing =>
      some ({ s with call := some (thread, .flush rest completion deinitializing) }.goto thread
        [.flush owner])
  | .flush [] completion deinitializing =>
      { s with call := if deinitializing then some (thread, .drainAndStop) else none }.enter thread
        (.flush completion)
  | .clear (owner :: rest) deinitializing =>
      match s.loggers owner with
      | .alive logger notified =>
          let buffer := logger.buffer.map fun buffer => buffer.clear.1
          some { s.replaceLogger thread owner (.alive { logger with buffer } notified) with
            call := some (thread, .clear rest deinitializing) }
      | _ => none
  | .clear [] deinitializing =>
      { s with call := if deinitializing then some (thread, .drainAndStop) else none }.enter thread
        .clear
  | .drainAndStop => { s with call := some (thread, .resetPool) }.enter thread .drainAndStop
  | .resetPool =>
      if s.pool.all CombinedBufferSlicePool.full then some { s with pool := none, call := none }
      else none

/-- The next step of a thread inside the manager. -/
def threadStep (thread : Fin n) (now : Int) (overtaken : Overtaken) (order : List (Fin n)) :
    Option (System n α κ) :=
  match s.releasing thread with
  | ptr :: rest =>
      s.pool.map fun pool =>
        { s with
          pool := some (pool.giveBack ptr)
          releasing := Function.update s.releasing thread rest }
  | [] =>
      if (s.queue.clients thread).isIdle then
        match s.code thread, s.call with
        | instruction :: rest, _ => s.execute thread overtaken rest instruction
        | [], some (caller, position) =>
            if caller = thread then s.advance o thread order position else none
        | [], none => none
      else
        (DiskFlushQueue.clientStep o.queue s.queue thread now).map fun queue =>
          { s with
            queue
            releasing := Function.update s.releasing thread
              ((s.queue.released thread).flatMap CircularSliceBuffer.slices) }

/-- The next step of the queue's worker. -/
def workerStep (now : Int) (ok : Bool) : Option (System n α κ) :=
  match s.workerReleasing with
  | ptr :: rest =>
      s.pool.map fun pool =>
        { s with pool := some (pool.giveBack ptr), workerReleasing := rest }
  | [] =>
      (DiskFlushQueue.workerStep o.queue s.queue now ok).map fun queue =>
        { s with
          queue
          workerReleasing := s.queue.worker.destroyed.flatMap CircularSliceBuffer.slices }

end System

def step (o : Options α) (s : System n α κ) : Action n α κ → Option (System n α κ)
  | .call thread method order => s.callStep o thread method order
  | .thread thread now overtaken order => s.threadStep o thread now overtaken order
  | .worker now ok => s.workerStep o now ok

end Spoor.Runtime.RuntimeManager
