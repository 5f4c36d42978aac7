import Mathlib.Data.Finset.Basic
import Mathlib.Logic.Function.Basic
import Spoor.Lib.MachineInteger
import Spoor.Lib.Transition

/-! # The disk flush queue

`DiskFlushQueue` is shared by any number of client threads and one worker
thread.  The data guarded by `lock_` is only touched in critical sections, so
each critical section is one step; `running_`, `draining_` and the emptiness
test of the loop are atomic accesses outside the lock, and each of these is a
step of its own.  A thread's position between two steps is its program counter.

Labels carry what the queue does not decide: which thread moves, what the
steady clock reads, and whether `TraceWriter::Write` succeeds.  The buffer type
and the type of completion callbacks stay parameters, the queue never looks
inside either of them.
-/

namespace Spoor.FlushQueue.DiskFlushQueue

open Lib.MachineInteger

/-- `DiskFlushQueue::Options` without the clocks and the writer, whose answers
    are in the labels.  `threadIdHash` is the process's hash of thread ids. -/
structure Options where
  bufferRetentionDuration : Int
  sessionId : BitVec 64
  processId : BitVec 64
  maxBufferFlushAttempts : Int
  flushAllEvents : Bool
  threadIdHash : Nat → BitVec 64

structure FlushInfo (β : Type) where
  buffer : β
  flushTimestamp : Int
  threadId : BitVec 64
  id : Nat
  remainingFlushAttempts : Int
  deriving DecidableEq

/-- A completion stored by `Flush`.  `covers` is not in the source: it remembers
    which records the storing critical section had to wait for, namely those
    enqueued before it whose flush timestamp is at most its clock reading. -/
structure Completion (κ : Type) where
  callback : κ
  covers : List Nat
  deriving DecidableEq

/-- What the queue does to records and completions, in order.  No step reads it. -/
inductive Event (β κ : Type) where
  | offered (thread : Nat)
  | rejected (thread : Nat)
  | enqueued (thread : Nat) (record : FlushInfo β)
  | flushed (now : Int) (marked : List Nat)
  | cleared (ids : List Nat)
  | tested (id : Nat) (now : Int)
  | discarded (id : Nat)
  | wrote (id : Nat) (ok : Bool)
  | finished (id : Nat)
  | handed (completion : κ)
  | started (completion : κ)
  | drained (thread : Nat)
  deriving DecidableEq

/-- The members guarded by `lock_`, and `queue_size_`, which is atomic but only
    written while the lock is held. -/
structure Guarded (β κ : Type) where
  queue : List (FlushInfo β)
  flushCompletion : Option (Completion κ)
  manualFlushRecordIds : Finset Nat
  flushTimestamp : Int
  nextFlushInfoId : Nat
  queueSize : Nat

/-- Where the worker started by `Run` stands.  `absent` means that
    `flush_thread_` is not joinable, `finished` that it waits to be joined. -/
inductive Worker (β κ : Type) where
  | absent
  | readDraining
  | readEmpty
  | pop
  | retain (flushInfo : FlushInfo β)
  | discard (flushInfo : FlushInfo β)
  | decideFlush (flushInfo : FlushInfo β)
  | requeue (flushInfo : FlushInfo β)
  | write (flushInfo : FlushInfo β)
  | settle (flushInfo : FlushInfo β) (ok : Bool)
  | runCompletion (leaving : Option (FlushInfo β))
  | startCompletion (completion : Completion κ) (leaving : Option (FlushInfo β))
  | destroy (leaving : FlushInfo β)
  | storeDraining
  | storeRunning
  | finished
  deriving DecidableEq

/-- Where a client thread stands inside a method of the queue. -/
inductive Client (β κ : Type) where
  | idle
  | runExchange
  | runDraining
  | runSpawn
  | enqueueNow (buffer : β)
  | enqueueRunning (buffer : β) (flushTimestamp : Int)
  | enqueueDraining (buffer : β) (flushTimestamp : Int)
  | enqueueLock (buffer : β) (flushTimestamp : Int)
  | drainRunning
  | drainExchange
  | drainJoin
  | flushRunning (completion : Option κ)
  | flushNow (completion : Option κ)
  | flushLock (completion : Option κ) (now : Int)
  | clearLock
  | clearDestroy (records : List (FlushInfo β))
  deriving DecidableEq

structure State (β κ : Type) where
  guarded : Guarded β κ
  running : Bool
  draining : Bool
  worker : Worker β κ
  clients : Nat → Client β κ
  log : List (Event β κ)

/-- The methods a client thread can enter. -/
inductive Call (β κ : Type) where
  | run
  | enqueue (buffer : β)
  | drainAndStop
  | flush (completion : Option κ)
  | clear

/-- One step of one thread.  `now` is what the steady clock reads if the step
    reads it, `ok` what `Write` answers if the step calls it. -/
inductive Action (β κ : Type) where
  | call (thread : Nat) (method : Call β κ)
  | client (thread : Nat) (now : Int)
  | worker (now : Int) (ok : Bool)

variable {β κ : Type}

/-- `DiskFlushQueue::DiskFlushQueue`. -/
def initial : State β κ where
  guarded :=
    { queue := []
      flushCompletion := none
      manualFlushRecordIds := ∅
      flushTimestamp := 0
      nextFlushInfoId := 0
      queueSize := 0 }
  running := false
  draining := false
  worker := .absent
  clients := fun _ => .idle
  log := []

/-- No container holds more elements than its difference type can count, so
    `emplace_back` throws beyond this size. -/
def dequeMaxSize : Nat := 2 ^ 63 - 1

/-- The record `Enqueue` builds under the lock. -/
def Guarded.record (g : Guarded β κ) (o : Options) (thread : Nat) (buffer : β)
    (flushTimestamp : Int) : FlushInfo β where
  buffer := buffer
  flushTimestamp := flushTimestamp
  threadId := o.threadIdHash thread
  id := g.nextFlushInfoId
  remainingFlushAttempts := o.maxBufferFlushAttempts

/-- The critical section of `Enqueue`. -/
def Guarded.enqueue (g : Guarded β κ) (record : FlushInfo β) : Guarded β κ :=
  { g with
    queue := g.queue ++ [record]
    nextFlushInfoId := g.nextFlushInfoId + 1
    queueSize := addSize g.queueSize 1 }

/-- Re-insertion of a popped record, after a lap or a failed write. -/
def Guarded.emplaceBack (g : Guarded β κ) (record : FlushInfo β) : Guarded β κ :=
  { g with queue := g.queue ++ [record] }

/-- The critical section that lets a popped record leave the system. -/
def Guarded.leave (g : Guarded β κ) (id : Nat) : Guarded β κ :=
  { g with
    manualFlushRecordIds := g.manualFlushRecordIds.erase id
    queueSize := subSize g.queueSize 1 }

/-- The records `Flush` finds in the deque and marks. -/
def Guarded.marked (g : Guarded β κ) (now : Int) : List Nat :=
  (g.queue.filter fun record => record.flushTimestamp ≤ now).map FlushInfo.id

/-- The critical section of `Flush`. -/
def Guarded.flush (g : Guarded β κ) (completion : Option (Completion κ)) (now : Int) :
    Guarded β κ :=
  { g with
    flushTimestamp := now
    flushCompletion := completion.or g.flushCompletion
    manualFlushRecordIds := g.manualFlushRecordIds ∪ (g.marked now).toFinset }

/-- The critical section of `Clear`. -/
def Guarded.clear (g : Guarded β κ) : Guarded β κ :=
  { g with queue := [], manualFlushRecordIds := ∅, queueSize := 0 }

/-- `DiskFlushQueue::Empty`. -/
def Guarded.empty (g : Guarded β κ) : Bool := g.queueSize == 0

/-- The retention test of the worker loop. -/
def retained (o : Options) (record : FlushInfo β) (now : Int) : Bool :=
  now < addInt64 record.flushTimestamp o.bufferRetentionDuration

/-- The ids of the records enqueued so far that a `Flush` at `now` is about. -/
def coveredBy (log : List (Event β κ)) (now : Int) : List Nat :=
  log.filterMap fun
    | .enqueued _ record => if record.flushTimestamp ≤ now then some record.id else none
    | _ => none

/-- The popped record the worker is holding.  A record that was counted out of
    the queue but whose object is not destroyed yet is not held any more. -/
def Worker.held : Worker β κ → Option (FlushInfo β)
  | .retain r | .discard r | .decideFlush r | .requeue r | .write r | .settle r _ => some r
  | _ => none

/-- A completion the worker took out of the queue and is about to start. -/
def Worker.starting : Worker β κ → Option (Completion κ)
  | .startCompletion completion _ => some completion
  | _ => none

/-- Where an iteration of the loop ends: `flush_info` goes out of scope first. -/
def Worker.endIteration : Option (FlushInfo β) → Worker β κ
  | some leaving => .destroy leaving
  | none => .readDraining

def State.goto (s : State β κ) (thread : Nat) (position : Client β κ) : State β κ :=
  { s with clients := Function.update s.clients thread position }

def State.emit (s : State β κ) (events : List (Event β κ)) : State β κ :=
  { s with log := s.log ++ events }

/-- A client enters a method. -/
def callStep (s : State β κ) (thread : Nat) (method : Call β κ) : Option (State β κ) :=
  match s.clients thread, method with
  | .idle, .run => some (s.goto thread .runExchange)
  | .idle, .enqueue buffer => some ((s.goto thread (.enqueueNow buffer)).emit [.offered thread])
  | .idle, .drainAndStop => some (s.goto thread .drainRunning)
  | .idle, .flush completion => some (s.goto thread (.flushRunning completion))
  | .idle, .clear => some (s.goto thread .clearLock)
  | _, _ => none

/-- A client takes its next step inside a method.  Assigning a new thread to a
    joinable `flush_thread_` terminates the program, so `runSpawn` then has no
    successor; neither has an `emplace_back` that would throw. -/
def clientStep (o : Options) (s : State β κ) (thread : Nat) (now : Int) : Option (State β κ) :=
  match s.clients thread with
  | .idle => none
  | .runExchange =>
      if s.running then some (s.goto thread .idle)
      else some ({ s with running := true }.goto thread .runDraining)
  | .runDraining => some ({ s with draining := false }.goto thread .runSpawn)
  | .runSpawn =>
      match s.worker with
      | .absent => some ({ s with worker := .readDraining }.goto thread .idle)
      | _ => none
  | .enqueueNow buffer => some (s.goto thread (.enqueueRunning buffer now))
  | .enqueueRunning buffer flushTimestamp =>
      if s.running then some (s.goto thread (.enqueueDraining buffer flushTimestamp))
      else some ((s.goto thread .idle).emit [.rejected thread])
  | .enqueueDraining buffer flushTimestamp =>
      if s.draining then some ((s.goto thread .idle).emit [.rejected thread])
      else some (s.goto thread (.enqueueLock buffer flushTimestamp))
  | .enqueueLock buffer flushTimestamp =>
      let record := s.guarded.record o thread buffer flushTimestamp
      if s.guarded.queue.length < dequeMaxSize then
        some (({ s with guarded := s.guarded.enqueue record }.goto thread .idle).emit
          [.enqueued thread record])
      else none
  | .drainRunning =>
      if s.running then some (s.goto thread .drainExchange)
      else some ((s.goto thread .idle).emit [.drained thread])
  | .drainExchange =>
      if s.draining then some ((s.goto thread .idle).emit [.drained thread])
      else some ({ s with draining := true }.goto thread .drainJoin)
  | .drainJoin =>
      match s.worker with
      | .absent => some ((s.goto thread .idle).emit [.drained thread])
      | .finished =>
          some (({ s with worker := .absent }.goto thread .idle).emit [.drained thread])
      | _ => none
  | .flushRunning completion =>
      if s.running then some (s.goto thread (.flushNow completion))
      else
        some ((s.goto thread .idle).emit
          (match completion with
            | some callback => [.handed callback, .started callback]
            | none => []))
  | .flushNow completion => some (s.goto thread (.flushLock completion now))
  | .flushLock completion now =>
      let stored := completion.map fun callback => ⟨callback, coveredBy s.log now⟩
      some (({ s with guarded := s.guarded.flush stored now }.goto thread .idle).emit
        (.flushed now (s.guarded.marked now) :: (completion.map Event.handed).toList))
  | .clearLock =>
      some (({ s with guarded := s.guarded.clear }.goto thread
        (.clearDestroy s.guarded.queue)).emit [.cleared (s.guarded.queue.map FlushInfo.id)])
  | .clearDestroy _ => some (s.goto thread .idle)

/-- The worker takes its next step in the loop started by `Run`.  `settle` is
    the lock taken after `Write`: a failed record with attempts left goes back
    to the deque, any other one leaves the system. -/
def workerStep (o : Options) (s : State β κ) (now : Int) (ok : Bool) : Option (State β κ) :=
  match s.worker with
  | .absent => none
  | .readDraining =>
      some { s with worker := if s.draining then .readEmpty else .pop }
  | .readEmpty =>
      some { s with worker := if s.guarded.empty then .storeDraining else .pop }
  | .pop =>
      match s.guarded.queue with
      | [] => some { s with worker := .runCompletion none }
      | record :: rest =>
          some { s with guarded := { s.guarded with queue := rest }, worker := .retain record }
  | .retain record =>
      let worker :=
        if !o.flushAllEvents && !retained o record now then .discard record
        else .decideFlush record
      some ({ s with worker := worker }.emit [.tested record.id now])
  | .discard record =>
      some ({ s with guarded := s.guarded.leave record.id, worker := .destroy record }.emit
        [.discarded record.id])
  | .decideFlush record =>
      let flush := o.flushAllEvents || record.flushTimestamp ≤ s.guarded.flushTimestamp
      some { s with worker := if flush then .write record else .requeue record }
  | .requeue record =>
      if s.guarded.queue.length < dequeMaxSize then
        some { s with guarded := s.guarded.emplaceBack record, worker := .readDraining }
      else none
  | .write record =>
      let attempted :=
        { record with remainingFlushAttempts := decInt32 record.remainingFlushAttempts }
      some ({ s with worker := .settle attempted ok }.emit [.wrote record.id ok])
  | .settle record ok =>
      if !ok && 0 < record.remainingFlushAttempts then
        if s.guarded.queue.length < dequeMaxSize then
          some { s with guarded := s.guarded.emplaceBack record, worker := .runCompletion none }
        else none
      else
        some ({ s with
          guarded := s.guarded.leave record.id
          worker := .runCompletion (some record) }.emit [.finished record.id])
  | .runCompletion leaving =>
      if s.guarded.manualFlushRecordIds = ∅ then
        some { s with
          guarded := { s.guarded with flushCompletion := none }
          worker := match s.guarded.flushCompletion with
            | some completion => .startCompletion completion leaving
            | none => .endIteration leaving }
      else some { s with worker := .endIteration leaving }
  | .startCompletion completion leaving =>
      some ({ s with worker := .endIteration leaving }.emit [.started completion.callback])
  | .destroy _ => some { s with worker := .readDraining }
  | .storeDraining => some { s with draining := false, worker := .storeRunning }
  | .storeRunning => some { s with running := false, worker := .finished }
  | .finished => none

def step (o : Options) (s : State β κ) : Action β κ → Option (State β κ)
  | .call thread method => callStep s thread method
  | .client thread now => clientStep o s thread now
  | .worker now ok => workerStep o s now ok

end Spoor.FlushQueue.DiskFlushQueue
