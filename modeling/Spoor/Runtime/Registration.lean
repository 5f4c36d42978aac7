import Mathlib.Data.Finset.Basic
import Spoor.Lib.Transition

/-! # Registration of loggers and their pool

The manager keeps pointers to loggers, and a logger keeps a pointer to the
manager, through which its destructor unsubscribes, and a copy of the manager's
pool pointer.  Here each critical section of the manager is one step, and so is
each step of what `Deinitialize` does after it has released the lock.  Events,
buffers and the flush queue play no part in this and are left out.

Objects are numbered and numbers are not used again.  A section that would use a
logger that is gone has no successor.
-/

namespace Spoor.Runtime.Registration

open Lib.Transition

inductive Life where
  | unborn
  | alive
  | destroyed
  deriving DecidableEq

/-- `notified` says that `event_logger_notifier_` is not null. -/
structure Logger where
  life : Life
  notified : Bool
  pool : Option Nat
  deriving DecidableEq

/-- Where a thread stands in `Deinitialize`. -/
inductive Position where
  | outside
  | lock
  | flushOrClear
  | flushOrClearQueue
  | drainAndStop
  | resetPool
  deriving DecidableEq

/-- The thread has taken the pool from the loggers and not reset `pool_` yet. -/
def Position.tail : Position → Bool
  | .outside | .lock => false
  | _ => true

/-- `pools` is the number of pools made so far. -/
structure State where
  initialized : Bool
  enabled : Bool
  pool : Option Nat
  pools : Nat
  destroyedPools : Finset Nat
  eventLoggers : Finset Nat
  loggers : Nat → Logger
  threads : Nat → Position

/-- `construct` and `destroy` are the constructor and the destructor of a logger;
    the former is given the manager or no notifier. -/
inductive Method where
  | initializeRuntime
  | deinitializeRuntime
  | enable
  | disable
  | subscribe (subscriber : Nat)
  | unsubscribe (subscriber : Nat)
  | flush
  | clear
  | construct (logger : Nat) (notified : Bool)
  | destroy (logger : Nat)

inductive Action where
  | call (thread : Nat) (method : Method)
  | advance (thread : Nat)

def initial : State where
  initialized := false
  enabled := false
  pool := none
  pools := 0
  destroyedPools := ∅
  eventLoggers := ∅
  loggers := fun _ => ⟨.unborn, false, none⟩
  threads := fun _ => .outside

namespace State

variable (s : State)

/-- A loop through `event_loggers_` comes to no logger that is gone. -/
def reachable : Bool := decide (∀ logger ∈ s.eventLoggers, (s.loggers logger).life = .alive)

def goto (thread : Nat) (position : Position) : State :=
  { s with threads := Function.update s.threads thread position }

/-- `EventLogger::SetPool` of one logger. -/
def setPool (logger : Nat) (pool : Option Nat) : State :=
  { s with loggers := Function.update s.loggers logger { s.loggers logger with pool } }

/-- An assignment to `pool_`, which destroys the pool that was there. -/
def replacePool (pool : Option Nat) : State :=
  { s with
    pool
    destroyedPools := match s.pool with
      | some old => insert old s.destroyedPools
      | none => s.destroyedPools }

/-- What a loop through `event_loggers_` does to each of them. -/
def forEach (change : Logger → Logger) : State :=
  { s with loggers := fun logger =>
      if logger ∈ s.eventLoggers then change (s.loggers logger) else s.loggers logger }

/-- A new pool is made and given to the loggers. -/
def attachAll : State :=
  let made := { s.replacePool (some s.pools) with pools := s.pools + 1 }
  { made.forEach fun logger => { logger with pool := made.pool } with initialized := true }

/-- The loggers lose the manager and the pool. -/
def detachAll : State :=
  { s.forEach fun logger => { logger with notified := false, pool := none } with
    initialized := false }

/-- The critical section of `Initialize`. -/
def initializeRuntime : Option State :=
  if s.initialized then some s else if s.reachable then some s.attachAll else none

/-- The critical section of `Subscribe`. -/
def subscribe (subscriber : Nat) : Option State :=
  if (s.loggers subscriber).life = .alive then
    some ({ s with eventLoggers := insert subscriber s.eventLoggers }.setPool subscriber s.pool)
  else none

/-- The critical section of `Unsubscribe`. -/
def unsubscribe (subscriber : Nat) : Option State :=
  if (s.loggers subscriber).life = .alive then
    some { s.setPool subscriber none with eventLoggers := s.eventLoggers.erase subscriber }
  else none

/-- `EventLogger::EventLogger`. -/
def construct (logger : Nat) (notified : Bool) : Option State :=
  if (s.loggers logger).life = .unborn then
    let made := { s with loggers := Function.update s.loggers logger ⟨.alive, notified, none⟩ }
    if notified then made.subscribe logger else some made
  else none

/-- `EventLogger::~EventLogger`. -/
def destroy (logger : Nat) : Option State :=
  if (s.loggers logger).life = .alive then
    let left := if (s.loggers logger).notified then s.unsubscribe logger else some s
    left.map fun s =>
      { s with
        loggers := Function.update s.loggers logger
          { s.loggers logger with life := .destroyed } }
  else none

def callStep (thread : Nat) (method : Method) : Option State :=
  if s.threads thread ≠ .outside then none
  else
    match method with
    | .initializeRuntime => s.initializeRuntime
    | .deinitializeRuntime => some ({ s with enabled := false }.goto thread .lock)
    | .enable => some (if s.initialized then { s with enabled := true } else s)
    | .disable => some { s with enabled := false }
    | .subscribe subscriber => s.subscribe subscriber
    | .unsubscribe subscriber => s.unsubscribe subscriber
    | .flush | .clear => if s.reachable then some s else none
    | .construct logger notified => s.construct logger notified
    | .destroy logger => s.destroy logger

/-- The next step of `Deinitialize`.  `flushOrClear` is the section of `Flush` or
    `Clear`, `flushOrClearQueue` what they do with the queue. -/
def advance (thread : Nat) : Option State :=
  match s.threads thread with
  | .outside => none
  | .lock =>
      if !s.initialized then some (s.goto thread .outside)
      else if s.reachable then some (s.detachAll.goto thread .flushOrClear)
      else none
  | .flushOrClear => if s.reachable then some (s.goto thread .flushOrClearQueue) else none
  | .flushOrClearQueue => some (s.goto thread .drainAndStop)
  | .drainAndStop => some (s.goto thread .resetPool)
  | .resetPool => some ((s.replacePool none).goto thread .outside)

end State

def step (s : State) : Action → Option State
  | .call thread method => s.callStep thread method
  | .advance thread => s.advance thread

/-- The step leaves the pool and the threads that are about to reset it alone. -/
structure Keeps (s s' : State) : Prop where
  initialized : s'.initialized = s.initialized
  pool : s'.pool = s.pool
  pools : s'.pools = s.pools
  destroyedPools : s'.destroyedPools = s.destroyedPools
  tails : ∀ thread, (s'.threads thread).tail = (s.threads thread).tail

/-- What a step does to the pool, the loggers and the threads that are about to
    reset the pool. -/
inductive Effect (s : State) (a : Action) (s' : State) : Prop where
  | quiet : Keeps s s' → s'.eventLoggers = s.eventLoggers → s'.loggers = s.loggers →
      Effect s a s'
  | attach (thread : Nat) : a = .call thread .initializeRuntime → s.initialized = false →
      s.reachable = true → s' = s.attachAll → Effect s a s'
  | detach (thread : Nat) : s.initialized = true → s.reachable = true →
      s' = s.detachAll.goto thread .flushOrClear → Effect s a s'
  | reset (thread : Nat) : s.threads thread = .resetPool →
      s' = (s.replacePool none).goto thread .outside → Effect s a s'
  | subscribe (thread subscriber : Nat) : a = .call thread (.subscribe subscriber) →
      s.subscribe subscriber = some s' → Effect s a s'
  | unsubscribe (subscriber : Nat) : s.unsubscribe subscriber = some s' → Effect s a s'
  | construct (thread logger : Nat) (notified : Bool) :
      a = .call thread (.construct logger notified) → s.construct logger notified = some s' →
      Effect s a s'
  | destroy (thread logger : Nat) : a = .call thread (.destroy logger) →
      s.destroy logger = some s' → Effect s a s'

theorem tail_goto {s : State} {thread : Nat} {position : Position}
    (same : position.tail = (s.threads thread).tail) (other : Nat) :
    ((s.goto thread position).threads other).tail = (s.threads other).tail := by
  by_cases own : other = thread
  · subst own
    simp [State.goto, same]
  · simp [State.goto, own]

theorem quiet_goto {s : State} {a : Action} {thread : Nat} {position : Position}
    (same : position.tail = (s.threads thread).tail) : Effect s a (s.goto thread position) :=
  .quiet ⟨rfl, rfl, rfl, rfl, tail_goto same⟩ rfl rfl

theorem call_effect {s s' : State} {thread : Nat} {method : Method}
    (taken : s.callStep thread method = some s') : Effect s (.call thread method) s' := by
  unfold State.callStep at taken
  split at taken
  · cases taken
  · rename_i inside
    have outside : s.threads thread = .outside := not_not.mp inside
    cases method with
    | initializeRuntime =>
        simp only [State.initializeRuntime] at taken
        split at taken
        · cases taken
          exact .quiet ⟨rfl, rfl, rfl, rfl, fun _ => rfl⟩ rfl rfl
        · split at taken <;> cases taken
          rename_i fresh reachable
          exact .attach thread rfl (by simpa using fresh) reachable rfl
    | deinitializeRuntime =>
        cases taken
        have tails : ∀ other, ((s.goto thread .lock).threads other).tail =
            (s.threads other).tail := tail_goto (by simp [outside, Position.tail])
        exact .quiet ⟨rfl, rfl, rfl, rfl, tails⟩ rfl rfl
    | enable =>
        cases taken
        split <;> exact .quiet ⟨rfl, rfl, rfl, rfl, fun _ => rfl⟩ rfl rfl
    | disable =>
        cases taken
        exact .quiet ⟨rfl, rfl, rfl, rfl, fun _ => rfl⟩ rfl rfl
    | subscribe subscriber => exact .subscribe thread subscriber rfl taken
    | unsubscribe subscriber => exact .unsubscribe subscriber taken
    | flush | clear =>
        simp only at taken
        split at taken <;> cases taken
        exact .quiet ⟨rfl, rfl, rfl, rfl, fun _ => rfl⟩ rfl rfl
    | construct logger notified => exact .construct thread logger notified rfl taken
    | destroy logger => exact .destroy thread logger rfl taken

theorem advance_effect {s s' : State} {thread : Nat} (taken : s.advance thread = some s') :
    Effect s (.advance thread) s' := by
  cases position : s.threads thread with
  | outside => simp [State.advance, position] at taken
  | lock =>
      simp only [State.advance, position] at taken
      split at taken
      · cases taken
        exact quiet_goto (by rw [position]; rfl)
      · rename_i ready
        split at taken <;> cases taken
        rename_i reachable
        exact .detach thread (by simpa using ready) reachable rfl
  | flushOrClear =>
      simp only [State.advance, position] at taken
      split at taken <;> cases taken
      exact quiet_goto (by rw [position]; rfl)
  | flushOrClearQueue | drainAndStop =>
      simp only [State.advance, position, Option.some.injEq] at taken
      subst taken
      exact quiet_goto (by rw [position]; rfl)
  | resetPool =>
      simp only [State.advance, position, Option.some.injEq] at taken
      exact .reset thread position taken.symm

/-- Every step has one of the listed effects. -/
theorem step_effect {s s' : State} {a : Action} (taken : step s a = some s') : Effect s a s' := by
  cases a with
  | call => exact call_effect taken
  | advance => exact advance_effect taken

theorem subscribe_eq {s s' : State} {subscriber : Nat} :
    s.subscribe subscriber = some s' ↔ (s.loggers subscriber).life = .alive ∧
      s' = { s with eventLoggers := insert subscriber s.eventLoggers }.setPool subscriber
        s.pool := by
  simp [State.subscribe, eq_comm]

theorem unsubscribe_eq {s s' : State} {subscriber : Nat} :
    s.unsubscribe subscriber = some s' ↔ (s.loggers subscriber).life = .alive ∧
      s' = { s.setPool subscriber none with
        eventLoggers := s.eventLoggers.erase subscriber } := by
  simp [State.unsubscribe, eq_comm]

@[simp] theorem attachAll_life (s : State) (logger : Nat) :
    (s.attachAll.loggers logger).life = (s.loggers logger).life := by
  by_cases member : logger ∈ s.eventLoggers <;>
    simp [State.attachAll, State.forEach, State.replacePool, member]

@[simp] theorem detachAll_life (s : State) (logger : Nat) :
    (s.detachAll.loggers logger).life = (s.loggers logger).life := by
  by_cases member : logger ∈ s.eventLoggers <;> simp [State.detachAll, State.forEach, member]

@[simp] theorem setPool_life (s : State) (logger : Nat) (pool : Option Nat) (other : Nat) :
    ((s.setPool logger pool).loggers other).life = (s.loggers other).life := by
  by_cases own : other = logger
  · subst own
    simp [State.setPool]
  · simp [State.setPool, own]

theorem construct_eq {s s' : State} {logger : Nat} {notified : Bool}
    (taken : s.construct logger notified = some s') : (s.loggers logger).life = .unborn ∧
      s'.loggers = Function.update s.loggers logger
        ⟨.alive, notified, if notified then s.pool else none⟩ ∧
      s'.eventLoggers = (if notified then insert logger s.eventLoggers else s.eventLoggers) ∧
      Keeps s s' := by
  unfold State.construct at taken
  split at taken
  · rename_i unborn
    cases notified with
    | false =>
        simp only [Bool.false_eq_true, if_false, Option.some.injEq] at taken
        subst taken
        exact ⟨unborn, rfl, rfl, rfl, rfl, rfl, rfl, fun _ => rfl⟩
    | true =>
        obtain ⟨-, rfl⟩ := subscribe_eq.mp (by simpa using taken)
        exact ⟨unborn, by simp [State.setPool], rfl, rfl, rfl, rfl, rfl, fun _ => rfl⟩
  · cases taken

theorem construct_others {s s' : State} {logger other : Nat} {notified : Bool}
    (taken : s.construct logger notified = some s') (differ : other ≠ logger) :
    s'.loggers other = s.loggers other ∧
      (other ∈ s'.eventLoggers → other ∈ s.eventLoggers) := by
  obtain ⟨-, loggers, eventLoggers, -⟩ := construct_eq taken
  refine ⟨by rw [loggers, Function.update_of_ne differ], ?_⟩
  intro member
  rw [eventLoggers] at member
  split at member
  · exact Finset.mem_of_mem_insert_of_ne member differ
  · exact member

/-- The destructor of a logger that has no notifier leaves the pointer to it behind. -/
theorem destroy_eq {s s' : State} {logger : Nat} (taken : s.destroy logger = some s') :
    (s.loggers logger).life = .alive ∧
      s'.loggers = Function.update s.loggers logger { s.loggers logger with
        life := .destroyed
        pool := if (s.loggers logger).notified then none else (s.loggers logger).pool } ∧
      s'.eventLoggers =
        (if (s.loggers logger).notified then s.eventLoggers.erase logger else s.eventLoggers) ∧
      Keeps s s' := by
  unfold State.destroy at taken
  split at taken
  · rename_i alive
    obtain ⟨left, leaves, rfl⟩ := Option.map_eq_some_iff.mp taken
    refine ⟨alive, ?_⟩
    cases notified : (s.loggers logger).notified with
    | false =>
        obtain rfl : s = left := by simpa [notified] using leaves
        exact ⟨by simp, rfl, rfl, rfl, rfl, rfl, fun _ => rfl⟩
    | true =>
        obtain ⟨-, rfl⟩ := unsubscribe_eq.mp (by simpa [notified] using leaves)
        exact ⟨by simp [State.setPool, notified], rfl, rfl, rfl, rfl, rfl, fun _ => rfl⟩
  · cases taken

theorem destroy_others {s s' : State} {logger other : Nat}
    (taken : s.destroy logger = some s') (differ : other ≠ logger) :
    s'.loggers other = s.loggers other ∧
      (other ∈ s'.eventLoggers → other ∈ s.eventLoggers) := by
  obtain ⟨-, loggers, eventLoggers, -⟩ := destroy_eq taken
  refine ⟨by rw [loggers, Function.update_of_ne differ], ?_⟩
  intro member
  rw [eventLoggers] at member
  split at member
  · exact Finset.mem_of_mem_erase member
  · exact member

/-- No pointer in `event_loggers_` is to a logger that is gone. -/
def NoneDangling (s : State) : Prop :=
  ∀ logger ∈ s.eventLoggers, (s.loggers logger).life = .alive

/-- The logger that the step destroys. -/
def Action.destroyed : Action → Option Nat
  | .call _ (.destroy logger) => some logger
  | _ => none

/-- A subscribed logger that the step destroys knows the manager. -/
def LeavesFirst (s : State) (a : Action) : Prop :=
  ∀ logger ∈ a.destroyed, logger ∈ s.eventLoggers → (s.loggers logger).notified = true

instance (s : State) (a : Action) : Decidable (LeavesFirst s a) :=
  inferInstanceAs (Decidable (∀ logger ∈ a.destroyed, _))

theorem NoneDangling.destroy {s s' : State} {logger : Nat} (sound : NoneDangling s)
    (knows : logger ∈ s.eventLoggers → (s.loggers logger).notified = true)
    (taken : s.destroy logger = some s') : NoneDangling s' := by
  intro other member
  by_cases own : other = logger
  · subst own
    obtain ⟨-, -, eventLoggers, -⟩ := destroy_eq taken
    rw [eventLoggers] at member
    split at member
    · simp at member
    · rename_i unknown
      exact absurd (knows member) unknown
  · obtain ⟨same, older⟩ := destroy_others taken own
    rw [same]
    exact sound other (older member)

theorem NoneDangling.step {s s' : State} {a : Action} (sound : NoneDangling s)
    (leaves : LeavesFirst s a) (taken : step s a = some s') : NoneDangling s' := by
  cases step_effect taken with
  | quiet _ eventLoggers loggers =>
      intro logger member
      rw [loggers]
      exact sound logger (eventLoggers ▸ member)
  | attach _ _ _ _ next =>
      subst next
      intro logger member
      exact (attachAll_life s logger).trans (sound logger member)
  | detach _ _ _ next =>
      subst next
      intro logger member
      exact (detachAll_life s logger).trans (sound logger member)
  | reset _ _ next =>
      subst next
      exact sound
  | subscribe _ subscriber _ next =>
      obtain ⟨alive, rfl⟩ := subscribe_eq.mp next
      intro logger member
      rw [setPool_life]
      obtain rfl | older := Finset.mem_insert.mp member
      · exact alive
      · exact sound logger older
  | unsubscribe subscriber next =>
      obtain ⟨-, rfl⟩ := unsubscribe_eq.mp next
      intro logger member
      exact (setPool_life s subscriber none logger).trans
        (sound logger (Finset.mem_of_mem_erase member))
  | construct _ logger notified _ next =>
      intro other member
      by_cases own : other = logger
      · subst own
        obtain ⟨-, loggers, -⟩ := construct_eq next
        simp [loggers]
      · obtain ⟨same, older⟩ := construct_others next own
        rw [same]
        exact sound other (older member)
  | destroy _ logger acts next =>
      subst acts
      exact sound.destroy (leaves logger rfl) next

/-- A step that destroys a subscribed logger that does not know the manager leaves a
    dangling pointer. -/
theorem leavesFirst_of_noneDangling {s s' : State} {a : Action} (sound : NoneDangling s')
    (taken : step s a = some s') : LeavesFirst s a := by
  intro logger destroys member
  have destroyed : s.destroy logger = some s' := by
    unfold Action.destroyed at destroys
    split at destroys
    · obtain rfl := Option.some.inj destroys
      simp only [step, State.callStep] at taken
      split at taken
      · cases taken
      · exact taken
    · cases destroys
  obtain ⟨-, loggers, eventLoggers, -⟩ := destroy_eq destroyed
  by_contra unknown
  have kept : logger ∈ s'.eventLoggers := by
    rw [eventLoggers, if_neg unknown]
    exact member
  have gone := sound logger kept
  rw [loggers] at gone
  simp at gone

/-- In a run no pointer ever dangles exactly if no logger is destroyed that is
    subscribed and does not know the manager. -/
theorem none_dangling_iff (labels : List Action) (final : State)
    (completes : exec step initial labels = some final) :
    (∀ before after s, labels = before ++ after → exec step initial before = some s →
      NoneDangling s) ↔ Meets step LeavesFirst initial labels := by
  constructor
  · intro sound before a after s split reached
    obtain ⟨s', taken, -⟩ : ∃ s', step s a = some s' ∧
        exec step s' after = some final := by
      rw [split, exec_append, reached] at completes
      simpa [Option.bind_eq_some_iff] using completes
    refine leavesFirst_of_noneDangling (sound (before ++ [a]) after s' (by simp [split]) ?_) taken
    exact exec_concat.mpr ⟨s, reached, taken⟩
  · intro leaves before after s split reached
    subst split
    exact invariant LeavesFirst NoneDangling (by simp [NoneDangling, initial])
      (fun _ _ _ sound first taken => sound.step first taken) leaves.take reached

/-- A thread gets a logger in the initialised runtime. -/
def initializeLog : List Action := [.call 0 .initializeRuntime, .call 1 (.construct 0 true)]

/-- A thread's logger comes and goes while the runtime is initialised. -/
def initializeLogExit : List Action := initializeLog ++ [.call 1 (.destroy 0)]

theorem none_dangling_iff_initializeLogExit :
    ∃ final, exec step initial initializeLogExit = some final ∧
      ((∀ before after s, initializeLogExit = before ++ after →
        exec step initial before = some s → NoneDangling s) ↔
          Meets step LeavesFirst initial initializeLogExit) ∧
      Meets step LeavesFirst initial initializeLogExit :=
  ⟨_, rfl, none_dangling_iff initializeLogExit _ rfl, by decide⟩

/-- `Deinitialize` run by one thread without interruption. -/
def deinitializeCall (thread : Nat) : List Action :=
  .call thread .deinitializeRuntime :: List.replicate 5 (.advance thread)

/-- A thread ends after the runtime was deinitialised. -/
def exitAfterDeinitialize : List Action :=
  initializeLog ++ deinitializeCall 0 ++ [.call 1 (.destroy 0)]

/-- The logger has lost its notifier and cannot unsubscribe, but the manager has kept
    the pointer to it. -/
theorem exit_after_deinitialize_dangles :
    ∃ s, exec step initial exitAfterDeinitialize = some s ∧ 0 ∈ s.eventLoggers ∧
      (s.loggers 0).life = .destroyed ∧ ¬ NoneDangling s := by
  refine ⟨_, rfl, by decide, by decide, ?_⟩
  intro sound
  exact absurd (sound 0 (by decide)) (by decide)

end Spoor.Runtime.Registration
