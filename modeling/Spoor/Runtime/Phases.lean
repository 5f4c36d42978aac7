import Spoor.FlushQueue.Lifecycle
import Spoor.Runtime.Steps

/-! # The manager and the life of the queue

The manager starts the queue when it is initialised and stops it when it is
deinitialised.  Where its call stands says in which phase the queue is, and
while a call goes through the loggers no other thread moves.
-/

namespace Spoor.Runtime.RuntimeManager

open Buffer EventLogging FlushQueue FlushQueue.DiskFlushQueue

variable {n : Nat} {α κ : Type} {o : Options α} {s s' : System n α κ} {thread : Fin n}

/-- While a call goes through all loggers, every other thread is outside. -/
def Exclusive (s : System n α κ) : Prop :=
  ∀ caller position, s.call = some (caller, position) → ∀ other, other ≠ caller →
    s.code other = [] ∧ s.releasing other = [] ∧ s.queue.clients other = .idle

theorem outside_iff : s.outside thread = true ↔ s.code thread = [] ∧ s.releasing thread = [] ∧
    s.queue.clients thread = .idle ∧ ∀ position, s.call ≠ some (thread, position) := by
  simp only [System.outside, Bool.and_eq_true, List.isEmpty_iff, isIdle_iff, Option.all_eq_true,
    and_assoc, decide_eq_true_eq]
  refine and_congr_right fun _ => and_congr_right fun _ => and_congr_right fun _ => ?_
  constructor
  · intro apart position called
    exact apart _ called rfl
  · rintro apart ⟨caller, position⟩ called rfl
    exact apart position called

/-- Only the caller moves. -/
theorem Exclusive.own {caller : Fin n} {position : Position n κ} (exclusive : Exclusive s)
    (called : s.call = some (caller, position)) (threaded : Threaded o s thread s') :
    thread = caller := by
  by_contra differ
  obtain ⟨code, released, idle⟩ := exclusive caller position called thread differ
  cases threaded with
  | giveBack ptr rest pool releasing => simp [releasing] at released
  | execute instruction rest overtaken _ _ _ next => simp [next] at code
  | advance position order _ _ _ _ own =>
      rw [called] at own
      exact differ (congrArg Prod.fst (Option.some.inj own)).symm
  | client now queue _ busy => exact busy idle

/-- A step inside a call stays inside it or ends it. -/
theorem advanced_local {position : Position n κ} (advanced : Advanced s thread position s') :
    Local thread s s' ∧ ∀ called, s'.call = some called → called.1 = thread := by
  have same : Local thread s s := .refl thread s
  cases advanced with
  | initialized | uninitialized | resetPool => exact ⟨⟨same.1, same.2, same.3⟩, by simp⟩
  | deinitialized | detached =>
      exact ⟨⟨same.1, same.2, same.3⟩, by rintro _ ⟨⟩; rfl⟩
  | attach owner rest logger notified | drop owner rest logger notified =>
      obtain ⟨code, releasing, clients⟩ := same.replaceLogger owner .destroyed
      exact ⟨⟨code, releasing, clients⟩, by rintro _ ⟨⟩; rfl⟩
  | clear owner rest deinitializing logger notified =>
      obtain ⟨code, releasing, clients⟩ := same.replaceLogger owner .destroyed
      exact ⟨⟨code, releasing, clients⟩, by rintro _ ⟨⟩; rfl⟩
  | detach owner rest logger notified =>
      obtain ⟨code, releasing, clients⟩ := same.goto [.flush owner]
      exact ⟨⟨code, releasing, clients⟩, by rintro _ ⟨⟩; rfl⟩
  | flush owner =>
      obtain ⟨code, releasing, clients⟩ := same.goto [.flush owner]
      exact ⟨⟨code, releasing, clients⟩, by rintro _ ⟨⟩; rfl⟩
  | flushQueue completion deinitializing _ entered | clearQueue deinitializing _ entered =>
      have own : Local thread s s' := by
        refine Local.enter ?_ entered
        exact ⟨same.1, same.2, same.3⟩
      obtain ⟨queue, -, rfl⟩ := enter_queue entered
      cases deinitializing with
      | true => exact ⟨own, by rintro _ ⟨⟩; rfl⟩
      | false => exact ⟨own, by simp⟩
  | drainAndStop _ entered =>
      have own : Local thread s s' := by
        refine Local.enter ?_ entered
        exact ⟨same.1, same.2, same.3⟩
      obtain ⟨queue, -, rfl⟩ := enter_queue entered
      exact ⟨own, by rintro _ ⟨⟩; rfl⟩

/-- Steps of a thread are its own, and none of them starts a call. -/
theorem threaded_local (threaded : Threaded o s thread s') :
    Local thread s s' ∧ ∀ caller position, s'.call = some (caller, position) →
      ∃ before, s.call = some (caller, before) := by
  cases threaded with
  | giveBack ptr rest pool releasing =>
      refine ⟨⟨fun _ _ => rfl, ?_, fun _ _ => rfl⟩, fun _ position called => ⟨position, called⟩⟩
      intro other differ
      exact Function.update_of_ne differ _ _
  | execute instruction rest overtaken _ _ _ _ executes =>
      have executed := instructed_executed (execute_instructed executes)
      exact ⟨executed.own, fun _ position called => ⟨position, executed.call ▸ called⟩⟩
  | advance position order _ _ _ _ own advances =>
      obtain ⟨moves, calls⟩ := advanced_local (advance_advanced advances)
      refine ⟨moves, ?_⟩
      intro caller after called
      obtain rfl : caller = thread := calls _ called
      exact ⟨position, own⟩
  | client now queue _ _ moves =>
      refine ⟨⟨fun _ _ => rfl, ?_, ?_⟩, fun _ position called => ⟨position, called⟩⟩
      · intro other differ
        exact Function.update_of_ne differ _ _
      · intro other differ
        exact client_others moves fun equal => differ (Fin.ext equal)

theorem construct_call {t : System n α κ} (constructed : s.construct o thread = some t) :
    t.call = s.call ∧ t.initialized = s.initialized ∧ t.pool = s.pool ∧ t.queue = s.queue ∧
      t.workerReleasing = s.workerReleasing := by
  simp only [System.construct] at constructed
  split at constructed <;> cases constructed
  · exact ⟨rfl, rfl, rfl, rfl, rfl⟩
  · exact ⟨rfl, rfl, rfl, rfl, rfl⟩

/-- A call that goes through all loggers starts while everybody is outside. -/
theorem Exclusive.of_outside {caller : Fin n} {position : Position n κ}
    (outside : ∀ other, s.outside other = true) (own : Local caller s s')
    (called : s'.call = some (caller, position)) : Exclusive s' := by
  intro caller' position' called' other differ
  rw [called] at called'
  obtain ⟨rfl, rfl⟩ := Prod.mk.inj (Option.some.inj called')
  obtain ⟨code, released, idle, -⟩ := outside_iff.mp (outside other)
  rw [own.code other differ, own.releasing other differ, own.clients other differ]
  exact ⟨code, released, idle⟩

theorem call_exclusive (exclusive : Exclusive s) (called : Called o s thread s') :
    Exclusive s' := by
  cases called with
  | flag => exact exclusive
  | log t code uncalled constructed =>
      intro caller position called
      have none : t.call = none := (construct_call constructed).1.trans uncalled
      cases none.symm.trans called
  | exit code uncalled =>
      intro caller position called
      cases uncalled.symm.trans called
  | begin position enabled _ outside =>
      exact .of_outside outside ⟨fun _ _ => rfl, fun _ _ => rfl, fun _ _ => rfl⟩ rfl
  | launch order _ _ outside _ _ entered =>
      have own : Local thread s s' := by
        refine Local.enter ?_ entered
        exact ⟨fun _ _ => rfl, fun _ _ => rfl, fun _ _ => rfl⟩
      obtain ⟨queue, -, rfl⟩ := enter_queue entered
      exact .of_outside outside own rfl

theorem thread_exclusive (exclusive : Exclusive s) (threaded : Threaded o s thread s') :
    Exclusive s' := by
  obtain ⟨own, calls⟩ := threaded_local threaded
  intro caller position called other differ
  obtain ⟨before, calling⟩ := calls caller position called
  obtain rfl := exclusive.own calling threaded
  rw [own.code other differ, own.releasing other differ, own.clients other differ]
  exact exclusive _ before calling other differ

theorem worker_exclusive (exclusive : Exclusive s) (worked : Worked o s s') : Exclusive s' := by
  cases worked with
  | giveBack => exact exclusive
  | move now ok queue _ moves =>
      intro caller position called other differ
      obtain ⟨code, released, idle⟩ := exclusive caller position called other differ
      exact ⟨code, released, (congrFun (worker_clients moves) _).trans idle⟩

/-- The phase of the queue while `Run` is called for the manager. -/
def startingPhase {β : Type} : Client β κ → Phase
  | .runExchange => .stopped
  | .runDraining | .runSpawn => .launched
  | _ => .opened

/-- The phase of the queue while `DrainAndStop` is called for the manager. -/
def stoppingPhase {β : Type} : Client β κ → Phase
  | .drainRunning | .drainExchange => .opened
  | .drainJoin => .closing
  | _ => .stopped

def restingPhase (initialized : Bool) : Phase := if initialized then .opened else .stopped

def Position.phase {β : Type} (initialized : Bool) (client : Client β κ) : Position n κ → Phase
  | .attach _ => startingPhase client
  | .resetPool => stoppingPhase client
  | .deinitializeRuntime | .flush _ _ false | .clear _ false => restingPhase initialized
  | _ => .opened

/-- The phase of the queue, as far as the manager knows. -/
def System.phase (s : System n α κ) : Phase :=
  match s.call with
  | none => restingPhase s.initialized
  | some (caller, position) => position.phase s.initialized (s.queue.clients caller)

/-- A call is initialising or deinitialising. -/
def System.busy (s : System n α κ) : Bool := s.call.any fun call => !call.2.resting

/-- The manager calls `Run` or `DrainAndStop` at this position. -/
def Position.switches {β : Type} : Position n κ → Client β κ → Bool
  | .attach _, .runExchange | .attach _, .runDraining | .attach _, .runSpawn
  | .resetPool, .drainRunning | .resetPool, .drainExchange | .resetPool, .drainJoin => true
  | _, _ => false

structure Phased (s : System n α κ) : Prop where
  phase : s.phase.Holds s.queue
  pooled : s.pool.isSome = (s.initialized || s.busy)
  busy : s.busy = true → s.initialized = false
  admitted : ∀ thread : Fin n, (s.queue.clients thread).admitted = true → Open s.queue
  switching : ∀ thread : Fin n, (s.queue.clients thread).switching = true →
    ∃ position, s.call = some (thread, position) ∧
      position.switches (s.queue.clients thread) = true
  counted : Counted s.queue
  releasing : s.workerReleasing ≠ [] → s.queue.worker = .readDraining

theorem Phased.initially : Phased (initial : System n α κ) where
  phase := ⟨rfl, rfl, rfl, rfl⟩
  pooled := rfl
  busy := by simp [initial]
  admitted := by simp [initial, DiskFlushQueue.initial, Client.admitted]
  switching := by simp [initial, DiskFlushQueue.initial, Client.switching]
  counted := .initial
  releasing := by simp [initial]

theorem startingPhase_aside {β : Type} {client : Client β κ} (aside : client.switching = false) :
    startingPhase client = .opened := by
  cases client <;> first | rfl | simp [Client.switching] at aside

theorem stoppingPhase_aside {β : Type} {client : Client β κ} (aside : client.switching = false) :
    stoppingPhase client = .stopped := by
  cases client <;> first | rfl | simp [Client.switching] at aside

theorem Phased.holds (phased : Phased s) {phase : Phase} (known : s.phase = phase) :
    phase.Holds s.queue := known ▸ phased.phase

/-- Beside `Run` and `DrainAndStop`, it does not matter where a client stands. -/
theorem phase_aside {β : Type} {before after : Client β κ} (initialized : Bool)
    (position : Position n κ) (aside : before.switching = false)
    (aside' : after.switching = false) :
    position.phase initialized after = position.phase initialized before := by
  cases position with
  | attach rest => exact (startingPhase_aside aside').trans (startingPhase_aside aside).symm
  | resetPool => exact (stoppingPhase_aside aside').trans (stoppingPhase_aside aside).symm
  | flush rest completion deinitializing => cases deinitializing <;> rfl
  | clear rest deinitializing => cases deinitializing <;> rfl
  | _ => rfl

theorem resting_cases {position : Position n κ} (resting : position.resting = true) :
    position = .deinitializeRuntime ∨ (∃ rest completion, position = .flush rest completion false) ∨
      ∃ rest, position = .clear rest false := by
  cases position with
  | deinitializeRuntime => exact .inl rfl
  | flush rest completion deinitializing =>
      cases deinitializing with
      | true => cases resting
      | false => exact .inr (.inl ⟨rest, completion, rfl⟩)
  | clear rest deinitializing =>
      cases deinitializing with
      | true => cases resting
      | false => exact .inr (.inr ⟨rest, rfl⟩)
  | _ => cases resting

theorem phase_resting {β : Type} {initialized : Bool} {client : Client β κ}
    {position : Position n κ} (resting : position.resting = true) :
    position.phase initialized client = restingPhase initialized := by
  rcases resting_cases resting with rfl | ⟨rest, completion, rfl⟩ | ⟨rest, rfl⟩ <;> rfl

theorem phase_settled {β : Type} {client : Client β κ} (initialized : Bool)
    (position : Position n κ) (aside : client.switching = false) :
    position.phase initialized client = .opened ∨ position.phase initialized client = .stopped := by
  have rests : restingPhase initialized = .opened ∨ restingPhase initialized = .stopped := by
    cases initialized with
    | true => exact .inl rfl
    | false => exact .inr rfl
  cases position with
  | attach rest => exact .inl (startingPhase_aside aside)
  | resetPool => exact .inr (stoppingPhase_aside aside)
  | deinitializeRuntime => exact rests
  | flush rest completion deinitializing =>
      cases deinitializing with
      | true => exact .inl rfl
      | false => exact rests
  | clear rest deinitializing =>
      cases deinitializing with
      | true => exact .inl rfl
      | false => exact rests
  | detach | drop | drainAndStop => exact .inl rfl

/-- A client that moves beside `Run` and `DrainAndStop` does so while the queue is open
    or stopped. -/
theorem Exclusive.settled (exclusive : Exclusive s) (inside : s.queue.clients thread ≠ .idle)
    (aside : (s.queue.clients thread).switching = false) :
    s.phase = .opened ∨ s.phase = .stopped := by
  cases called : s.call with
  | none =>
      simp only [System.phase, called]
      exact phase_settled s.initialized (.deinitializeRuntime : Position n κ) aside
  | some call =>
      obtain ⟨caller, position⟩ := call
      have own : thread = caller := by
        by_contra differ
        exact inside (exclusive caller position called thread differ).2.2
      subst own
      simp only [System.phase, called]
      exact phase_settled s.initialized position aside

/-- A client that moves beside `Run` and `DrainAndStop` leaves the phase as it is. -/
theorem phase_client (call : s'.call = s.call) (initialized : s'.initialized = s.initialized)
    (others : ∀ other : Fin n, other ≠ thread → s'.queue.clients other = s.queue.clients other)
    (aside : (s.queue.clients thread).switching = false)
    (aside' : (s'.queue.clients thread).switching = false) : s'.phase = s.phase := by
  simp only [System.phase, call, initialized]
  cases s.call with
  | none => rfl
  | some called =>
      obtain ⟨caller, position⟩ := called
      by_cases own : caller = thread
      · subst own
        exact phase_aside s.initialized position aside aside'
      · simp only [others caller own]

theorem busy_congr (call : s'.call = s.call) : s'.busy = s.busy := by
  rw [System.busy, call, System.busy]

/-- Steps that are neither about the queue nor about a call. -/
theorem Phased.frame (phased : Phased s) (queue : s'.queue = s.queue) (call : s'.call = s.call)
    (initialized : s'.initialized = s.initialized) (pool : s'.pool.isSome = s.pool.isSome)
    (releasing : s'.workerReleasing = s.workerReleasing) : Phased s' := by
  obtain ⟨phase, pooled, busy, admitted, switching, counted, working⟩ := phased
  have same : s'.phase = s.phase := by simp only [System.phase, call, initialized, queue]
  constructor
  · rw [same, queue]
    exact phase
  · rw [pool, initialized, busy_congr call, pooled]
  · rw [busy_congr call, initialized]
    exact busy
  · rw [queue]
    exact admitted
  · rw [queue, call]
    exact switching
  · rw [queue]
    exact counted
  · rw [releasing, queue]
    exact working

/-- A client that moves beside `Run` and `DrainAndStop`. -/
theorem Phased.beside (phased : Phased s) (call : s'.call = s.call)
    (initialized : s'.initialized = s.initialized) (pool : s'.pool.isSome = s.pool.isSome)
    (others : ∀ other : Fin n, other ≠ thread → s'.queue.clients other = s.queue.clients other)
    (aside : (s.queue.clients thread).switching = false)
    (aside' : (s'.queue.clients thread).switching = false) (phase : s.phase.Holds s'.queue)
    (admitted : ∀ other : Fin n, (s'.queue.clients other).admitted = true → Open s'.queue)
    (counted : Counted s'.queue)
    (releasing : s'.workerReleasing ≠ [] → s'.queue.worker = .readDraining) : Phased s' := by
  refine ⟨?_, ?_, ?_, admitted, ?_, counted, releasing⟩
  · rw [phase_client call initialized others aside aside']
    exact phase
  · rw [pool, initialized, busy_congr call, phased.pooled]
  · rw [busy_congr call, initialized]
    exact phased.busy
  · intro other switches
    by_cases same : other = thread
    · rw [same, aside'] at switches
      cases switches
    · rw [others other same] at switches ⊢
      rw [call]
      exact phased.switching other switches

/-- Who enters a method has not passed the test of `Enqueue` yet. -/
theorem admitted_entry {queue : State (CircularSliceBuffer Owner α) κ}
    {entry : Client (CircularSliceBuffer Owner α) κ}
    (admitted : ∀ other : Fin n, (queue.clients other).admitted = true → Open queue)
    (refused : entry.admitted = false) (events : List (Event (CircularSliceBuffer Owner α) κ))
    (other : Fin n)
    (admits : (((queue.goto thread entry).emit events).clients other).admitted = true) :
    Open ((queue.goto thread entry).emit events) := by
  have opened : Phase.opened.Holds queue := by
    by_cases same : other = thread
    · simp [same, refused] at admits
    · have apart : (other : Nat) ≠ thread := fun equal => same (Fin.ext equal)
      rw [emit_clients, goto_clients, Function.update_of_ne apart] at admits
      exact admitted other admits
  exact opened.of_eq rfl rfl rfl rfl

/-- Entering a method other than `Run` and `DrainAndStop`. -/
theorem Phased.enter (phased : Phased s)
    {method : Call (CircularSliceBuffer Owner α) κ} (aside : method.entry.switching = false)
    (refused : method.entry.admitted = false) (entered : s.enter thread method = some s') :
    Phased s' := by
  have others := ((Local.refl thread s).enter entered).clients
  obtain ⟨queue, taken, rfl⟩ := enter_queue entered
  obtain ⟨idle, events, rfl, -⟩ := call_entry taken
  refine phased.beside rfl rfl rfl others ?_ ?_ ?_ ?_ ?_ phased.releasing
  · rw [idle]
    rfl
  · simpa using aside
  · exact phased.phase.of_eq rfl rfl rfl rfl
  · exact admitted_entry phased.admitted refused events
  · exact ⟨phased.counted.size, phased.counted.bound⟩

/-- Where the caller is outside the queue, nobody starts or stops it. -/
theorem Phased.aside {caller : Fin n} {position : Position n κ} (phased : Phased s)
    (called : s.call = some (caller, position)) (idle : s.queue.clients caller = .idle)
    (other : Fin n) : (s.queue.clients other).switching = false := by
  by_contra switches
  obtain ⟨position', called', -⟩ := phased.switching other (by simpa using switches)
  rw [called] at called'
  obtain ⟨rfl, rfl⟩ := Prod.mk.inj (Option.some.inj called')
  simp [idle, Client.switching] at switches

/-- A step of the manager that leaves the queue alone. -/
theorem Phased.recall {caller : Fin n} {position : Position n κ} (phased : Phased s)
    (called : s.call = some (caller, position)) (idle : s.queue.clients caller = .idle)
    (queue : s'.queue = s.queue) (releasing : s'.workerReleasing = s.workerReleasing)
    (phase : s'.phase = s.phase) (pooled : s'.pool.isSome = (s'.initialized || s'.busy))
    (busy : s'.busy = true → s'.initialized = false) : Phased s' := by
  refine ⟨?_, pooled, busy, ?_, ?_, ?_, ?_⟩
  · rw [phase, queue]
    exact phased.phase
  · rw [queue]
    exact phased.admitted
  · intro other switches
    rw [queue, phased.aside called idle other] at switches
    cases switches
  · rw [queue]
    exact phased.counted
  · rw [releasing, queue]
    exact phased.releasing

section

variable {now : Int} {queue : State (CircularSliceBuffer Owner α) κ}

theorem Phased.client_beside (phased : Phased s) (exclusive : Exclusive s)
    (aside : (s.queue.clients thread).switching = false) (counted : Counted queue)
    (moves : clientStep o.queue s.queue thread now = some queue) (released : List (SlicePtr α)) :
    Phased { s with queue, releasing := Function.update s.releasing thread released } := by
  have others : ∀ other : Fin n, other ≠ thread → queue.clients other = s.queue.clients other :=
    fun other differ => client_others moves fun equal => differ (Fin.ext equal)
  have inside : s.queue.clients thread ≠ .idle := by
    intro idle
    simp [clientStep, idle] at moves
  have working : s.workerReleasing ≠ [] → queue.worker = .readDraining :=
    fun releases => readDraining_client moves (phased.releasing releases)
  rcases exclusive.settled inside aside with opened | stopped
  · have before : Open s.queue := phased.holds opened
    have after : Open queue := by
      refine before.client moves ?_
      intro exchanges
      simp [exchanges, Client.switching] at aside
    refine phased.beside rfl rfl rfl others aside (switching_client moves aside) ?_
      (fun _ _ => after) counted working
    rw [opened]
    exact after
  · have before : Stopped s.queue := phased.holds stopped
    have refused : ∀ other : Fin n, (s.queue.clients other).admitted = false := by
      intro other
      by_contra admits
      have opened := phased.admitted other (by simpa using admits)
      cases before.running.symm.trans opened.running
    obtain ⟨after, refuses⟩ := before.client moves aside (refused thread)
    refine phased.beside rfl rfl rfl others aside (switching_client moves aside) ?_ ?_
      counted working
    · rw [stopped]
      exact after
    · intro other admits
      by_cases same : other = thread
      · simp [same, refuses] at admits
      · rw [others other same, refused other] at admits
        cases admits

theorem switches_cases {β : Type} {position : Position n κ} {client : Client β κ}
    (switches : position.switches client = true) :
    (∃ rest, position = .attach rest ∧
      (client = .runExchange ∨ client = .runDraining ∨ client = .runSpawn)) ∨
    (position = .resetPool ∧
      (client = .drainRunning ∨ client = .drainExchange ∨ client = .drainJoin)) := by
  cases position with
  | attach rest =>
      refine .inl ⟨rest, rfl, ?_⟩
      cases client <;> simp [Position.switches] at switches ⊢
  | resetPool =>
      refine .inr ⟨rfl, ?_⟩
      cases client <;> simp [Position.switches] at switches ⊢
  | _ => simp [Position.switches] at switches

/-- The caller moves inside `Run` or `DrainAndStop`, and everybody else is outside. -/
theorem Phased.switch {position : Position n κ} (phased : Phased s) (exclusive : Exclusive s)
    (called : s.call = some (thread, position)) (counted : Counted queue)
    (moves : clientStep o.queue s.queue thread now = some queue) (released : List (SlicePtr α))
    {after : Client (CircularSliceBuffer Owner α) κ} (stands : queue.clients thread = after)
    (refused : after.admitted = false)
    (within : after.switching = true → position.switches after = true)
    (phase : (position.phase s.initialized after).Holds queue) :
    Phased { s with queue, releasing := Function.update s.releasing thread released } := by
  have others : ∀ other : Fin n, other ≠ thread → queue.clients other = .idle := by
    intro other differ
    exact (client_others moves fun equal => differ (Fin.ext equal)).trans
      (exclusive thread position called other differ).2.2
  refine ⟨?_, phased.pooled, phased.busy, ?_, ?_, counted, ?_⟩
  · simp only [System.phase, called, stands]
    exact phase
  · intro other admits
    by_cases same : other = thread
    · simp [same, stands, refused] at admits
    · simp [others other same, Client.admitted] at admits
  · intro other switches
    by_cases same : other = thread
    · subst same
      simp only [stands] at switches ⊢
      exact ⟨position, called, within switches⟩
    · simp [others other same, Client.switching] at switches
  · exact fun releases => readDraining_client moves (phased.releasing releases)

theorem Phased.client_switching (phased : Phased s) (exclusive : Exclusive s)
    (switches : (s.queue.clients thread).switching = true) (counted : Counted queue)
    (moves : clientStep o.queue s.queue thread now = some queue) (released : List (SlicePtr α)) :
    Phased { s with queue, releasing := Function.update s.releasing thread released } := by
  obtain ⟨position, called, at'⟩ := phased.switching thread switches
  have known : ∀ {client}, s.queue.clients thread = client →
      (position.phase s.initialized client).Holds s.queue := by
    intro client stands
    refine phased.holds ?_
    simp only [System.phase, called, stands]
  rcases switches_cases at' with ⟨rest, rfl, exchanges | drains | spawns⟩ |
    ⟨rfl, runs | exchanges | joins⟩
  · obtain ⟨launched, stands⟩ := Stopped.exchange (known exchanges) exchanges moves
    exact phased.switch exclusive called counted moves released stands rfl (fun _ => rfl) launched
  · obtain ⟨launched, stands⟩ := Launched.drain (known drains) drains moves
    exact phased.switch exclusive called counted moves released stands rfl (fun _ => rfl) launched
  · obtain ⟨opened, stands⟩ := Launched.spawn (known spawns) spawns moves
    exact phased.switch exclusive called counted moves released stands rfl nofun opened
  · have opened : Open s.queue := known runs
    have stands : queue.clients thread = .drainExchange := by
      simp only [clientStep, runs, opened.running, if_true, Option.some.injEq] at moves
      subst moves
      simp
    exact phased.switch exclusive called counted moves released stands rfl (fun _ => rfl)
      (opened.client moves (by simp [runs]))
  · obtain ⟨closing, stands⟩ := Open.exchange (known exchanges) exchanges moves
    exact phased.switch exclusive called counted moves released stands rfl (fun _ => rfl) closing
  · obtain ⟨stopped, stands⟩ := Closing.join (known joins) joins moves
    exact phased.switch exclusive called counted moves released stands rfl nofun stopped

end

/-- An instruction enters the queue at most to enqueue a buffer. -/
theorem execute_phased (phased : Phased s) (executed : Executed thread s s') : Phased s' := by
  obtain ⟨-, call, initialized, pool, releasing, queue, -⟩ := executed
  rcases queue with same | ⟨buffer, entered⟩
  · exact phased.frame same call initialized pool releasing
  · have enters : s.enter thread (.enqueue buffer) = some { s with queue := s'.queue } := by
      simp only [System.enter, entered, Option.map_some]
    have inside := phased.enter rfl rfl enters
    exact inside.frame rfl call initialized pool releasing

/-- The call moves on without the queue. -/
theorem Phased.proceed {position after : Position n κ} (phased : Phased s)
    (called : s.call = some (thread, position)) (idle : s.queue.clients thread = .idle)
    (calls : s'.call = some (thread, after)) (queue : s'.queue = s.queue)
    (releasing : s'.workerReleasing = s.workerReleasing) (pool : s'.pool = s.pool)
    (initialized : s'.initialized = s.initialized) (resting : after.resting = position.resting)
    (phase : ∀ initialized, after.phase initialized (s.queue.clients thread) =
      position.phase initialized (s.queue.clients thread)) : Phased s' := by
  have busy : s'.busy = s.busy := by
    simp only [System.busy, calls, called, Option.any_some, resting]
  refine phased.recall called idle queue releasing ?_ ?_ ?_
  · simp only [System.phase, calls, called, queue, initialized]
    exact phase s.initialized
  · rw [pool, initialized, busy, phased.pooled]
  · rw [busy, initialized]
    exact phased.busy

/-- The call ends, or goes on to stop the queue. -/
theorem Phased.finish {position : Position n κ} (phased : Phased s)
    (called : s.call = some (thread, position)) (idle : s.queue.clients thread = .idle)
    (deinitializing : Bool) (resting : position.resting = !deinitializing)
    (phase : position.phase s.initialized (s.queue.clients thread) =
      if deinitializing then .opened else restingPhase s.initialized) :
    Phased { s with
      call := if deinitializing then some (thread, .drainAndStop) else none } := by
  have pooled := phased.pooled
  have busy := phased.busy
  simp only [System.busy, called, Option.any_some, resting] at pooled busy
  refine phased.recall called idle rfl rfl ?_ ?_ ?_
  · simp only [System.phase, called, phase]
    cases deinitializing <;> rfl
  · cases deinitializing <;> exact pooled
  · cases deinitializing <;> exact busy

/-- The manager enters `Run` or `DrainAndStop`. -/
theorem Phased.enter_switching {position : Position n κ}
    {method : Call (CircularSliceBuffer Owner α) κ} {pool : Option (CombinedBufferSlicePool α)}
    (phased : Phased s) (aside : ∀ other : Fin n, (s.queue.clients other).switching = false)
    (within : position.switches method.entry = true) (refused : method.entry.admitted = false)
    (phase : position.phase s.initialized method.entry = s.phase)
    (starting : position.resting = false) (uninitialized : s.initialized = false)
    (pooled : pool.isSome = true)
    (entered : { s with pool, call := some (thread, position) }.enter thread method = some s') :
    Phased s' := by
  have others := ((Local.refl thread _).enter entered).clients
  obtain ⟨queue, taken, rfl⟩ := enter_queue entered
  obtain ⟨idle, events, rfl, -⟩ := call_entry taken
  refine ⟨?_, ?_, fun _ => uninitialized, ?_, ?_, ?_, phased.releasing⟩
  · simp only [System.phase, emit_clients, goto_clients, Function.update_self, phase]
    exact phased.phase.of_eq rfl rfl rfl rfl
  · simp [System.busy, pooled, starting]
  · exact admitted_entry phased.admitted refused events
  · intro other switches
    by_cases same : other = thread
    · subst same
      exact ⟨position, rfl, by simpa using within⟩
    · rw [others other same, aside other] at switches
      cases switches
  · exact ⟨phased.counted.size, phased.counted.bound⟩

theorem advance_phased {position : Position n κ} (phased : Phased s)
    (called : s.call = some (thread, position)) (idle : s.queue.clients thread = .idle)
    (advanced : Advanced s thread position s') : Phased s' := by
  have pooled := phased.pooled
  have busy := phased.busy
  simp only [System.busy, called, Option.any_some] at pooled busy
  cases advanced with
  | initialized =>
      refine phased.recall called idle rfl rfl ?_ ?_ ?_
      · simp [System.phase, called, Position.phase, idle, startingPhase, restingPhase]
      · simpa [System.busy, Position.resting] using pooled
      · simp [System.busy]
  | attach owner rest logger notified =>
      exact phased.proceed called idle rfl rfl rfl rfl rfl rfl fun _ => rfl
  | uninitialized uninitialized =>
      refine phased.recall called idle rfl rfl ?_ ?_ ?_
      · simp [System.phase, called, Position.phase]
      · simpa [System.busy, Position.resting] using pooled
      · simp [System.busy]
  | deinitialized order initialized =>
      refine phased.recall called idle rfl rfl ?_ ?_ ?_
      · simp [System.phase, called, Position.phase, restingPhase, initialized]
      · simpa [System.busy, Position.resting, initialized] using pooled
      · simp
  | detach owner rest logger notified =>
      exact phased.proceed called idle rfl rfl rfl rfl rfl rfl fun _ => rfl
  | drop owner rest logger notified =>
      exact phased.proceed called idle rfl rfl rfl rfl rfl rfl fun _ => rfl
  | detached order position next =>
      rcases next with rfl | rfl <;>
        exact phased.proceed called idle rfl rfl rfl rfl rfl rfl fun _ => rfl
  | flush owner rest completion deinitializing =>
      refine phased.proceed called idle rfl rfl rfl rfl rfl ?_ ?_
      · cases deinitializing <;> rfl
      · cases deinitializing <;> exact fun _ => rfl
  | flushQueue completion deinitializing _ entered =>
      refine (phased.finish called idle deinitializing ?_ ?_).enter ?_ ?_ entered
      · cases deinitializing <;> rfl
      · cases deinitializing <;> rfl
      · rfl
      · rfl
  | clear owner rest deinitializing =>
      refine phased.proceed called idle rfl rfl rfl rfl rfl ?_ ?_
      · cases deinitializing <;> rfl
      · cases deinitializing <;> exact fun _ => rfl
  | clearQueue deinitializing _ entered =>
      refine (phased.finish called idle deinitializing ?_ ?_).enter ?_ ?_ entered
      · cases deinitializing <;> rfl
      · cases deinitializing <;> rfl
      · rfl
      · rfl
  | drainAndStop _ entered =>
      refine phased.enter_switching (phased.aside called idle) rfl rfl ?_ rfl (busy rfl) ?_ entered
      · simp only [System.phase, called]
        rfl
      · simpa [Position.resting] using pooled
  | resetPool =>
      refine phased.recall called idle rfl rfl ?_ ?_ ?_
      · simp [System.phase, called, Position.phase, idle, stoppingPhase, restingPhase,
          busy rfl]
      · simp [System.busy, busy rfl]
      · simp [System.busy]

theorem call_phased (phased : Phased s) (called : Called o s thread s') : Phased s' := by
  have pooled := phased.pooled
  have busy := phased.busy
  cases called with
  | flag => exact phased.frame rfl rfl rfl rfl rfl
  | log t code _ constructed =>
      obtain ⟨call, initialized, pool, queue, releasing⟩ := construct_call constructed
      exact phased.frame queue call initialized (congrArg Option.isSome pool) releasing
  | exit => exact phased.frame rfl rfl rfl rfl rfl
  | begin position enabled uncalled _ resting =>
      simp only [System.busy, uncalled] at pooled
      refine ⟨?_, ?_, ?_, phased.admitted, ?_, phased.counted, phased.releasing⟩
      · have rests := phased.phase
        simp only [System.phase, uncalled] at rests
        simp only [System.phase, phase_resting resting]
        exact rests
      · simpa [System.busy, resting] using pooled
      · simp [System.busy, resting]
      · intro other switches
        obtain ⟨position', called, -⟩ := phased.switching other switches
        cases uncalled.symm.trans called
  | launch order _ uncalled _ uninitialized _ entered =>
      refine phased.enter_switching ?_ rfl rfl ?_ rfl uninitialized rfl entered
      · intro other
        by_contra switches
        obtain ⟨position, called, -⟩ := phased.switching other (by simpa using switches)
        cases uncalled.symm.trans called
      · simp only [System.phase, uncalled, uninitialized]
        rfl

/-- `Clear` of the queue only runs while its worker holds no popped record. -/
def ClearsUnheld (s : System n α κ) : Action n α κ → Prop
  | .thread thread now _ _ =>
      s.releasing thread = [] → DiskFlushQueue.ClearsUnheld s.queue (.client thread now)
  | _ => True

instance [DecidableEq κ] (s : System n α κ) : ∀ a, Decidable (ClearsUnheld s a)
  | .thread thread now _ _ => inferInstanceAs (Decidable
      (s.releasing thread = [] → DiskFlushQueue.ClearsUnheld s.queue (.client thread now)))
  | .call _ _ _ | .worker _ _ => inferInstanceAs (Decidable True)

theorem thread_phased {now : Int} {overtaken : Overtaken} {order : List (Fin n)}
    (phased : Phased s) (exclusive : Exclusive s)
    (conforms : ClearsUnheld s (.thread thread now overtaken order))
    (threaded : Threaded o s thread s') : Phased s' := by
  cases threaded with
  | giveBack ptr rest pool releasing pooled =>
      exact phased.frame rfl rfl rfl (by rw [pooled]; rfl) rfl
  | execute instruction rest overtaken _ _ _ _ executes =>
      exact execute_phased phased (instructed_executed (execute_instructed executes))
  | advance position order _ _ idle _ called advances =>
      exact advance_phased phased called idle (advance_advanced advances)
  | client now queue released inside moves =>
      have counted : Counted queue :=
        step_counted (a := .client thread now) phased.counted (conforms released) moves
      cases switches : (s.queue.clients thread).switching with
      | true => exact phased.client_switching exclusive switches counted moves _
      | false => exact phased.client_beside exclusive switches counted moves _

theorem worker_phased (phased : Phased s) (worked : Worked o s s') : Phased s' := by
  cases worked with
  | giveBack ptr rest pool releasing pooled =>
      have framed : Phased { s with pool := some (pool.giveBack ptr) } :=
        phased.frame rfl rfl rfl (by rw [pooled]; rfl) rfl
      exact { framed with releasing := fun _ => phased.releasing (by simp [releasing]) }
  | move now ok queue released moves =>
      have clients := worker_clients moves
      have counted : Counted queue := by
        refine step_counted (a := .worker now ok) phased.counted ?_ moves
        simp [DiskFlushQueue.ClearsUnheld, State.criticalSection]
      refine ⟨?_, phased.pooled, phased.busy, ?_, ?_, counted, ?_⟩
      · simp only [System.phase, clients]
        exact phased.phase.worker_step phased.counted moves
      · intro other admits
        rw [clients] at admits
        exact (phased.admitted other admits).worker_step moves
      · rw [clients]
        exact phased.switching
      · intro releases
        refine destroyed_step moves ?_
        intro none
        simp [none] at releases

end Spoor.Runtime.RuntimeManager
