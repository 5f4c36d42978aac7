import Spoor.FlushQueue.Counter
import Spoor.FlushQueue.Handover

/-! # Starting and stopping the queue

A queue that one thread starts and stops goes through four phases: stopped,
launched by `Run` but without a worker yet, open, and closing from the moment
`DrainAndStop` sets `draining_` to the moment it joins the worker.  An open queue
only closes through `DrainAndStop`, and a closing one comes to a stop with an
empty deque as long as its counter is exact.
-/

namespace Spoor.FlushQueue.DiskFlushQueue

variable {β κ : Type}

/-- The worker is in its loop and did not find `draining_` set. -/
def Worker.looping : Worker β κ → Bool
  | .absent | .readEmpty | .storeDraining | .storeRunning | .finished => false
  | _ => true

structure Stopped (s : State β κ) : Prop where
  running : s.running = false
  draining : s.draining = false
  worker : s.worker = .absent
  queue : s.guarded.queue = []

structure Launched (s : State β κ) : Prop where
  running : s.running = true
  draining : s.draining = false
  worker : s.worker = .absent
  queue : s.guarded.queue = []

structure Open (s : State β κ) : Prop where
  running : s.running = true
  draining : s.draining = false
  worker : s.worker.looping = true

/-- `DrainAndStop` waits for the worker, which is in its loop or has left it. -/
inductive Closing (s : State β κ) : Prop where
  | loop : s.running = true → s.draining = true →
      s.worker.looping = true ∨ s.worker = .readEmpty → Closing s
  | left : s.worker = .storeDraining → s.running = true → s.guarded.queue = [] → Closing s
  | undrained : s.worker = .storeRunning → s.draining = false → s.guarded.queue = [] → Closing s
  | finished : s.worker = .finished → s.running = false → s.draining = false →
      s.guarded.queue = [] → Closing s

inductive Phase where
  | stopped
  | launched
  | opened
  | closing

def Phase.Holds (s : State β κ) : Phase → Prop
  | .stopped => Stopped s
  | .launched => Launched s
  | .opened => Open s
  | .closing => Closing s

/-- The client is inside `Run` or `DrainAndStop`. -/
def Client.switching : Client β κ → Bool
  | .runExchange | .runDraining | .runSpawn | .drainRunning | .drainExchange | .drainJoin => true
  | _ => false

/-- The client passed the first test of `Enqueue`. -/
def Client.admitted : Client β κ → Bool
  | .enqueueDraining _ _ | .enqueueLock _ _ => true
  | _ => false

section

variable {o : Options} {s s' : State β κ} {thread : Nat} {now : Int} {ok : Bool}

theorem looping_endIteration (leaving : Option (FlushInfo β)) :
    (Worker.endIteration leaving : Worker β κ).looping = true := by
  cases leaving <;> rfl

theorem Open.client (opened : Open s) (taken : clientStep o s thread now = some s')
    (undrained : s.clients thread ≠ .drainExchange) : Open s' := by
  obtain ⟨running, draining, worker⟩ := opened
  cases position : s.clients thread with
  | drainExchange => exact absurd position undrained
  | _ =>
      simp only [clientStep, position] at taken
      repeat split at taken
      all_goals cases taken
      all_goals first
        | exact ⟨running, draining, worker⟩
        | exact ⟨rfl, draining, worker⟩
        | exact ⟨running, rfl, worker⟩
        | simp_all [Worker.looping]

/-- A worker in its loop stays there until it finds `draining_` set. -/
theorem looping_step (looping : s.worker.looping = true)
    (taken : workerStep o s now ok = some s') :
    s'.running = s.running ∧ s'.draining = s.draining ∧
      (s'.worker.looping = true ∨ s.draining = true ∧ s'.worker = .readEmpty) := by
  cases position : s.worker with
  | absent | readEmpty | storeDraining | storeRunning | finished =>
      simp [position, Worker.looping] at looping
  | readDraining =>
      simp only [workerStep, position, Option.some.injEq] at taken
      subst taken
      cases draining : s.draining <;> simp [Worker.looping]
  | runCompletion leaving =>
      simp only [workerStep, position] at taken
      split at taken <;> cases taken
      · cases s.guarded.flushCompletion with
        | none => exact ⟨rfl, rfl, .inl (looping_endIteration leaving)⟩
        | some completion => exact ⟨rfl, rfl, .inl rfl⟩
      · exact ⟨rfl, rfl, .inl (looping_endIteration leaving)⟩
  | startCompletion completion leaving =>
      simp only [workerStep, position, Option.some.injEq] at taken
      subst taken
      exact ⟨rfl, rfl, .inl (looping_endIteration leaving)⟩
  | retain record | decideFlush record =>
      simp only [workerStep, position, Option.some.injEq] at taken
      subst taken
      refine ⟨rfl, rfl, .inl ?_⟩
      simp only [emit_worker]
      split <;> rfl
  | _ =>
      simp only [workerStep, position] at taken
      repeat split at taken
      all_goals cases taken
      all_goals exact ⟨rfl, rfl, .inl rfl⟩

theorem Open.worker_step (opened : Open s) (taken : workerStep o s now ok = some s') : Open s' := by
  obtain ⟨running, draining, worker⟩ := opened
  obtain ⟨running', draining', stays | ⟨found, -⟩⟩ := looping_step worker taken
  · exact ⟨running'.trans running, draining'.trans draining, stays⟩
  · simp [draining] at found

/-- The worker of a closing queue leaves its loop only when nothing is left. -/
theorem Closing.worker_step (closing : Closing s) (counted : Counted s)
    (taken : workerStep o s now ok = some s') : Closing s' := by
  cases closing with
  | loop running draining worker =>
      rcases worker with looping | position
      · obtain ⟨running', draining', stays | ⟨-, found⟩⟩ := looping_step looping taken
        · exact .loop (running'.trans running) (draining'.trans draining) (.inl stays)
        · exact .loop (running'.trans running) (draining'.trans draining) (.inr found)
      · simp only [workerStep, position, Option.some.injEq] at taken
        subst taken
        cases empty : s.guarded.empty with
        | false => exact .loop running draining (.inl rfl)
        | true => exact .left (by simp) running (counted.exact.empty.mp empty).1
  | left position running queue =>
      simp only [workerStep, position, Option.some.injEq] at taken
      subst taken
      exact .undrained rfl rfl queue
  | undrained position draining queue =>
      simp only [workerStep, position, Option.some.injEq] at taken
      subst taken
      exact .finished rfl rfl draining queue
  | finished position => simp [workerStep, position] at taken

theorem Closing.join (closing : Closing s) (joins : s.clients thread = .drainJoin)
    (taken : clientStep o s thread now = some s') :
    Stopped s' ∧ s'.clients thread = .idle := by
  simp only [clientStep, joins] at taken
  cases closing with
  | loop _ _ worker =>
      split at taken
      · rename_i absent
        simp [absent, Worker.looping] at worker
      · rename_i finished
        simp [finished, Worker.looping] at worker
      · simp at taken
  | left position => simp [position] at taken
  | undrained position => simp [position] at taken
  | finished position running draining queue =>
      simp only [position, Option.some.injEq] at taken
      subst taken
      exact ⟨⟨running, draining, rfl, queue⟩, by simp⟩

theorem Open.exchange (opened : Open s) (exchanges : s.clients thread = .drainExchange)
    (taken : clientStep o s thread now = some s') :
    Closing s' ∧ s'.clients thread = .drainJoin := by
  obtain ⟨running, draining, worker⟩ := opened
  simp only [clientStep, exchanges, draining, Bool.false_eq_true, if_false,
    Option.some.injEq] at taken
  subst taken
  exact ⟨.loop running rfl (.inl worker), by simp⟩

theorem Stopped.exchange (stopped : Stopped s) (exchanges : s.clients thread = .runExchange)
    (taken : clientStep o s thread now = some s') :
    Launched s' ∧ s'.clients thread = .runDraining := by
  obtain ⟨running, draining, worker, queue⟩ := stopped
  simp only [clientStep, exchanges, running, Bool.false_eq_true, if_false,
    Option.some.injEq] at taken
  subst taken
  exact ⟨⟨rfl, draining, worker, queue⟩, by simp⟩

theorem Launched.drain (launched : Launched s) (drains : s.clients thread = .runDraining)
    (taken : clientStep o s thread now = some s') :
    Launched s' ∧ s'.clients thread = .runSpawn := by
  obtain ⟨running, draining, worker, queue⟩ := launched
  simp only [clientStep, drains, Option.some.injEq] at taken
  subst taken
  exact ⟨⟨running, rfl, worker, queue⟩, by simp⟩

theorem Launched.spawn (launched : Launched s) (spawns : s.clients thread = .runSpawn)
    (taken : clientStep o s thread now = some s') : Open s' ∧ s'.clients thread = .idle := by
  obtain ⟨running, draining, worker, queue⟩ := launched
  simp only [clientStep, spawns, worker, Option.some.injEq] at taken
  subst taken
  exact ⟨⟨running, draining, rfl⟩, by simp⟩

/-- A stopped queue admits nobody, and only `Run` starts it. -/
theorem Stopped.client (stopped : Stopped s) (taken : clientStep o s thread now = some s')
    (aside : (s.clients thread).switching = false)
    (refused : (s.clients thread).admitted = false) :
    Stopped s' ∧ (s'.clients thread).admitted = false := by
  obtain ⟨running, draining, worker, queue⟩ := stopped
  cases position : s.clients thread with
  | runExchange | runDraining | runSpawn | drainRunning | drainExchange | drainJoin =>
      simp [position, Client.switching] at aside
  | enqueueDraining | enqueueLock => simp [position, Client.admitted] at refused
  | _ =>
      simp only [clientStep, position] at taken
      repeat split at taken
      all_goals cases taken
      all_goals refine ⟨⟨?_, ?_, ?_, ?_⟩, ?_⟩
      all_goals simp_all [Client.admitted, Guarded.flush, Guarded.clear]

/-- A client that is not inside `Run` or `DrainAndStop` does not get there by a step
    of its own. -/
theorem switching_client (taken : clientStep o s thread now = some s')
    (aside : (s.clients thread).switching = false) :
    (s'.clients thread).switching = false := by
  cases position : s.clients thread with
  | runExchange | runDraining | runSpawn | drainRunning | drainExchange | drainJoin =>
      simp [position, Client.switching] at aside
  | _ =>
      simp only [clientStep, position] at taken
      repeat split at taken
      all_goals cases taken
      all_goals simp [Client.switching]

/-- The phase does not depend on the clients or the log. -/
theorem Phase.Holds.of_eq {phase : Phase} (holds : phase.Holds s) (guarded : s'.guarded = s.guarded)
    (running : s'.running = s.running) (draining : s'.draining = s.draining)
    (worker : s'.worker = s.worker) : phase.Holds s' := by
  cases phase with
  | stopped | launched =>
      obtain ⟨runs, drains, works, queue⟩ := holds
      exact ⟨running.trans runs, draining.trans drains, worker.trans works, guarded ▸ queue⟩
  | opened =>
      obtain ⟨runs, drains, works⟩ := holds
      exact ⟨running.trans runs, draining.trans drains, worker ▸ works⟩
  | closing =>
      cases holds with
      | loop runs drains works =>
          exact .loop (running.trans runs) (draining.trans drains) (worker ▸ works)
      | left works runs queue =>
          exact .left (worker.trans works) (running.trans runs) (guarded ▸ queue)
      | undrained works drains queue =>
          exact .undrained (worker.trans works) (draining.trans drains) (guarded ▸ queue)
      | finished works runs drains queue =>
          exact .finished (worker.trans works) (running.trans runs) (draining.trans drains)
            (guarded ▸ queue)

theorem Phase.Holds.worker_step {phase : Phase} (holds : phase.Holds s) (counted : Counted s)
    (taken : workerStep o s now ok = some s') : phase.Holds s' := by
  cases phase with
  | stopped | launched =>
      have absent : s.worker = .absent := holds.worker
      simp [workerStep, absent] at taken
  | opened => exact Open.worker_step holds taken
  | closing => exact Closing.worker_step holds counted taken

/-- No client moves a worker that is back at the start of its loop. -/
theorem readDraining_client (taken : clientStep o s thread now = some s')
    (worker : s.worker = .readDraining) : s'.worker = .readDraining := by
  cases position : s.clients thread with
  | runSpawn | drainJoin => simp [clientStep, position, worker] at taken
  | _ =>
      simp only [clientStep, position] at taken
      repeat split at taken
      all_goals cases taken
      all_goals exact worker

/-- A worker that destroys a record starts its loop anew. -/
theorem destroyed_step (taken : workerStep o s now ok = some s')
    (destroys : s.worker.destroyed ≠ []) : s'.worker = .readDraining := by
  cases position : s.worker with
  | destroy leaving =>
      simp only [workerStep, position, Option.some.injEq] at taken
      subst taken
      rfl
  | _ => simp [position, Worker.destroyed] at destroys

end

end Spoor.FlushQueue.DiskFlushQueue
