import Spoor.FlushQueue.CircularMode
import Spoor.FlushQueue.Retries

/-! # How long draining takes

`DrainAndStop` joins the worker, so it comes back when the worker has left its
loop.  The attempts left at the pending records bound the steps of a worker that
finds `draining_` set, whatever the clients do in the meantime.  In circular mode
this needs a clock that has gone past the retention of every record that the
worker tests; until then the worker turns the records over.
-/

namespace Spoor.FlushQueue.DiskFlushQueue

open Lib.MachineInteger Lib.Transition

variable {β κ : Type}

def Worker.active : Worker β κ → Bool
  | .absent | .finished => false
  | _ => true

/-- The client has set `running_` and not started the worker yet. -/
def Client.starting : Client β κ → Bool
  | .runDraining | .runSpawn => true
  | _ => false

def Action.isWorker : Action β κ → Bool
  | .worker _ _ => true
  | _ => false

def Event.isEnqueued : Event β κ → Bool
  | .enqueued _ _ => true
  | _ => false

/-- The number of records that were ever appended by `Enqueue`. -/
def State.appended (s : State β κ) : Nat := s.log.countP Event.isEnqueued

/-- The number of times the loop still writes a record that always fails. -/
def FlushInfo.attemptsLeft (record : FlushInfo β) : Nat :=
  max 1 record.remainingFlushAttempts.toNat

def Guarded.attemptsLeft (g : Guarded β κ) : Nat := (g.queue.map FlushInfo.attemptsLeft).sum

/-- The attempts left at the records in the system. -/
def State.attemptsLeft (s : State β κ) : Nat :=
  s.guarded.attemptsLeft + (s.worker.held.toList.map FlushInfo.attemptsLeft).sum

/-- `Run` does not find the queue stopped. -/
def NotRestarted (s : State β κ) (a : Action β κ) : Prop :=
  ∀ thread now, a = .client thread now → s.clients thread = .runExchange → s.running = true

/-- In circular mode the record that the worker tests is past its retention. -/
def TestsExpired (o : Options) (s : State β κ) (a : Action β κ) : Prop :=
  ∀ now ok record, a = .worker now ok → s.worker = .retain record → o.flushAllEvents = false →
    retained o record now = false

/-! ## Only one thread starts the worker -/

/-- A worker comes from the one `Run` that has set `running_`. -/
structure StartedOnce (s : State β κ) : Prop where
  alone : ∀ thread other, (s.clients thread).starting = true →
    (s.clients other).starting = true → thread = other
  stopped : s.running = false → ∀ thread, (s.clients thread).starting = false
  working : s.worker.active = true →
    s.running = true ∧ ∀ thread, (s.clients thread).starting = false

theorem StartedOnce.initial : StartedOnce (initial : State β κ) := by
  constructor <;> simp [DiskFlushQueue.initial, Client.starting, Worker.active]

section

variable {o : Options} {s s' : State β κ} {thread : Nat} {now : Int} {ok : Bool}

/-- A step moves a client to a place outside `Run`. -/
theorem StartedOnce.aside (once : StartedOnce s) {position : Client β κ}
    (clients : s'.clients = Function.update s.clients thread position)
    (outside : position.starting = false) (running : s'.running = s.running)
    (worker : s'.worker.active = true → s.worker.active = true) : StartedOnce s' := by
  have before : ∀ other, (s'.clients other).starting = true →
      (s.clients other).starting = true := by
    intro other starts
    by_cases same : other = thread
    · subst same
      simp [clients, outside] at starts
    · simpa [clients, same] using starts
  constructor
  · exact fun first second one two => once.alone first second (before first one) (before second two)
  · intro stopped other
    by_contra starts
    have none := once.stopped (running ▸ stopped) other
    simp [before other (by simpa using starts)] at none
  · intro active
    obtain ⟨runs, none⟩ := once.working (worker active)
    refine ⟨running.trans runs, fun other => ?_⟩
    by_contra starts
    have outsideOther := none other
    simp [before other (by simpa using starts)] at outsideOther

theorem StartedOnce.client (once : StartedOnce s)
    (taken : clientStep o s thread now = some s') : StartedOnce s' := by
  cases position : s.clients thread with
  | idle => simp [clientStep, position] at taken
  | runExchange =>
      simp only [clientStep, position] at taken
      split at taken <;> cases taken
      · exact once.aside rfl rfl rfl id
      · rename_i stopped
        have none := once.stopped (by simpa using stopped)
        have inactive : s.worker.active = false := by
          by_contra active
          exact stopped (once.working (by simpa using active)).1
        have only : ∀ other, ((s.goto thread .runDraining).clients other).starting = true →
            other = thread := by
          intro other starts
          by_contra different
          simp [different, none other] at starts
        exact ⟨fun first second one two => (only first one).trans (only second two).symm,
          fun stopped => by simp at stopped, fun active => by simp [inactive] at active⟩
  | runDraining =>
      simp only [clientStep, position, Option.some.injEq] at taken
      subst taken
      have starts : (s.clients thread).starting = true := by rw [position]; rfl
      have before : ∀ other, ((s.goto thread .runSpawn).clients other).starting = true →
          (s.clients other).starting = true := by
        intro other starting
        by_cases same : other = thread
        · exact same ▸ starts
        · simpa [same] using starting
      constructor
      · exact fun first second one two =>
          once.alone first second (before first one) (before second two)
      · intro stopped
        have none := once.stopped stopped thread
        simp [starts] at none
      · intro active
        have none := (once.working active).2 thread
        simp [starts] at none
  | runSpawn =>
      simp only [clientStep, position] at taken
      split at taken <;> cases taken
      have starts : (s.clients thread).starting = true := by rw [position]; rfl
      have none : ∀ other, ((s.goto thread .idle).clients other).starting = false := by
        intro other
        by_cases same : other = thread
        · simp [same, Client.starting]
        · by_contra starting
          exact same (once.alone other thread (by simpa [same] using starting) starts)
      have runs : s.running = true := by
        by_contra stopped
        have outside := once.stopped (by simpa using stopped) thread
        simp [starts] at outside
      exact ⟨fun first second one => Bool.noConfusion ((none first).symm.trans one),
        fun stopped => none, fun active => ⟨runs, none⟩⟩
  | drainJoin =>
      simp only [clientStep, position] at taken
      split at taken <;> cases taken
      · exact once.aside rfl rfl rfl id
      · exact once.aside rfl rfl rfl (by simp [Worker.active])
  | _ =>
      simp only [clientStep, position] at taken
      repeat split at taken
      all_goals cases taken
      all_goals exact once.aside rfl rfl rfl id

theorem active_of_worker (taken : workerStep o s now ok = some s') : s.worker.active = true := by
  cases position : s.worker with
  | absent | finished => simp [workerStep, position] at taken
  | _ => rfl

theorem StartedOnce.worker (once : StartedOnce s)
    (taken : workerStep o s now ok = some s') : StartedOnce s' := by
  obtain ⟨runs, none⟩ := once.working (active_of_worker taken)
  have none' : ∀ thread, (s'.clients thread).starting = false := by
    rw [worker_clients taken]
    exact none
  refine ⟨fun first second one => by simp [none' first] at one, fun _ => none', fun active => ?_⟩
  refine ⟨?_, none'⟩
  by_cases exited : s.worker.exited = true
  · cases position : s.worker with
    | storeDraining =>
        simp only [workerStep, position, Option.some.injEq] at taken
        subst taken
        exact runs
    | storeRunning =>
        simp only [workerStep, position, Option.some.injEq] at taken
        subst taken
        simp [Worker.active] at active
    | finished => simp [workerStep, position] at taken
    | _ => simp [position, Worker.exited] at exited
  · exact (worker_running (by simpa using exited) taken).trans runs

theorem StartedOnce.step {a : Action β κ} (once : StartedOnce s)
    (taken : step o s a = some s') : StartedOnce s' := by
  cases a with
  | call thread method =>
      obtain ⟨-, events, rfl, -⟩ := call_entry taken
      exact once.aside rfl (by cases method <;> rfl) rfl id
  | client thread now => exact once.client taken
  | worker now ok => exact once.worker taken

theorem run_startedOnce {labels : List (Action β κ)}
    (reached : exec (step o) initial labels = some s) : StartedOnce s :=
  invariant_always StartedOnce StartedOnce.initial (fun _ _ _ once taken => once.step taken) reached

/-- While the worker is there and nobody restarts the queue, nobody gets into `Run`. -/
theorem starting_step {a : Action β κ} (none : ∀ thread, (s.clients thread).starting = false)
    (stays : NotRestarted s a) (taken : step o s a = some s') (other : Nat) :
    (s'.clients other).starting = false := by
  cases a with
  | call thread method =>
      obtain ⟨-, events, rfl, -⟩ := call_entry taken
      by_cases same : other = thread
      · subst same
        cases method <;> simp [Call.entry, Client.starting]
      · simpa [same] using none other
  | worker now ok =>
      rw [worker_clients taken]
      exact none other
  | client thread now =>
      by_cases same : other = thread
      · subst same
        have outside := none other
        cases position : s.clients other with
        | runExchange =>
            have runs := stays other now rfl position
            simp only [step, clientStep, position, runs, if_true, Option.some.injEq] at taken
            subst taken
            simp [Client.starting]
        | runDraining | runSpawn => simp [position, Client.starting] at outside
        | _ =>
            simp only [step, clientStep, position] at taken
            repeat split at taken
            all_goals cases taken
            all_goals simp [Client.starting]
      · rw [client_others taken same]
        exact none other

end

/-! ## The attempts that records carry -/

/-- The number does not wrap when the worker takes one off. -/
def FlushInfo.Countable (record : FlushInfo β) : Prop :=
  -2 ^ 31 < record.remainingFlushAttempts ∧ record.remainingFlushAttempts < 2 ^ 31

/-- No record in the system carries a number of attempts that wraps. -/
structure AllCountable (s : State β κ) : Prop where
  queued : ∀ record ∈ s.guarded.queue, record.Countable
  held : ∀ record, s.worker.held = some record → s.worker.verdict = none → record.Countable
  settling : ∀ record ok, s.worker.verdict = some (record, some ok) →
    record.remainingFlushAttempts < 2 ^ 31

theorem AllCountable.initial : AllCountable (initial : State β κ) := by
  constructor <;> simp [DiskFlushQueue.initial, Worker.held, Worker.verdict]

section

variable {o : Options} {s s' : State β κ} {a : Action β κ}

theorem AllCountable.carry (countable : AllCountable s)
    (queue : ∀ record ∈ s'.guarded.queue, record ∈ s.guarded.queue)
    (load : s'.worker.load = s.worker.load) : AllCountable s' := by
  have held : s'.worker.held = s.worker.held := congrArg Load.held load
  have verdict : s'.worker.verdict = s.worker.verdict := congrArg Load.verdict load
  constructor
  · exact fun record member => countable.queued record (queue record member)
  · rw [held, verdict]
    exact countable.held
  · rw [verdict]
    exact countable.settling

theorem AllCountable.released (queued : ∀ record ∈ s'.guarded.queue, record.Countable)
    (held : s'.worker.held = none) (verdict : s'.worker.verdict = none) : AllCountable s' :=
  ⟨queued, by simp [held], by simp [verdict]⟩

theorem AllCountable.step (countable : AllCountable s) (low : -2 ^ 31 < o.maxBufferFlushAttempts)
    (high : o.maxBufferFlushAttempts < 2 ^ 31) (taken : step o s a = some s') :
    AllCountable s' := by
  cases step_effect taken with
  | silent events guarded load => exact countable.carry (by simp [guarded]) load
  | bypass callback guarded worker => exact countable.carry (by simp [guarded]) (by rw [worker])
  | enqueue thread buffer flushTimestamp record _ built _ guarded worker =>
      refine ⟨?_, worker ▸ countable.held, worker ▸ countable.settling⟩
      intro other member
      rw [guarded, Guarded.enqueue, List.mem_append, List.mem_singleton] at member
      rcases member with earlier | rfl
      · exact countable.queued other earlier
      · rw [built]
        exact ⟨low, high⟩
  | flush completion now _ guarded worker =>
      exact countable.carry (by simp [guarded, Guarded.flush]) (by rw [worker])
  | clear _ guarded worker =>
      exact countable.carry (by simp [guarded, Guarded.clear]) (by rw [worker])
  | pop record rest _ front guarded worker =>
      have first := countable.queued record (by simp [front])
      refine ⟨?_, ?_, by simp [worker, Worker.verdict]⟩
      · intro other member
        rw [guarded] at member
        exact countable.queued other (by rw [front]; exact List.mem_cons_of_mem _ member)
      · intro other held _
        obtain rfl : record = other := by simpa [worker, Worker.held] using held
        exact first
  | test record now position guarded worker =>
      refine ⟨by rw [guarded]; exact countable.queued, ?_, ?_⟩
      · intro other held _
        refine countable.held other ?_ (by rw [position]; rfl)
        rcases worker with after | ⟨after, -⟩ <;> simpa [after, position, Worker.held] using held
      · intro other ok verdict
        rcases worker with after | ⟨after, -⟩ <;> simp [after, Worker.verdict] at verdict
  | discard record position guarded worker =>
      exact .released (by rw [guarded]; exact countable.queued) (by rw [worker]; rfl)
        (by rw [worker]; rfl)
  | write record ok position guarded worker =>
      have first := countable.held record (by rw [position]; rfl) (by rw [position]; rfl)
      refine ⟨by rw [guarded]; exact countable.queued, by simp [worker, Worker.verdict], ?_⟩
      intro other answer verdict
      simp only [worker, Worker.verdict, Option.some.injEq, Prod.mk.injEq] at verdict
      rw [← verdict.1]
      simp only [decInt32_of_range first.1 first.2]
      have small := first.2
      omega
  | requeue record position _ guarded =>
      have unheld : s'.worker.held = none ∧ s'.worker.verdict = none := by
        rcases position with ⟨-, after⟩ | ⟨-, -, after⟩ <;> rw [after] <;> exact ⟨rfl, rfl⟩
      refine .released ?_ unheld.1 unheld.2
      intro other member
      rw [guarded, Guarded.emplaceBack, List.mem_append, List.mem_singleton] at member
      rcases member with earlier | rfl
      · exact countable.queued other earlier
      · rcases position with ⟨before, -⟩ | ⟨before, left, -⟩
        · exact countable.held other (by rw [before]; rfl) (by rw [before]; rfl)
        · exact ⟨by omega, countable.settling other false (by rw [before]; rfl)⟩
  | finish record ok position _ guarded worker =>
      exact .released (by rw [guarded]; exact countable.queued) (by rw [worker]; rfl)
        (by rw [worker]; rfl)
  | take completion leaving position _ _ guarded worker =>
      exact .released (by rw [guarded]; exact countable.queued) (by rw [worker]; rfl)
        (by rw [worker]; rfl)
  | start completion leaving position guarded worker =>
      exact .released (by rw [guarded]; exact countable.queued)
        (by rw [worker, held_endIteration]) (by rw [worker, verdict_endIteration])

theorem run_allCountable {labels : List (Action β κ)} (low : -2 ^ 31 < o.maxBufferFlushAttempts)
    (high : o.maxBufferFlushAttempts < 2 ^ 31)
    (reached : exec (DiskFlushQueue.step o) initial labels = some s) : AllCountable s :=
  invariant_always AllCountable AllCountable.initial
    (fun _ _ _ countable taken => countable.step low high taken) reached

end

/-! ## A worker that drains comes to its end -/

/-- The worker's steps to the end of its loop, apart from those for the records in the
    deque: an upper bound, for a queue that is draining. -/
def State.distance (o : Options) (s : State β κ) : Nat :=
  match s.worker with
  | .absent | .finished => 0
  | .storeRunning => 1
  | .storeDraining => 2
  | .readEmpty => 6
  | .readDraining => 7
  | .destroy _ => 8
  | .startCompletion _ _ => 9
  | .runCompletion _ => 10
  | .pop => if s.guarded.queue = [] then 11 else 5
  | .write record => 2 + 10 * record.attemptsLeft
  | .discard record => 3 + 10 * record.attemptsLeft
  | .retain record => 4 + 10 * record.attemptsLeft
  | .requeue record => 8 + 10 * record.attemptsLeft
  | .decideFlush record => (if o.flushAllEvents then 3 else 9) + 10 * record.attemptsLeft
  | .settle record _ => 11 + 10 * record.remainingFlushAttempts.toNat

/-- Each attempt at a record takes at most ten steps. -/
def State.rank (o : Options) (s : State β κ) : Nat :=
  s.distance o + 10 * s.guarded.attemptsLeft

/-- What makes every step of the worker go down in rank. -/
structure Emptying (s : State β κ) : Prop where
  counted : Counted s
  countable : AllCountable s
  started : ∀ thread, (s.clients thread).starting = false
  drains : s.worker.active = true → s.worker.exited = false → s.draining = true

/-- The conditions under which the worker keeps emptying the queue. -/
def Empties (o : Options) (s : State β κ) (a : Action β κ) : Prop :=
  ClearsUnheld s a ∧ NotRestarted s a ∧ TestsExpired o s a

section

variable {o : Options} {s s' : State β κ} {thread : Nat} {now : Int} {ok : Bool}

theorem attemptsLeft_append (queue : List (FlushInfo β)) (record : FlushInfo β) :
    ((queue ++ [record]).map FlushInfo.attemptsLeft).sum =
      (queue.map FlushInfo.attemptsLeft).sum + record.attemptsLeft := by
  simp

theorem attemptsLeft_pos (record : FlushInfo β) : 0 < record.attemptsLeft := by
  simp [FlushInfo.attemptsLeft]

theorem attemptsLeft_guarded_pos {g : Guarded β κ} (some : g.queue ≠ []) :
    0 < g.attemptsLeft := by
  obtain ⟨record, rest, front⟩ := List.exists_cons_of_ne_nil some
  have pos := attemptsLeft_pos record
  simp only [Guarded.attemptsLeft, front, List.map_cons, List.sum_cons]
  omega

/-- An attempt costs one of the attempts left. -/
theorem attemptsLeft_write {record : FlushInfo β} (countable : record.Countable) :
    10 * (decInt32 record.remainingFlushAttempts).toNat + 10 ≤ 10 * record.attemptsLeft := by
  rw [decInt32_of_range countable.1 countable.2, FlushInfo.attemptsLeft]
  omega

theorem rank_endIteration {leaving : Option (FlushInfo β)}
    (worker : s'.worker = .endIteration leaving) (queue : s'.guarded.queue = s.guarded.queue)
    (far : 9 ≤ s.distance o) : s'.rank o + 1 ≤ s.rank o := by
  have close : s'.distance o ≤ 8 := by
    cases leaving <;> simp [State.distance, worker, Worker.endIteration]
  simp only [State.rank, Guarded.attemptsLeft, queue]
  omega

/-- Each step of the worker goes down in rank. -/
theorem worker_rank (emptying : Emptying s) (expired : TestsExpired o s (.worker now ok))
    (taken : workerStep o s now ok = some s') : s'.rank o + 1 ≤ s.rank o := by
  have active := active_of_worker taken
  cases position : s.worker with
  | absent | finished => simp [position, Worker.active] at active
  | readDraining =>
      have drains := emptying.drains active (by rw [position]; rfl)
      simp only [workerStep, position, drains, if_true, Option.some.injEq] at taken
      subst taken
      simp only [State.rank, State.distance, position]
      omega
  | readEmpty =>
      simp only [workerStep, position, Option.some.injEq] at taken
      subst taken
      by_cases empty : s.guarded.empty = true
      · simp only [State.rank, State.distance, position, empty, if_true]
        omega
      · have some : s.guarded.queue ≠ [] := by
          intro none
          exact empty (emptying.counted.exact.empty.mpr ⟨none, by rw [position]; rfl⟩)
        simp only [State.rank, State.distance, position, empty, Bool.false_eq_true, if_false, some]
        omega
  | pop =>
      simp only [workerStep, position] at taken
      split at taken <;> cases taken
      · rename_i none
        simp only [State.rank, State.distance, position, none, if_true]
        omega
      · rename_i record rest front
        simp only [State.rank, State.distance, position, front, Guarded.attemptsLeft,
          List.map_cons, List.sum_cons, reduceCtorEq, if_false]
        omega
  | retain record =>
      simp only [workerStep, position, Option.some.injEq] at taken
      subst taken
      cases all : o.flushAllEvents with
      | true =>
          simp only [State.rank, State.distance, position, all, emit_worker, emit_guarded,
            Bool.not_true, Bool.false_and, Bool.false_eq_true, if_false, if_true]
          omega
      | false =>
          have past := expired now ok record rfl position all
          simp only [State.rank, State.distance, position, past, emit_worker, emit_guarded,
            Bool.not_false, Bool.true_and, if_true]
          omega
  | discard record =>
      simp only [workerStep, position, Option.some.injEq] at taken
      subst taken
      have pos := attemptsLeft_pos record
      simp only [State.rank, State.distance, position, emit_worker, emit_guarded,
        Guarded.attemptsLeft, Guarded.leave]
      omega
  | decideFlush record =>
      simp only [workerStep, position, Option.some.injEq] at taken
      subst taken
      cases all : o.flushAllEvents with
      | true =>
          simp only [State.rank, State.distance, position, all, Bool.true_or, if_true]
          omega
      | false =>
          by_cases due : record.flushTimestamp ≤ s.guarded.flushTimestamp
          · simp only [State.rank, State.distance, position, all, due, decide_true, Bool.or_true,
              if_true, Bool.false_eq_true, if_false]
            omega
          · simp only [State.rank, State.distance, position, all, due, decide_false, Bool.or_false,
              Bool.false_eq_true, if_false]
            omega
  | requeue record =>
      simp only [workerStep, position] at taken
      split at taken <;> cases taken
      simp only [State.rank, State.distance, position, Guarded.attemptsLeft, Guarded.emplaceBack,
        attemptsLeft_append]
      omega
  | write record =>
      simp only [workerStep, position, Option.some.injEq] at taken
      subst taken
      have cost := attemptsLeft_write
        (emptying.countable.held record (by rw [position]; rfl) (by rw [position]; rfl))
      simp only [State.rank, State.distance, position, emit_worker, emit_guarded]
      omega
  | settle record written =>
      simp only [workerStep, position] at taken
      split at taken
      · rename_i again
        obtain ⟨-, left⟩ : written = false ∧ 0 < record.remainingFlushAttempts := by
          simpa using again
        split at taken <;> cases taken
        simp only [State.rank, State.distance, position, Guarded.attemptsLeft,
          Guarded.emplaceBack, attemptsLeft_append]
        rw [FlushInfo.attemptsLeft]
        omega
      · cases taken
        simp only [State.rank, State.distance, position, emit_worker, emit_guarded,
          Guarded.attemptsLeft, Guarded.leave]
        omega
  | runCompletion leaving =>
      simp only [workerStep, position] at taken
      split at taken <;> cases taken
      · cases slot : s.guarded.flushCompletion with
        | none => exact rank_endIteration rfl rfl (by simp [State.distance, position])
        | some completion =>
            simp only [State.rank, State.distance, position, Guarded.attemptsLeft]
            omega
      · exact rank_endIteration rfl rfl (by simp [State.distance, position])
  | startCompletion completion leaving =>
      simp only [workerStep, position, Option.some.injEq] at taken
      subst taken
      exact rank_endIteration rfl rfl (by simp [State.distance, position])
  | destroy | storeDraining | storeRunning =>
      simp only [workerStep, position, Option.some.injEq] at taken
      subst taken
      simp only [State.rank, State.distance, position]
      omega

theorem rank_congr (queue : s'.guarded.queue = s.guarded.queue) (worker : s'.worker = s.worker) :
    s'.rank o = s.rank o := by
  simp only [State.rank, State.distance, Guarded.attemptsLeft, queue, worker]

theorem distance_le {slack : Nat} (worker : s'.worker = s.worker)
    (pops : (if s'.guarded.queue = [] then 11 else 5) ≤
      (if s.guarded.queue = [] then 11 else 5) + slack) :
    s'.distance o ≤ s.distance o + slack := by
  simp only [State.distance, worker]
  cases s.worker <;> simp only <;> omega

/-- A client raises the rank only by appending a record, for which there is credit. -/
theorem client_rank (unstarted : (s.clients thread).starting = false)
    (taken : clientStep o s thread now = some s') :
    s'.rank o ≤ s.rank o ∨
      s'.rank o ≤ s.rank o + 10 * o.allowedAttempts ∧ s'.appended = s.appended + 1 := by
  cases position : s.clients thread with
  | idle => simp [clientStep, position] at taken
  | runDraining | runSpawn => simp [position, Client.starting] at unstarted
  | enqueueLock buffer flushTimestamp =>
      simp only [clientStep, position] at taken
      split at taken <;> cases taken
      refine .inr ⟨?_, by simp [State.appended, Event.isEnqueued]⟩
      have attempts : (s.guarded.record o thread buffer flushTimestamp).attemptsLeft =
          o.allowedAttempts := rfl
      have close := @distance_le _ _ o s (({ s with
        guarded := s.guarded.enqueue (s.guarded.record o thread buffer flushTimestamp) }.goto
          thread .idle).emit [.enqueued thread
            (s.guarded.record o thread buffer flushTimestamp)]) 0 rfl (by
        simp only [emit_guarded, goto_guarded, Guarded.enqueue, List.append_eq_nil_iff,
          List.cons_ne_nil, and_false, if_false]
        split <;> omega)
      simp only [State.rank, Guarded.attemptsLeft, emit_guarded, goto_guarded, Guarded.enqueue,
        attemptsLeft_append, attempts] at close ⊢
      omega
  | clearLock =>
      simp only [clientStep, position, Option.some.injEq] at taken
      subst taken
      refine .inl ?_
      by_cases none : s.guarded.queue = []
      · exact Nat.le_of_eq (rank_congr none.symm rfl)
      · have pos := attemptsLeft_guarded_pos none
        have close := @distance_le _ _ o s (({ s with guarded := s.guarded.clear }.goto thread
          (.clearDestroy s.guarded.queue)).emit [.cleared (s.guarded.queue.map FlushInfo.id)])
          6 rfl (by simp [none, Guarded.clear])
        simp only [State.rank, Guarded.attemptsLeft, emit_guarded, goto_guarded, Guarded.clear,
          List.map_nil, List.sum_nil] at pos close ⊢
        omega
  | drainJoin =>
      simp only [clientStep, position] at taken
      split at taken <;> cases taken
      · exact .inl (Nat.le_of_eq (rank_congr rfl rfl))
      · refine .inl ?_
        simp only [State.rank, State.distance]
        simp
  | _ =>
      simp only [clientStep, position] at taken
      repeat split at taken
      all_goals cases taken
      all_goals exact .inl (Nat.le_of_eq (rank_congr rfl rfl))

/-- What a client does leaves the worker draining. -/
theorem Emptying.client_drains (emptying : Emptying s) (taken : clientStep o s thread now = some s')
    (active : s'.worker.active = true) (inside : s'.worker.exited = false) :
    s'.draining = true := by
  have unstarted := emptying.started thread
  cases position : s.clients thread with
  | idle => simp [clientStep, position] at taken
  | runDraining | runSpawn => simp [position, Client.starting] at unstarted
  | drainExchange =>
      simp only [clientStep, position] at taken
      split at taken <;> cases taken
      · exact emptying.drains active inside
      · rfl
  | drainJoin =>
      simp only [clientStep, position] at taken
      split at taken <;> cases taken
      · exact emptying.drains active inside
      · simp [Worker.active] at active
  | _ =>
      simp only [clientStep, position] at taken
      repeat split at taken
      all_goals cases taken
      all_goals exact emptying.drains active inside

/-- A worker in its loop leaves `draining_` alone. -/
theorem worker_draining (inside : s'.worker.exited = false)
    (taken : workerStep o s now ok = some s') :
    s.worker.exited = false ∧ s'.draining = s.draining := by
  cases position : s.worker with
  | storeDraining | storeRunning =>
      simp only [workerStep, position, Option.some.injEq] at taken
      subst taken
      simp [Worker.exited] at inside
  | finished => simp [workerStep, position] at taken
  | _ =>
      refine ⟨rfl, ?_⟩
      simp only [workerStep, position] at taken
      repeat split at taken
      all_goals cases taken
      all_goals rfl

theorem Emptying.step (emptying : Emptying s) (low : -2 ^ 31 < o.maxBufferFlushAttempts)
    (high : o.maxBufferFlushAttempts < 2 ^ 31) {a : Action β κ} (empties : Empties o s a)
    (taken : step o s a = some s') :
    Emptying s' ∧ s'.rank o + (if a.isWorker then 1 else 0) + 10 * o.allowedAttempts * s.appended ≤
      s.rank o + 10 * o.allowedAttempts * s'.appended := by
  obtain ⟨clears, stays, expired⟩ := empties
  have counted := step_counted emptying.counted clears taken
  have countable := emptying.countable.step low high taken
  have started := starting_step emptying.started stays taken
  have more : s.appended ≤ s'.appended := by
    obtain ⟨events, log⟩ := step_log taken
    rw [State.appended, State.appended, log, List.countP_append]
    omega
  have credit := Nat.mul_le_mul_left (10 * o.allowedAttempts) more
  cases a with
  | call thread method =>
      obtain ⟨-, events, rfl, -⟩ := call_entry taken
      refine ⟨⟨counted, countable, started, emptying.drains⟩, ?_⟩
      have same : ((s.goto thread method.entry).emit events).rank o = s.rank o := rank_congr rfl rfl
      simp only [Action.isWorker, Bool.false_eq_true, if_false]
      omega
  | client thread now =>
      refine ⟨⟨counted, countable, started, emptying.client_drains taken⟩, ?_⟩
      simp only [Action.isWorker, Bool.false_eq_true, if_false]
      rcases client_rank (emptying.started thread) taken with lower | ⟨higher, one⟩
      · omega
      · rw [one, Nat.mul_succ]
        omega
  | worker now ok =>
      have lower := worker_rank emptying expired taken
      refine ⟨⟨counted, countable, started, fun active inside => ?_⟩, ?_⟩
      · obtain ⟨inLoop, draining⟩ := worker_draining inside taken
        exact draining.trans (emptying.drains (active_of_worker taken) inLoop)
      · simp only [Action.isWorker, if_true]
        omega

theorem rank_le (s : State β κ) : s.rank o ≤ 11 + 10 * s.attemptsLeft := by
  simp only [State.rank, State.distance, State.attemptsLeft]
  cases s.worker <;> simp only [Worker.held, Option.toList_some, Option.toList_none, List.map_cons,
    List.map_nil, List.sum_cons, List.sum_nil]
  all_goals
    repeat split
    all_goals try rw [FlushInfo.attemptsLeft]
    all_goals omega

theorem active_of_rank (active : s.worker.active = true) : 0 < s.rank o := by
  simp only [State.rank, State.distance]
  cases worker : s.worker <;> simp only [worker, Worker.active, Bool.false_eq_true] at active ⊢
  all_goals
    repeat split
    all_goals omega

/-- The worker can always take a step until it has finished. -/
theorem worker_enabled (active : s.worker.active = true)
    (room : s.guarded.queue.length < dequeMaxSize) : (workerStep o s now ok).isSome = true := by
  cases position : s.worker with
  | absent | finished => simp [position, Worker.active] at active
  | pop => cases front : s.guarded.queue <;> simp [workerStep, position, front]
  | requeue record => simp [workerStep, position, room]
  | settle record written =>
      simp only [workerStep, position, room, if_true]
      split <;> rfl
  | runCompletion leaving =>
      simp only [workerStep, position]
      split <;> rfl
  | _ => simp [workerStep, position]

/-- After `DrainAndStop` has set `draining_`, the worker has taken at most ten
    steps for each attempt left, and eleven more, when it has finished.  Until then it
    can always take the next one.  This holds whatever the clients do, as long as
    nobody starts the queue again and `Clear` does not disturb the counter; in
    circular mode the records must have expired. -/
theorem drain_finishes (o : Options) (low : -2 ^ 31 < o.maxBufferFlushAttempts)
    (high : o.maxBufferFlushAttempts < 2 ^ 31) (before after : List (Action β κ))
    (s s' : State β κ) (reached : exec (step o) initial before = some s)
    (continues : exec (step o) s after = some s') (active : s.worker.active = true)
    (draining : s.draining = true)
    (clears : Meets (step o) ClearsUnheld initial (before ++ after))
    (stays : Meets (step o) NotRestarted s after)
    (expired : Meets (step o) (TestsExpired o) s after) :
    after.countP Action.isWorker ≤
        11 + 10 * (s.attemptsLeft + o.allowedAttempts * (s'.appended - s.appended)) ∧
      (s'.worker.active = true →
        after.countP Action.isWorker <
            11 + 10 * (s.attemptsLeft + o.allowedAttempts * (s'.appended - s.appended)) ∧
          (s'.guarded.queue.length < dequeMaxSize →
            ∀ now ok, (workerStep o s' now ok).isSome = true)) := by
  have emptying : Emptying s :=
    ⟨run_counted clears.take reached, run_allCountable low high reached,
      ((run_startedOnce reached).working active).2, fun _ _ => draining⟩
  have later : Meets (step o) ClearsUnheld s after := by
    intro earlier a rest t split taken
    exact clears (before ++ earlier) a rest t (by simp [split])
      (by rw [exec_append, reached]; exact taken)
  obtain ⟨-, spent⟩ := countP_le_rank (Empties o) Action.isWorker Emptying (State.rank o)
    (fun t => 10 * o.allowedAttempts * t.appended) emptying
    (fun t a u emptying empties taken => emptying.step low high empties taken)
    (later.and (stays.and expired)) continues
  have bound := @rank_le _ _ o s
  have credit : 10 * o.allowedAttempts * s'.appended ≤ 10 * o.allowedAttempts * s.appended +
      10 * (o.allowedAttempts * (s'.appended - s.appended)) := by
    rw [← Nat.mul_assoc, ← Nat.mul_add]
    exact Nat.mul_le_mul_left _ (by omega)
  refine ⟨by omega, fun active' => ⟨?_, fun room _ _ => worker_enabled active' room⟩⟩
  have pos := @active_of_rank _ _ o _ active'
  omega

end

/-- One record is enqueued, and a client calls `DrainAndStop` up to the join. -/
def enqueueAndDrain : List (Action Unit Unit) :=
  runAndEnqueue ++ .call 0 .drainAndStop :: List.replicate 2 (Action.client 0 1)

theorem notRestarted_of_workers {o : Options} {s : State β κ} {labels : List (Action β κ)}
    (workers : ∀ a ∈ labels, ∃ now ok, a = .worker now ok) :
    Meets (step o) NotRestarted s labels := by
  intro earlier a later t split _ thread now same
  obtain ⟨_, _, works⟩ := workers a (by simp [split])
  cases same.symm.trans works

/-- The worker writes the record and leaves its loop in thirteen steps. -/
theorem drain_finishes_enqueueAndDrain :
    ∃ s s', exec (step logEverything) initial enqueueAndDrain = some s ∧
      exec (step logEverything) s (List.replicate 13 (Action.worker 1 true)) = some s' ∧
      s'.worker = .finished ∧
      (List.replicate 13 (Action.worker 1 true) : List (Action Unit Unit)).countP
          Action.isWorker ≤
        11 + 10 * (s.attemptsLeft + logEverything.allowedAttempts * (s'.appended - s.appended)) ∧
      (s'.worker.active = true →
        (List.replicate 13 (Action.worker 1 true) : List (Action Unit Unit)).countP
            Action.isWorker <
          11 + 10 * (s.attemptsLeft + logEverything.allowedAttempts * (s'.appended - s.appended)) ∧
        (s'.guarded.queue.length < dequeMaxSize →
          ∀ now ok, (workerStep logEverything s' now ok).isSome = true)) := by
  refine ⟨_, _, rfl, rfl, rfl, drain_finishes logEverything (by decide) (by decide)
    enqueueAndDrain (List.replicate 13 (.worker 1 true)) _ _ rfl rfl rfl rfl (by decide)
    (notRestarted_of_workers ?_) ?_⟩
  · intro a member
    exact ⟨1, true, List.eq_of_mem_replicate member⟩
  · intro earlier a later t _ _ now ok record _ _ circular
    exact Bool.noConfusion circular

/-! ## What holds it up -/

/-- The record does not fall due: its tests find it within its retention, no flush
    reaches it, and nobody clears the queue. -/
def Spares (o : Options) (record : FlushInfo β) (s : State β κ) (a : Action β κ) : Prop :=
  (∀ now ok, a = .worker now ok → s.worker = .retain record → retained o record now = true) ∧
    (∀ completion now, s.criticalSection a = some (.flush completion now) →
      now < record.flushTimestamp) ∧
    s.criticalSection a ≠ some .clear

/-- The record is in the deque, or in the worker's hands on its way back to it. -/
def State.Circulates (s : State β κ) (record : FlushInfo β) : Prop :=
  record ∈ s.guarded.queue ∨ s.worker = .retain record ∨ s.worker = .decideFlush record ∨
    s.worker = .requeue record

/-- The worker goes round with a record that no flush has reached. -/
structure TurningOver (record : FlushInfo β) (s : State β κ) : Prop where
  counted : Counted s
  circulates : s.Circulates record
  unflushed : s.guarded.flushTimestamp < record.flushTimestamp
  active : s.worker.active = true
  inLoop : s.worker.exited = false

section

variable {o : Options} {s s' : State β κ} {record : FlushInfo β} {a : Action β κ}

theorem State.Circulates.pending (circulates : s.Circulates record) :
    record ∈ s.guarded.queue ∨ s.worker.held = some record := by
  rcases circulates with queued | position | position | position
  · exact .inl queued
  all_goals exact .inr (by rw [position]; rfl)

theorem Spares.clearsUnheld (spares : Spares o record s a) : ClearsUnheld s a :=
  fun clears => absurd clears spares.2.2

/-- A record stays in the deque until the worker pops it. -/
theorem worker_queue {now : Int} {ok : Bool} (queued : record ∈ s.guarded.queue)
    (taken : workerStep o s now ok = some s') :
    record ∈ s'.guarded.queue ∨ s'.worker = .retain record := by
  cases position : s.worker with
  | pop =>
      simp only [workerStep, position] at taken
      split at taken <;> cases taken
      · exact .inl queued
      · rename_i first rest front
        rw [front, List.mem_cons] at queued
        rcases queued with rfl | behind
        · exact .inr rfl
        · exact .inl behind
  | requeue | settle =>
      simp only [workerStep, position] at taken
      repeat split at taken
      all_goals cases taken
      all_goals simp [Guarded.emplaceBack, Guarded.leave, queued]
  | _ =>
      simp only [workerStep, position] at taken
      repeat split at taken
      all_goals cases taken
      all_goals exact .inl queued

theorem worker_present {now : Int} {ok : Bool} (taken : workerStep o s now ok = some s') :
    s'.worker ≠ .absent := by
  cases position : s.worker with
  | runCompletion leaving =>
      simp only [workerStep, position] at taken
      split at taken <;> cases taken
      · cases s.guarded.flushCompletion <;> cases leaving <;> simp [Worker.endIteration]
      · cases leaving <;> simp [Worker.endIteration]
  | startCompletion completion leaving =>
      simp only [workerStep, position, Option.some.injEq] at taken
      subst taken
      cases leaving <;> simp [Worker.endIteration]
  | readDraining | readEmpty | retain | decideFlush =>
      simp only [workerStep, position, Option.some.injEq] at taken
      subst taken
      simp only [emit_worker]
      split <;> simp
  | _ =>
      simp only [workerStep, position] at taken
      repeat split at taken
      all_goals cases taken
      all_goals simp

theorem worker_flushTimestamp {now : Int} {ok : Bool} (taken : workerStep o s now ok = some s') :
    s'.guarded.flushTimestamp = s.guarded.flushTimestamp := by
  cases position : s.worker <;> simp only [workerStep, position] at taken
  all_goals
    repeat split at taken
    all_goals cases taken
    all_goals rfl

theorem TurningOver.worker {now : Int} {ok : Bool} (turning : TurningOver record s)
    (circular : o.flushAllEvents = false) (spares : Spares o record s (.worker now ok))
    (taken : workerStep o s now ok = some s') : TurningOver record s' := by
  have pending := turning.circulates.pending
  have inLoop : s'.worker.exited = false := by
    rcases worker_inLoop turning.inLoop taken with stays | ⟨exits, -⟩
    · exact stays
    · obtain ⟨none, unheld⟩ := turning.counted.exact.empty.mp (exits_empty exits)
      simp [none, unheld] at pending
  have active : s'.worker.active = true := by
    cases position : s'.worker with
    | absent => exact absurd position (worker_present taken)
    | finished => simp [position, Worker.exited] at inLoop
    | _ => rfl
  refine ⟨step_counted turning.counted spares.clearsUnheld taken, ?_,
    worker_flushTimestamp taken ▸ turning.unflushed, active, inLoop⟩
  rcases turning.circulates with queued | position | position | position
  · exact (worker_queue queued taken).imp_right .inl
  · have kept := spares.1 now ok rfl position
    simp only [workerStep, position, circular, kept, Bool.not_true, Bool.and_false,
      Bool.false_eq_true, if_false, Option.some.injEq] at taken
    subst taken
    exact .inr (.inr (.inl rfl))
  · have undue : ¬ record.flushTimestamp ≤ s.guarded.flushTimestamp := by
      have unflushed := turning.unflushed
      omega
    simp only [workerStep, position, circular, undue, decide_false, Bool.or_false,
      Bool.false_eq_true, if_false, Option.some.injEq] at taken
    subst taken
    exact .inr (.inr (.inr rfl))
  · simp only [workerStep, position] at taken
    split at taken <;> cases taken
    exact .inl (by simp [Guarded.emplaceBack])

theorem TurningOver.client {thread : Nat} {now : Int} (turning : TurningOver record s)
    (spares : Spares o record s (.client thread now))
    (taken : clientStep o s thread now = some s') : TurningOver record s' := by
  have counted := step_counted turning.counted spares.clearsUnheld (a := .client thread now) taken
  have worker : s'.worker = s.worker := by
    rcases client_worker taken with same | ⟨absent, -⟩ | ⟨finished, -⟩
    · exact same
    · exact absurd turning.active (by simp [absent, Worker.active])
    · exact absurd turning.active (by simp [finished, Worker.active])
  have guarded : (∀ r ∈ s.guarded.queue, r ∈ s'.guarded.queue) ∧
      s'.guarded.flushTimestamp < record.flushTimestamp := by
    have unflushed := turning.unflushed
    cases position : s.clients thread with
    | enqueueLock buffer flushTimestamp =>
        simp only [clientStep, position] at taken
        split at taken <;> cases taken
        exact ⟨fun r member => by simp [Guarded.enqueue, member], unflushed⟩
    | flushLock completion reading =>
        have late := spares.2.1 completion reading (by simp [State.criticalSection, position])
        simp only [clientStep, position, Option.some.injEq] at taken
        subst taken
        exact ⟨fun r member => member, late⟩
    | clearLock => exact absurd (by simp [State.criticalSection, position]) spares.2.2
    | _ =>
        simp only [clientStep, position] at taken
        repeat split at taken
        all_goals cases taken
        all_goals exact ⟨fun r member => member, unflushed⟩
  refine ⟨counted, ?_, guarded.2, worker ▸ turning.active, worker ▸ turning.inLoop⟩
  rw [State.Circulates, worker]
  exact turning.circulates.imp_left (guarded.1 record)

theorem TurningOver.step (turning : TurningOver record s) (circular : o.flushAllEvents = false)
    (spares : Spares o record s a) (taken : step o s a = some s') : TurningOver record s' := by
  cases a with
  | call thread method =>
      obtain ⟨-, events, rfl, -⟩ := call_entry taken
      exact ⟨step_counted turning.counted spares.clearsUnheld taken, turning.circulates,
        turning.unflushed, turning.active, turning.inLoop⟩
  | client thread now => exact turning.client spares taken
  | worker now ok => exact turning.worker circular spares taken

end

/-- In circular mode the worker does not leave its loop before the retention of
    every record is over that no flush has reached, however long it runs and whatever
    else happens: `DrainAndStop` waits as long as the records are retained. -/
theorem drain_waits (o : Options) (circular : o.flushAllEvents = false)
    (before after : List (Action β κ)) (s s' : State β κ)
    (reached : exec (step o) initial before = some s)
    (continues : exec (step o) s after = some s')
    (clears : Meets (step o) ClearsUnheld initial before) (record : FlushInfo β)
    (queued : record ∈ s.guarded.queue)
    (unflushed : s.guarded.flushTimestamp < record.flushTimestamp)
    (active : s.worker.active = true) (inLoop : s.worker.exited = false)
    (spares : Meets (step o) (Spares o record) s after) :
    (record ∈ s'.guarded.queue ∨ s'.worker.held = some record) ∧
      ∀ thread now, s'.clients thread = .drainJoin → clientStep o s' thread now = none := by
  have turning : TurningOver record s' :=
    invariant (Spares o record) (TurningOver record)
      ⟨run_counted clears reached, .inl queued, unflushed, active, inLoop⟩
      (fun _ _ _ turning conforms taken => turning.step circular conforms taken) spares continues
  refine ⟨turning.circulates.pending, fun thread now joins => ?_⟩
  have active' := turning.active
  simp only [clientStep, joins]
  cases position : s'.worker <;> simp [position, Worker.active] at active' ⊢

/-- The clock stands still within the retention of the one record. -/
theorem drain_waits_enqueueAndDrain :
    ∃ s s', exec (step circular) initial enqueueAndDrain = some s ∧
      exec (step circular) s (List.replicate 60 (Action.worker 1 true)) = some s' ∧
      s'.clients 0 = .drainJoin ∧
      (⟨(), 1, 0, 0, 1⟩ ∈ s'.guarded.queue ∨ s'.worker.held = some ⟨(), 1, 0, 0, 1⟩) ∧
      ∀ thread now, s'.clients thread = .drainJoin →
        clientStep circular s' thread now = none := by
  refine ⟨_, _, rfl, rfl, rfl, drain_waits circular rfl enqueueAndDrain
    (List.replicate 60 (.worker 1 true)) _ _ rfl rfl (by decide) ⟨(), 1, 0, 0, 1⟩ (by decide)
    (by decide) rfl rfl ?_⟩
  intro earlier a later t split _
  obtain rfl : a = .worker 1 true :=
    List.eq_of_mem_replicate (by rw [split]; simp : a ∈ List.replicate 60 (Action.worker 1 true))
  refine ⟨?_, by simp [State.criticalSection], by simp [State.criticalSection]⟩
  rintro now ok ⟨⟩ _
  decide

end Spoor.FlushQueue.DiskFlushQueue
