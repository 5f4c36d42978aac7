import Spoor.FlushQueue.Counter
import Spoor.FlushQueue.Handover
import Spoor.FlushQueue.Records

/-! # Shutting the queue down

`Enqueue` tests `running_` and `draining_` before it takes the lock, and the
worker leaves its loop after a separate look at `queue_size_`.  A client that
passed the test can therefore append after the worker has looked for the last
time.  Every other schedule is safe: if appends only happen while a worker is,
or is about to be, in its loop, then nothing is left in the deque once
`running_` is false, and every buffer was either processed or refused.
-/

namespace Spoor.FlushQueue.DiskFlushQueue

open Lib.MachineInteger Lib.Transition

variable {β κ : Type}

/-- The worker has left its loop. -/
def Worker.exited : Worker β κ → Bool
  | .storeDraining | .storeRunning | .finished => true
  | _ => false

/-- The queue runs and no worker has passed its last loop test. -/
def State.Serving (s : State β κ) : Prop :=
  s.running = true ∧ s.worker.exited = false

instance (s : State β κ) : Decidable s.Serving :=
  inferInstanceAs (Decidable (_ ∧ _))

/-- `Enqueue` only appends while the queue is serving. -/
def AppendsServing (s : State β κ) (a : Action β κ) : Prop :=
  s.criticalSection a = some .enqueue → s.Serving

instance [DecidableEq κ] (s : State β κ) (a : Action β κ) : Decidable (AppendsServing s a) :=
  inferInstanceAs (Decidable (_ → _))

/-- Either the queue is serving or it holds no record. -/
def ServingOrEmpty (s : State β κ) : Prop := s.Serving ∨ s.records = []

/-- The step is the loop test by which the worker leaves its loop. -/
def State.exits (s : State β κ) : Action β κ → Bool
  | .worker _ _ =>
      match s.worker with
      | .readEmpty => s.guarded.empty
      | _ => false
  | _ => false

theorem exits_empty {s : State β κ} {a : Action β κ} (exits : s.exits a) :
    s.guarded.empty = true := by
  cases a with
  | worker now ok => cases position : s.worker <;> simp_all [State.exits]
  | _ => simp [State.exits] at exits

theorem client_serving {o : Options} {s s' : State β κ} {thread : Nat} {now : Int}
    (serving : s.Serving) (taken : clientStep o s thread now = some s') : s'.Serving := by
  obtain ⟨running, inLoop⟩ := serving
  cases position : s.clients thread <;> simp only [clientStep, position] at taken
  all_goals
    repeat split at taken
    all_goals cases taken
    all_goals first | exact ⟨running, inLoop⟩ | exact ⟨rfl, inLoop⟩ | exact ⟨running, rfl⟩

/-- A worker in its loop leaves `running_` alone. -/
theorem worker_running {o : Options} {s s' : State β κ} {now : Int} {ok : Bool}
    (inLoop : s.worker.exited = false) (taken : workerStep o s now ok = some s') :
    s'.running = s.running := by
  cases position : s.worker <;> simp only [workerStep, position] at taken
  all_goals
    repeat split at taken
    all_goals cases taken
    all_goals first | rfl | simp [position, Worker.exited] at inLoop

/-- A worker in its loop stays there unless its loop test finds the queue empty. -/
theorem worker_inLoop {o : Options} {s s' : State β κ} {now : Int} {ok : Bool}
    (inLoop : s.worker.exited = false) (taken : workerStep o s now ok = some s') :
    s'.worker.exited = false ∨
      s.exits (.worker now ok) ∧ s'.guarded = s.guarded ∧ s'.worker = .storeDraining := by
  cases position : s.worker with
  | readEmpty =>
      simp only [workerStep, position, Option.some.injEq] at taken
      subst taken
      by_cases empty : s.guarded.empty = true
      · exact .inr ⟨by simp [State.exits, position, empty], rfl, by simp [empty]⟩
      · exact .inl (by simp [empty, Worker.exited])
  | absent | finished => simp [workerStep, position] at taken
  | storeDraining | storeRunning => simp [position, Worker.exited] at inLoop
  | runCompletion leaving =>
      simp only [workerStep, position] at taken
      split at taken <;> cases taken <;> cases leaving <;>
        cases s.guarded.flushCompletion <;> exact .inl rfl
  | startCompletion completion leaving =>
      simp only [workerStep, position, Option.some.injEq] at taken
      subst taken
      cases leaving <;> exact .inl rfl
  | _ =>
      refine .inl ?_
      simp only [workerStep, position] at taken
      repeat split at taken
      all_goals cases taken
      all_goals simp only [emit_worker]
      all_goals rfl

/-- The queue stops serving only by the loop test that found it empty. -/
theorem step_serving {o : Options} {s s' : State β κ} {a : Action β κ} (serving : s.Serving)
    (taken : step o s a = some s') :
    s'.Serving ∨ s.exits a ∧ s'.guarded = s.guarded ∧ s'.worker = .storeDraining := by
  cases a with
  | call thread method =>
      simp only [step, callStep] at taken
      split at taken <;> cases taken <;> exact .inl serving
  | client thread now => exact .inl (client_serving serving taken)
  | worker now ok =>
      obtain ⟨running, inLoop⟩ := serving
      rcases worker_inLoop inLoop taken with stays | leaves
      · exact .inl ⟨(worker_running inLoop taken).trans running, stays⟩
      · exact .inr leaves

theorem step_servingOrEmpty {o : Options} {s s' : State β κ} {a : Action β κ}
    (counted : Counted s) (appendsServing : AppendsServing s a) (held : ServingOrEmpty s)
    (taken : step o s a = some s') : ServingOrEmpty s' := by
  by_cases serving : s.Serving
  · rcases step_serving serving taken with serving' | ⟨exits, guarded, worker⟩
    · exact .inl serving'
    · refine .inr ?_
      have deque : s.guarded.queue = [] := (counted.exact.empty.mp (exits_empty exits)).1
      simp [State.records, guarded, worker, deque, Worker.held]
  · have none : s.records = [] := held.resolve_left serving
    refine .inr ?_
    cases step_records taken with
    | same events records => exact (none ▸ records).eq_nil
    | enter thread record appends => exact absurd (appendsServing appends) serving
    | leave record event records => simp [none] at records
    | clear records => exact (List.append_eq_nil_iff.mp (none ▸ records).symm).2

/-- No client is about to clear the queue, and none has cleared it. -/
structure Unclearing (s : State β κ) : Prop where
  clients : ∀ thread, s.clients thread ≠ .clearLock
  log : ∀ ids, .cleared ids ∉ s.log

theorem Unclearing.initial : Unclearing (initial : State β κ) := by
  constructor <;> simp [DiskFlushQueue.initial]

theorem forall_ne_clear {labels : List (Action β κ)}
    (unclearing : ∀ thread, Action.call thread .clear ∉ labels) :
    ∀ a ∈ labels, ∀ thread, a ≠ .call thread .clear := by
  rintro a member thread rfl
  exact unclearing thread member

theorem Unclearing.clearsUnheld {s : State β κ} (unclearing : Unclearing s) (a : Action β κ) :
    ClearsUnheld s a := by
  intro clears
  obtain ⟨thread, now, -, position⟩ := criticalSection_eq_clear clears
  exact absurd position (unclearing.clients thread)

/-- A client only comes to the lock of `Clear` by calling it. -/
theorem step_clearLock {o : Options} {s s' : State β κ} {a : Action β κ} {thread : Nat}
    (taken : step o s a = some s') (position : s'.clients thread = .clearLock) :
    s.clients thread = .clearLock ∨ a = .call thread .clear := by
  cases a with
  | worker now ok => exact .inl (worker_clients taken ▸ position)
  | call caller method =>
      obtain ⟨-, events, rfl, -⟩ := call_entry taken
      by_cases same : thread = caller
      · subst same
        cases method <;> simp [Call.entry] at position
        exact .inr rfl
      · exact .inl (by simpa [same] using position)
  | client caller now =>
      refine .inl ?_
      by_cases same : thread = caller
      · subst same
        cases before : s.clients thread <;> simp only [step, clientStep, before] at taken
        all_goals
          repeat split at taken
          all_goals cases taken
          all_goals simp at position
      · exact client_others taken same ▸ position

theorem step_unclearing {o : Options} {s s' : State β κ} {a : Action β κ}
    (unclearing : Unclearing s) (other : ∀ thread, a ≠ .call thread .clear)
    (taken : step o s a = some s') : Unclearing s' := by
  constructor
  · intro thread position
    exact (step_clearLock taken position).elim (unclearing.clients thread) (other thread)
  · intro ids cleared
    cases step_effect taken with
    | clear clears =>
        obtain ⟨thread, now, -, position⟩ := criticalSection_eq_clear clears
        exact unclearing.clients thread position
    | silent events _ _ log control =>
        rw [log, List.mem_append] at cleared
        exact cleared.elim (unclearing.log ids) (control _)
    | flush completion now _ _ _ log =>
        rw [log] at cleared
        cases completion <;> simp [unclearing.log ids] at cleared
    | _ => simp_all [unclearing.log ids]

/-- The `Enqueue` calls of a thread, and their answers. -/
def Event.offeredBy (thread : Nat) : Event β κ → Bool
  | .offered caller => caller == thread
  | _ => false

def Event.rejectedTo (thread : Nat) : Event β κ → Bool
  | .rejected caller => caller == thread
  | _ => false

def Event.enqueuedBy (thread : Nat) : Event β κ → Bool
  | .enqueued caller _ => caller == thread
  | _ => false

/-- The thread is inside `Enqueue`. -/
def Client.enqueueing : Client β κ → Bool
  | .enqueueNow _ | .enqueueRunning _ _ | .enqueueDraining _ _ | .enqueueLock _ _ => true
  | _ => false

/-- Every buffer the thread offered was appended, refused, or is still being
    offered. -/
def Accounted (s : State β κ) (thread : Nat) : Prop :=
  s.log.countP (Event.offeredBy thread) =
    s.log.countP (Event.enqueuedBy thread) + s.log.countP (Event.rejectedTo thread) +
      if (s.clients thread).enqueueing then 1 else 0

/-- The event neither opens nor answers an `Enqueue` of the thread. -/
def Event.Aside (thread : Nat) (e : Event β κ) : Prop :=
  e.offeredBy thread = false ∧ e.enqueuedBy thread = false ∧ e.rejectedTo thread = false

/-- What a step says to one thread about its `Enqueue` calls. -/
inductive Dialogue (thread : Nat) (s s' : State β κ) : Prop where
  | aside (events : List (Event β κ)) :
      s'.log = s.log ++ events → (∀ e ∈ events, e.Aside thread) →
      (s'.clients thread).enqueueing = (s.clients thread).enqueueing → Dialogue thread s s'
  | offer :
      s'.log = s.log ++ [.offered thread] → (s.clients thread).enqueueing = false →
      (s'.clients thread).enqueueing = true → Dialogue thread s s'
  | refuse :
      s'.log = s.log ++ [.rejected thread] → (s.clients thread).enqueueing = true →
      (s'.clients thread).enqueueing = false → Dialogue thread s s'
  | append (record : FlushInfo β) :
      s'.log = s.log ++ [.enqueued thread record] → (s.clients thread).enqueueing = true →
      (s'.clients thread).enqueueing = false → Dialogue thread s s'

private theorem Dialogue.quiet {thread : Nat} {s s' : State β κ} (log : s'.log = s.log)
    (same : (s'.clients thread).enqueueing = (s.clients thread).enqueueing) :
    Dialogue thread s s' :=
  .aside [] (by simp [log]) (by simp) same

private theorem Dialogue.noted {thread : Nat} {s s' : State β κ} (e : Event β κ)
    (aside : e.Aside thread) (log : s'.log = s.log ++ [e])
    (same : (s'.clients thread).enqueueing = (s.clients thread).enqueueing) :
    Dialogue thread s s' :=
  .aside [e] log (by simpa using aside) same

theorem worker_dialogue {o : Options} {s s' : State β κ} {now : Int} {ok : Bool}
    (thread : Nat) (taken : workerStep o s now ok = some s') : Dialogue thread s s' := by
  have same := congrArg (fun clients => (clients thread).enqueueing) (worker_clients taken)
  cases position : s.worker <;> simp only [workerStep, position] at taken
  all_goals
    repeat split at taken
    all_goals cases taken
    all_goals first
      | exact .quiet rfl same
      | exact .noted _ ⟨rfl, rfl, rfl⟩ rfl same

/-- A step of another thread. -/
theorem client_dialogue_other {o : Options} {s s' : State β κ} {thread caller : Nat} {now : Int}
    (other : thread ≠ caller) (taken : clientStep o s caller now = some s') :
    Dialogue thread s s' := by
  have same : (s'.clients thread).enqueueing = (s.clients thread).enqueueing := by
    rw [client_others taken other]
  cases before : s.clients caller with
  | flushRunning completion =>
      simp only [clientStep, before] at taken
      split at taken <;> cases taken
      · exact .quiet rfl same
      · refine .aside _ rfl ?_ same
        cases completion <;> simp [Event.Aside, Event.offeredBy, Event.enqueuedBy, Event.rejectedTo]
  | flushLock completion reading =>
      simp only [clientStep, before, Option.some.injEq] at taken
      subst taken
      refine .aside _ rfl ?_ same
      cases completion <;> simp [Event.Aside, Event.offeredBy, Event.enqueuedBy, Event.rejectedTo]
  | _ =>
      simp only [clientStep, before] at taken
      repeat split at taken
      all_goals cases taken
      all_goals first
        | exact .quiet rfl same
        | exact .noted _ (by simp [Event.Aside, Event.offeredBy, Event.enqueuedBy,
            Event.rejectedTo, other.symm]) rfl same

theorem client_dialogue_own {o : Options} {s s' : State β κ} {thread : Nat} {now : Int}
    (taken : clientStep o s thread now = some s') : Dialogue thread s s' := by
  cases before : s.clients thread with
  | flushRunning completion =>
      simp only [clientStep, before] at taken
      split at taken <;> cases taken
      · exact .quiet rfl (by simp [before, Client.enqueueing])
      · refine .aside _ rfl ?_ (by simp [before, Client.enqueueing])
        cases completion <;> simp [Event.Aside, Event.offeredBy, Event.enqueuedBy, Event.rejectedTo]
  | flushLock completion reading =>
      simp only [clientStep, before, Option.some.injEq] at taken
      subst taken
      refine .aside _ rfl ?_ (by simp [before, Client.enqueueing])
      cases completion <;> simp [Event.Aside, Event.offeredBy, Event.enqueuedBy, Event.rejectedTo]
  | enqueueRunning | enqueueDraining =>
      simp only [clientStep, before] at taken
      split at taken <;> cases taken
      all_goals first
        | exact .quiet rfl (by simp [before, Client.enqueueing])
        | exact .refuse rfl (by simp [before, Client.enqueueing]) (by simp [Client.enqueueing])
  | enqueueLock buffer flushTimestamp =>
      simp only [clientStep, before] at taken
      split at taken <;> cases taken
      exact .append _ rfl (by simp [before, Client.enqueueing]) (by simp [Client.enqueueing])
  | _ =>
      simp only [clientStep, before] at taken
      repeat split at taken
      all_goals cases taken
      all_goals first
        | exact .quiet rfl (by simp [before, Client.enqueueing])
        | exact .noted _ ⟨rfl, rfl, rfl⟩ rfl (by simp [before, Client.enqueueing])

theorem call_dialogue {s s' : State β κ} {thread caller : Nat} {method : Call β κ}
    (taken : callStep s caller method = some s') : Dialogue thread s s' := by
  cases before : s.clients caller with
  | idle =>
      by_cases same : thread = caller
      · subst same
        cases method <;> simp only [callStep, before, Option.some.injEq] at taken <;> subst taken
        case enqueue =>
          exact .offer rfl (by simp [before, Client.enqueueing]) (by simp [Client.enqueueing])
        all_goals exact .quiet rfl (by simp [before, Client.enqueueing])
      · cases method <;> simp only [callStep, before, Option.some.injEq] at taken <;> subst taken
        case enqueue =>
          exact .noted _ (by simp [Event.Aside, Event.offeredBy, Event.enqueuedBy,
            Event.rejectedTo, Ne.symm same]) rfl (by simp [same])
        all_goals exact .quiet rfl (by simp [same])
  | _ => cases method <;> simp [callStep, before] at taken

theorem step_dialogue {o : Options} {s s' : State β κ} {a : Action β κ} (thread : Nat)
    (taken : step o s a = some s') : Dialogue thread s s' := by
  cases a with
  | call => exact call_dialogue taken
  | worker => exact worker_dialogue thread taken
  | client caller =>
      by_cases same : thread = caller
      · subst same
        exact client_dialogue_own taken
      · exact client_dialogue_other same taken

theorem step_accounted {o : Options} {s s' : State β κ} {a : Action β κ} {thread : Nat}
    (accounted : Accounted s thread) (taken : step o s a = some s') : Accounted s' thread := by
  unfold Accounted at accounted ⊢
  cases step_dialogue thread taken with
  | aside events log aside same =>
      have offers : events.countP (Event.offeredBy thread) = 0 := by
        simpa [List.countP_eq_zero] using fun e member => (aside e member).1
      have appends : events.countP (Event.enqueuedBy thread) = 0 := by
        simpa [List.countP_eq_zero] using fun e member => (aside e member).2.1
      have refusals : events.countP (Event.rejectedTo thread) = 0 := by
        simpa [List.countP_eq_zero] using fun e member => (aside e member).2.2
      simpa [log, same, offers, appends, refusals] using accounted
  | offer log before after | refuse log before after | append record log before after =>
      simp [before] at accounted
      simp [log, after, Event.offeredBy, Event.enqueuedBy, Event.rejectedTo]
      omega

theorem run_unclearing {o : Options} {labels : List (Action β κ)} {s : State β κ}
    (unclearing : ∀ thread, Action.call thread .clear ∉ labels)
    (reached : exec (step o) initial labels = some s) : Unclearing s :=
  invariant (fun _ a => ∀ thread, a ≠ .call thread .clear) Unclearing Unclearing.initial
    (fun _ _ _ held other taken => step_unclearing held other taken)
    (meets_of_forall (forall_ne_clear unclearing)) reached

theorem run_accounted {o : Options} {labels : List (Action β κ)} {s : State β κ}
    (reached : exec (step o) initial labels = some s) (thread : Nat) : Accounted s thread :=
  invariant_always (fun t => Accounted t thread) (by simp [Accounted, initial, Client.enqueueing])
    (fun _ _ _ accounted taken => step_accounted accounted taken) reached

theorem run_servingOrEmpty {o : Options} {labels : List (Action β κ)} {s : State β κ}
    (clears : Meets (step o) ClearsUnheld initial labels)
    (appends : Meets (step o) AppendsServing initial labels)
    (reached : exec (step o) initial labels = some s) : ServingOrEmpty s := by
  refine (invariant (fun t a => ClearsUnheld t a ∧ AppendsServing t a)
    (fun t => Counted t ∧ ServingOrEmpty t) ⟨Counted.initial, .inr rfl⟩ ?_
    (clears.and appends) reached).2
  rintro t a u ⟨counted, held⟩ ⟨clearsUnheld, appendsServing⟩ taken
  exact ⟨step_counted counted clearsUnheld taken,
    step_servingOrEmpty counted appendsServing held taken⟩

/-- What is left behind by a queue that stopped: nothing in the deque, an
    outcome for every buffer moved into it, and an answer to every `Enqueue`. -/
structure NothingStranded (s : State β κ) : Prop where
  deque : s.guarded.queue = []
  processed : ∀ thread record, .enqueued thread record ∈ s.log →
    .finished record.id ∈ s.log ∨ .discarded record.id ∈ s.log
  answered : ∀ thread, Accounted s thread

/-- In a run without `Clear` whose appends all find the queue serving, nothing
    is stranded once the queue has stopped. -/
theorem nothing_stranded (o : Options) (labels : List (Action β κ)) (s : State β κ)
    (unclearing : ∀ thread, Action.call thread .clear ∉ labels)
    (appends : Meets (step o) AppendsServing initial labels)
    (reached : exec (step o) initial labels = some s) (stopped : s.running = false) :
    NothingStranded s := by
  have clears : Meets (step o) ClearsUnheld initial labels := by
    intro before a after t split earlier
    refine (run_unclearing (fun thread member => ?_) earlier).clearsUnheld a
    exact unclearing thread (by simp [split, member])
  have empty : s.records = [] := by
    rcases run_servingOrEmpty clears appends reached with serving | empty
    · simp [State.Serving, stopped] at serving
    · exact empty
  have tracked := run_tracked reached
  constructor
  · have pieces : s.guarded.queue = [] ∧ s.worker.held.toList = [] := by
      simpa [State.records] using empty
    exact pieces.1
  · intro thread record logged
    rcases tracked.located thread record logged with inside | finished | discarded | cleared
    · simp [empty] at inside
    · exact .inl finished
    · exact .inr discarded
    · obtain ⟨ids, cleared, -⟩ := cleared
      exact absurd cleared ((run_unclearing unclearing reached).log ids)
  · exact run_accounted reached

/-- A record is enqueued, written and counted out, and the queue is stopped. -/
def enqueueThenDrain : List (Action Unit Unit) :=
  runCall 0 ++ enqueueCall 1 () 1 ++ [Action.call 0 .drainAndStop] ++
    List.replicate 2 (Action.client 0 1) ++ List.replicate 13 (Action.worker 1 true) ++
    [Action.client 0 1]

theorem nothing_stranded_enqueueThenDrain :
    ∃ s, exec (step logEverything) initial enqueueThenDrain = some s ∧
      Event.drained 0 ∈ s.log ∧ s.log.countP (Event.enqueuedBy 1) = 1 ∧ NothingStranded s := by
  refine ⟨_, rfl, by decide, rfl, nothing_stranded logEverything enqueueThenDrain _ ?_ ?_ rfl rfl⟩
  · simp [enqueueThenDrain, runCall, enqueueCall]
  · decide

/-- Thread 1 passes the test of `Enqueue`, the queue is drained and stopped, and
    thread 1 then appends. -/
def appendAfterDrain : List (Action Unit Unit) :=
  runCall 0 ++ [Action.call 1 (.enqueue ())] ++ List.replicate 3 (Action.client 1 1) ++
    [Action.call 0 .drainAndStop] ++ List.replicate 2 (Action.client 0 1) ++
    List.replicate 4 (Action.worker 1 true) ++ [Action.client 0 1] ++ [Action.client 1 1]

theorem append_after_drain_strands :
    (∀ thread, Action.call thread .clear ∉ appendAfterDrain) ∧
      ∃ s, exec (step logEverything) initial appendAfterDrain = some s ∧
        Event.drained 0 ∈ s.log ∧ s.running = false ∧ s.guarded.queue.length = 1 ∧
        ¬ NothingStranded s := by
  refine ⟨?_, _, rfl, by decide, rfl, rfl, ?_⟩
  · simp [appendAfterDrain, runCall]
  · intro stranded
    exact absurd stranded.deque (by decide)

end Spoor.FlushQueue.DiskFlushQueue
