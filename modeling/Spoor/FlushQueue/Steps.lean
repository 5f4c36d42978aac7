import Spoor.FlushQueue.DiskFlushQueue

/-! # What one step of the queue can do

Most steps move a program counter or a flag.  The remaining ones are the
critical sections on the guarded data and the moves of a record or completion
in the worker's hands.  `Effect` lists these once, with the position each is
taken from, so that an invariant over them is a short case analysis.
-/

namespace Spoor.FlushQueue.DiskFlushQueue

open Lib.MachineInteger

variable {β κ : Type}

section Frame

variable (s : State β κ) (thread : Nat) (position : Client β κ) (events : List (Event β κ))

@[simp] theorem goto_guarded : (s.goto thread position).guarded = s.guarded := rfl
@[simp] theorem goto_running : (s.goto thread position).running = s.running := rfl
@[simp] theorem goto_draining : (s.goto thread position).draining = s.draining := rfl
@[simp] theorem goto_worker : (s.goto thread position).worker = s.worker := rfl
@[simp] theorem goto_log : (s.goto thread position).log = s.log := rfl
@[simp] theorem goto_clients :
    (s.goto thread position).clients = Function.update s.clients thread position := rfl

@[simp] theorem emit_guarded : (s.emit events).guarded = s.guarded := rfl
@[simp] theorem emit_running : (s.emit events).running = s.running := rfl
@[simp] theorem emit_draining : (s.emit events).draining = s.draining := rfl
@[simp] theorem emit_worker : (s.emit events).worker = s.worker := rfl
@[simp] theorem emit_clients : (s.emit events).clients = s.clients := rfl
@[simp] theorem emit_log : (s.emit events).log = s.log ++ events := rfl

end Frame

@[simp] theorem held_endIteration (leaving : Option (FlushInfo β)) :
    (Worker.endIteration leaving : Worker β κ).held = none := by
  cases leaving <;> rfl

@[simp] theorem starting_endIteration (leaving : Option (FlushInfo β)) :
    (Worker.endIteration leaving : Worker β κ).starting = none := by
  cases leaving <;> rfl

/-- The record whose next step is its discarding or its settlement, with the
    answer of `Write` in the latter case. -/
def Worker.verdict : Worker β κ → Option (FlushInfo β × Option Bool)
  | .discard r => some (r, none)
  | .settle r ok => some (r, some ok)
  | _ => none

/-- What the worker carries from one step to the next. -/
structure Load (β κ : Type) where
  held : Option (FlushInfo β)
  starting : Option (Completion κ)
  verdict : Option (FlushInfo β × Option Bool)

def Load.none : Load β κ := ⟨.none, .none, .none⟩

def Worker.load (worker : Worker β κ) : Load β κ :=
  ⟨worker.held, worker.starting, worker.verdict⟩

theorem load_endIteration (leaving : Option (FlushInfo β)) :
    (Worker.endIteration leaving : Worker β κ).load = .none := by
  cases leaving <;> rfl

/-- The steps of an uncontended call of `Run`. -/
def runCall (thread : Nat) : List (Action β κ) :=
  .call thread .run :: List.replicate 3 (.client thread 0)

/-- The steps of an `Enqueue` that is let in, made at clock reading `now`. -/
def enqueueCall (thread : Nat) (buffer : β) (now : Int) : List (Action β κ) :=
  .call thread (.enqueue buffer) :: List.replicate 4 (.client thread now)

/-- The steps of a `Flush` of the running queue, made at clock reading `now`. -/
def flushCall (thread : Nat) (completion : Option κ) (now : Int) : List (Action β κ) :=
  .call thread (.flush completion) :: List.replicate 3 (.client thread now)

/-- The steps of a `Clear` up to the end of its critical section. -/
def clearCall (thread : Nat) : List (Action β κ) :=
  [.call thread .clear, .client thread 0]

/-- Events that concern neither a record's way through the queue nor a completion. -/
def Event.Control : Event β κ → Prop
  | .offered _ | .rejected _ | .drained _ => True
  | _ => False

/-- The critical sections of the client methods. -/
inductive Section (κ : Type) where
  | enqueue
  | flush (completion : Option κ) (now : Int)
  | clear
  deriving DecidableEq

/-- The client critical section a step executes, if it executes one. -/
def State.criticalSection (s : State β κ) : Action β κ → Option (Section κ)
  | .client thread _ =>
      match s.clients thread with
      | .enqueueLock _ _ => some .enqueue
      | .flushLock completion now => some (.flush completion now)
      | .clearLock => some .clear
      | _ => none
  | _ => none

theorem criticalSection_eq_clear {s : State β κ} {a : Action β κ}
    (clears : s.criticalSection a = some .clear) :
    ∃ thread now, a = .client thread now ∧ s.clients thread = .clearLock := by
  cases a with
  | client thread now =>
      refine ⟨thread, now, rfl, ?_⟩
      cases position : s.clients thread <;> simp_all [State.criticalSection]
  | _ => simp [State.criticalSection] at clears

theorem criticalSection_eq_enqueue {s : State β κ} {a : Action β κ}
    (appends : s.criticalSection a = some .enqueue) :
    ∃ thread now buffer flushTimestamp, a = .client thread now ∧
      s.clients thread = .enqueueLock buffer flushTimestamp := by
  cases a with
  | client thread now =>
      cases position : s.clients thread <;> simp_all [State.criticalSection]
  | _ => simp [State.criticalSection] at appends

/-- What the steady clock reads in a step that looks at it. -/
def State.clockReading (s : State β κ) : Action β κ → Option Int
  | .client thread now =>
      match s.clients thread with
      | .enqueueNow _ | .flushNow _ => some now
      | _ => none
  | .worker now _ =>
      match s.worker with
      | .retain _ => some now
      | _ => none
  | .call _ _ => none

/-- What a step does to the guarded data, to the record and the completion in
    the worker's hands, and to the log. -/
inductive Effect (o : Options) (s : State β κ) (a : Action β κ) (s' : State β κ) : Prop where
  | silent (events : List (Event β κ)) :
      s'.guarded = s.guarded → s'.worker.load = s.worker.load → s'.log = s.log ++ events →
      (∀ e ∈ events, e.Control) → Effect o s a s'
  | bypass (callback : κ) :
      s'.guarded = s.guarded → s'.worker = s.worker →
      s'.log = s.log ++ [.handed callback, .started callback] → Effect o s a s'
  | enqueue (thread : Nat) (buffer : β) (flushTimestamp : Int) (record : FlushInfo β) :
      s.criticalSection a = some .enqueue →
      record = s.guarded.record o thread buffer flushTimestamp →
      s.guarded.queue.length < dequeMaxSize →
      s'.guarded = s.guarded.enqueue record → s'.worker = s.worker →
      s'.log = s.log ++ [.enqueued thread record] → Effect o s a s'
  | flush (completion : Option κ) (now : Int) :
      s.criticalSection a = some (.flush completion now) →
      s'.guarded = s.guarded.flush
        (completion.map fun callback => ⟨callback, coveredBy s.log now⟩) now →
      s'.worker = s.worker →
      s'.log = s.log ++ .flushed now (s.guarded.marked now) ::
        (completion.map Event.handed).toList →
      Effect o s a s'
  | clear :
      s.criticalSection a = some .clear → s'.guarded = s.guarded.clear → s'.worker = s.worker →
      s'.log = s.log ++ [.cleared (s.guarded.queue.map FlushInfo.id)] → Effect o s a s'
  | pop (record : FlushInfo β) (rest : List (FlushInfo β)) :
      s.worker = .pop → s.guarded.queue = record :: rest →
      s'.guarded = { s.guarded with queue := rest } → s'.worker = .retain record →
      s'.log = s.log → Effect o s a s'
  | test (record : FlushInfo β) (now : Int) :
      s.worker = .retain record → s'.guarded = s.guarded →
      (s'.worker = .decideFlush record ∨ s'.worker = .discard record ∧
        o.flushAllEvents = false ∧ retained o record now = false) →
      s'.log = s.log ++ [.tested record.id now] → Effect o s a s'
  | discard (record : FlushInfo β) :
      s.worker = .discard record → s'.guarded = s.guarded.leave record.id →
      s'.worker = .destroy record → s'.log = s.log ++ [.discarded record.id] → Effect o s a s'
  | write (record : FlushInfo β) (ok : Bool) :
      s.worker = .write record → s'.guarded = s.guarded →
      s'.worker = .settle
        { record with remainingFlushAttempts := decInt32 record.remainingFlushAttempts } ok →
      s'.log = s.log ++ [.wrote record.id ok] → Effect o s a s'
  | requeue (record : FlushInfo β) :
      (s.worker = .requeue record ∧ s'.worker = .readDraining ∨
        s.worker = .settle record false ∧ 0 < record.remainingFlushAttempts ∧
          s'.worker = .runCompletion none) →
      s.guarded.queue.length < dequeMaxSize →
      s'.guarded = s.guarded.emplaceBack record → s'.log = s.log → Effect o s a s'
  | finish (record : FlushInfo β) (ok : Bool) :
      s.worker = .settle record ok → (ok = false → record.remainingFlushAttempts ≤ 0) →
      s'.guarded = s.guarded.leave record.id →
      s'.worker = .runCompletion (some record) → s'.log = s.log ++ [.finished record.id] →
      Effect o s a s'
  | take (completion : Completion κ) (leaving : Option (FlushInfo β)) :
      s.worker = .runCompletion leaving → s.guarded.manualFlushRecordIds = ∅ →
      s.guarded.flushCompletion = some completion →
      s'.guarded = { s.guarded with flushCompletion := none } →
      s'.worker = .startCompletion completion leaving → s'.log = s.log → Effect o s a s'
  | start (completion : Completion κ) (leaving : Option (FlushInfo β)) :
      s.worker = .startCompletion completion leaving → s'.guarded = s.guarded →
      s'.worker = .endIteration leaving →
      s'.log = s.log ++ [.started completion.callback] → Effect o s a s'

/-- Where a client stands after it entered a method. -/
def Call.entry : Call β κ → Client β κ
  | .run => .runExchange
  | .enqueue buffer => .enqueueNow buffer
  | .drainAndStop => .drainRunning
  | .flush completion => .flushRunning completion
  | .clear => .clearLock

section

variable {o : Options} {s s' : State β κ}

private theorem quiet {a : Action β κ} (guarded : s'.guarded = s.guarded)
    (load : s'.worker.load = s.worker.load) (log : s'.log = s.log) : Effect o s a s' :=
  .silent [] guarded load (by simp [log]) (by simp)

private theorem noted {a : Action β κ} (e : Event β κ) (control : e.Control)
    (guarded : s'.guarded = s.guarded) (load : s'.worker.load = s.worker.load)
    (log : s'.log = s.log ++ [e]) : Effect o s a s' :=
  .silent [e] guarded load log (by simpa using control)

/-- Entering a method moves the client and nothing else. -/
theorem call_entry {thread : Nat} {method : Call β κ}
    (taken : callStep s thread method = some s') :
    s.clients thread = .idle ∧
      ∃ events, s' = (s.goto thread method.entry).emit events ∧ ∀ e ∈ events, e.Control := by
  cases position : s.clients thread with
  | idle =>
      cases method <;> simp only [callStep, position, Option.some.injEq] at taken <;> subst taken
      case enqueue => exact ⟨rfl, [.offered thread], rfl, by simp [Event.Control]⟩
      all_goals exact ⟨rfl, [], by simp [State.emit, State.goto, Call.entry], by simp⟩
  | _ => cases method <;> simp [callStep, position] at taken

theorem call_effect {thread : Nat} {method : Call β κ}
    (taken : callStep s thread method = some s') : Effect o s (.call thread method) s' := by
  obtain ⟨-, events, rfl, control⟩ := call_entry taken
  exact .silent events rfl rfl rfl control

theorem client_effect {thread : Nat} {now : Int}
    (taken : clientStep o s thread now = some s') : Effect o s (.client thread now) s' := by
  cases position : s.clients thread with
  | idle => simp [clientStep, position] at taken
  | runDraining | enqueueNow | flushNow | clearDestroy =>
      simp only [clientStep, position, Option.some.injEq] at taken
      subst taken
      exact quiet rfl rfl rfl
  | runExchange =>
      simp only [clientStep, position] at taken
      split at taken <;> (cases taken; exact quiet rfl rfl rfl)
  | runSpawn =>
      simp only [clientStep, position] at taken
      split at taken <;> cases taken
      rename_i absent
      exact quiet rfl (by rw [absent]; rfl) rfl
  | enqueueRunning =>
      simp only [clientStep, position] at taken
      split at taken <;> cases taken
      · exact quiet rfl rfl rfl
      · exact noted (.rejected thread) trivial rfl rfl rfl
  | enqueueDraining =>
      simp only [clientStep, position] at taken
      split at taken <;> cases taken
      · exact noted (.rejected thread) trivial rfl rfl rfl
      · exact quiet rfl rfl rfl
  | enqueueLock buffer flushTimestamp =>
      simp only [clientStep, position] at taken
      split at taken <;> cases taken
      rename_i room
      exact .enqueue thread buffer flushTimestamp _ (by simp [State.criticalSection, position])
        rfl room rfl rfl rfl
  | drainRunning =>
      simp only [clientStep, position] at taken
      split at taken <;> cases taken
      · exact quiet rfl rfl rfl
      · exact noted (.drained thread) trivial rfl rfl rfl
  | drainExchange =>
      simp only [clientStep, position] at taken
      split at taken <;> cases taken
      · exact noted (.drained thread) trivial rfl rfl rfl
      · exact quiet rfl rfl rfl
  | drainJoin =>
      simp only [clientStep, position] at taken
      split at taken <;> cases taken
      · exact noted (.drained thread) trivial rfl rfl rfl
      · rename_i finished
        exact noted (.drained thread) trivial rfl (by rw [finished]; rfl) rfl
  | flushRunning completion =>
      simp only [clientStep, position] at taken
      split at taken <;> cases taken
      · exact quiet rfl rfl rfl
      · cases completion with
        | none => exact quiet rfl rfl (List.append_nil _)
        | some callback => exact .bypass callback rfl rfl rfl
  | flushLock completion reading =>
      simp only [clientStep, position, Option.some.injEq] at taken
      subst taken
      exact .flush completion reading (by simp [State.criticalSection, position]) rfl rfl rfl
  | clearLock =>
      simp only [clientStep, position, Option.some.injEq] at taken
      subst taken
      exact .clear (by simp [State.criticalSection, position]) rfl rfl rfl

theorem worker_effect {now : Int} {ok : Bool}
    (taken : workerStep o s now ok = some s') : Effect o s (.worker now ok) s' := by
  cases position : s.worker with
  | absent | finished => simp [workerStep, position] at taken
  | readDraining | readEmpty =>
      simp only [workerStep, position, Option.some.injEq] at taken
      subst taken
      refine quiet rfl ?_ rfl
      simp only [position]
      split <;> rfl
  | pop =>
      simp only [workerStep, position] at taken
      split at taken <;> cases taken
      · exact quiet rfl (by rw [position]; rfl) rfl
      · rename_i record rest front
        exact .pop record rest position front rfl rfl rfl
  | retain record =>
      simp only [workerStep, position, Option.some.injEq] at taken
      subst taken
      refine .test record now position rfl ?_ rfl
      simp only [emit_worker]
      split
      · rename_i expired
        exact .inr ⟨rfl, by simpa using expired⟩
      · exact .inl rfl
  | discard record =>
      simp only [workerStep, position, Option.some.injEq] at taken
      subst taken
      exact .discard record position rfl rfl rfl
  | decideFlush record =>
      simp only [workerStep, position, Option.some.injEq] at taken
      subst taken
      refine quiet rfl ?_ rfl
      simp only [position]
      split <;> rfl
  | requeue record =>
      simp only [workerStep, position] at taken
      split at taken <;> cases taken
      rename_i room
      exact .requeue record (.inl ⟨position, rfl⟩) room rfl rfl
  | write record =>
      simp only [workerStep, position, Option.some.injEq] at taken
      subst taken
      exact .write record ok position rfl rfl rfl
  | settle record written =>
      simp only [workerStep, position] at taken
      split at taken
      · rename_i again
        obtain ⟨failed, left⟩ : written = false ∧ 0 < record.remainingFlushAttempts := by
          simpa using again
        split at taken <;> cases taken
        rename_i room
        exact .requeue record (.inr ⟨failed ▸ position, left, rfl⟩) room rfl rfl
      · rename_i done
        cases taken
        refine .finish record written position ?_ rfl rfl rfl
        rintro rfl
        simpa using done
  | runCompletion leaving =>
      have unloaded : s.worker.load = .none := by rw [position]; rfl
      simp only [workerStep, position] at taken
      split at taken <;> cases taken
      · rename_i unmarked
        cases slot : s.guarded.flushCompletion with
        | none =>
            refine quiet ?_ (by rw [load_endIteration, unloaded]) rfl
            cases guarded : s.guarded
            simp_all
        | some completion => exact .take completion leaving position unmarked slot rfl rfl rfl
      · exact quiet rfl (by rw [load_endIteration, unloaded]) rfl
  | startCompletion completion leaving =>
      simp only [workerStep, position, Option.some.injEq] at taken
      subst taken
      exact .start completion leaving position rfl rfl rfl
  | destroy | storeDraining | storeRunning =>
      simp only [workerStep, position, Option.some.injEq] at taken
      subst taken
      exact quiet rfl (by rw [position]; rfl) rfl

/-- Every step has one of the listed effects. -/
theorem step_effect {a : Action β κ} (taken : step o s a = some s') : Effect o s a s' := by
  cases a with
  | call => exact call_effect taken
  | client => exact client_effect taken
  | worker => exact worker_effect taken

/-- Clients start and join the worker, and do not move it otherwise. -/
theorem client_worker {thread : Nat} {now : Int} (taken : clientStep o s thread now = some s') :
    s'.worker = s.worker ∨ s.worker = .absent ∧ s'.worker = .readDraining ∨
      s.worker = .finished ∧ s'.worker = .absent := by
  cases position : s.clients thread <;> simp only [clientStep, position] at taken
  case idle => cases taken
  case runSpawn =>
      split at taken <;> cases taken
      rename_i absent
      exact .inr (.inl ⟨absent, rfl⟩)
  case drainJoin =>
      split at taken <;> cases taken
      · exact .inl rfl
      · rename_i finished
        exact .inr (.inr ⟨finished, rfl⟩)
  all_goals
    repeat split at taken
    all_goals cases taken
    all_goals exact .inl rfl

theorem call_worker {thread : Nat} {method : Call β κ}
    (taken : callStep s thread method = some s') : s'.worker = s.worker := by
  obtain ⟨-, events, rfl, -⟩ := call_entry taken
  rfl

/-- Inside an iteration only the worker itself moves the worker. -/
theorem step_worker {a : Action β κ} (taken : step o s a = some s') :
    s'.worker = s.worker ∨ s.worker = .absent ∧ s'.worker = .readDraining ∨
      s.worker = .finished ∧ s'.worker = .absent ∨
      ∃ now ok, a = .worker now ok ∧ workerStep o s now ok = some s' := by
  cases a with
  | call => exact .inl (call_worker taken)
  | client =>
      rcases client_worker taken with same | spawned | joined
      · exact .inl same
      · exact .inr (.inl spawned)
      · exact .inr (.inr (.inl joined))
  | worker now ok => exact .inr (.inr (.inr ⟨now, ok, rfl, taken⟩))

/-- The worker has a record that it has tested. -/
def Worker.midway : Worker β κ → Bool
  | .decideFlush _ | .requeue _ | .write _ | .settle _ _ => true
  | _ => false

/-- The worker gets this far only by way of the steps before. -/
theorem step_midway {a : Action β κ} (taken : step o s a = some s')
    (midway : s'.worker.midway = true) :
    s'.worker = s.worker ∨ ∃ now ok record, a = .worker now ok ∧
      workerStep o s now ok = some s' ∧
      (s.worker = .retain record ∨ s.worker = .decideFlush record ∨ s.worker = .write record) := by
  rcases step_worker taken with same | ⟨-, spawned⟩ | ⟨-, joined⟩ | ⟨now, ok, acts, moves⟩
  · exact .inl same
  · simp [spawned, Worker.midway] at midway
  · simp [joined, Worker.midway] at midway
  · cases position : s.worker with
    | retain record => exact .inr ⟨now, ok, record, acts, moves, .inl rfl⟩
    | decideFlush record => exact .inr ⟨now, ok, record, acts, moves, .inr (.inl rfl)⟩
    | write record => exact .inr ⟨now, ok, record, acts, moves, .inr (.inr rfl)⟩
    | runCompletion leaving =>
        simp only [workerStep, position] at moves
        split at moves <;> cases moves
        · cases slot : s.guarded.flushCompletion <;> cases leaving <;>
            simp [slot, Worker.endIteration, Worker.midway] at midway
        · cases leaving <;> simp [Worker.endIteration, Worker.midway] at midway
    | startCompletion completion leaving =>
        simp only [workerStep, position] at moves
        cases moves
        cases leaving <;> simp [Worker.endIteration, Worker.midway] at midway
    | _ =>
        simp only [workerStep, position] at moves
        repeat split at moves
        all_goals cases moves
        all_goals simp_all [Worker.midway]

/-- The worker asks whether to flush a record that it has just tested.  In
    circular mode the record has passed the test. -/
theorem step_decideFlush {a : Action β κ} {record : FlushInfo β}
    (taken : step o s a = some s') (after : s'.worker = .decideFlush record) :
    s.worker = .decideFlush record ∨ ∃ now ok, a = .worker now ok ∧ s.worker = .retain record ∧
      s'.log = s.log ++ [.tested record.id now] ∧
      (o.flushAllEvents = false → retained o record now = true) := by
  rcases step_midway taken (by rw [after]; rfl) with same | ⟨now, ok, other, acts, moves, before⟩
  · exact .inl (same ▸ after)
  · rcases before with position | position | position <;>
      simp only [workerStep, position] at moves <;> cases moves
    · simp only [emit_worker] at after
      split at after
      · cases after
      · rename_i kept
        obtain rfl : other = record := by simpa using after
        refine .inr ⟨now, ok, acts, position, rfl, ?_⟩
        intro circular
        simpa [circular] using kept
    · split at after <;> cases after
    · cases after

/-- The worker writes or puts back a record after it has asked whether to flush it. -/
theorem step_flushDecision {a : Action β κ} {record : FlushInfo β}
    (taken : step o s a = some s')
    (after : s'.worker = .write record ∨ s'.worker = .requeue record) :
    s.worker = s'.worker ∨ s.worker = .decideFlush record ∧ s'.guarded = s.guarded ∧
      s'.log = s.log ∧ (s'.worker = .write record ↔
        o.flushAllEvents = true ∨ record.flushTimestamp ≤ s.guarded.flushTimestamp) := by
  have midway : s'.worker.midway = true := by
    rcases after with after | after <;> rw [after] <;> rfl
  rcases step_midway taken midway with same | ⟨now, ok, other, acts, moves, before⟩
  · exact .inl same.symm
  · rcases before with position | position | position <;>
      simp only [workerStep, position] at moves <;> cases moves
    · simp only [emit_worker] at after
      split at after <;> simp at after
    · obtain rfl : other = record := by
        simp only at after
        split at after <;> simpa using after
      refine .inr ⟨position, rfl, rfl, ?_⟩
      by_cases flushes : (o.flushAllEvents ||
          decide (other.flushTimestamp ≤ s.guarded.flushTimestamp)) = true
      · rw [if_pos flushes]
        simpa using flushes
      · rw [if_neg flushes]
        simpa using flushes
    · simp at after

/-- The worker settles a record that it has just written. -/
theorem step_settle {a : Action β κ} {record : FlushInfo β} {ok : Bool}
    (taken : step o s a = some s') (after : s'.worker = .settle record ok) :
    s.worker = .settle record ok ∨ ∃ now written, a = .worker now ok ∧ s.worker = .write written ∧
      record = { written with
        remainingFlushAttempts := decInt32 written.remainingFlushAttempts } := by
  rcases step_midway taken (by rw [after]; rfl) with
    same | ⟨now, answer, written, acts, moves, before⟩
  · exact .inl (same ▸ after)
  · rcases before with position | position | position <;>
      simp only [workerStep, position] at moves <;> cases moves
    · simp only [emit_worker] at after
      split at after <;> cases after
    · split at after <;> cases after
    · obtain ⟨rfl, rfl⟩ := (Worker.settle.injEq ..).mp after
      exact .inr ⟨now, written, acts, position, rfl⟩

end

end Spoor.FlushQueue.DiskFlushQueue
