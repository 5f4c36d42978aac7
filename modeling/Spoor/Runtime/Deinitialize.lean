import Spoor.Runtime.Conservation
import Spoor.Runtime.Phases

/-! # The pool at the end of `Deinitialize`

`Deinitialize` takes the buffers away from all loggers, empties the queue and
joins its worker before it destroys the pool.  Every slice is back by then if the
queue really is empty when its worker leaves.  That rests on `queue_size_`, which
`Clear` stores as zero although the worker may hold a record: the record goes back
to the deque, the drain ends with it there, and its slices outlive the pool.
-/

namespace Spoor.Runtime.RuntimeManager

open Buffer EventLogging FlushQueue FlushQueue.DiskFlushQueue Lib.Transition

variable {n : Nat} {α κ : Type} {o : Options α} {s s' : System n α κ} {thread : Fin n}

/-- The call may still find a buffer with the logger. -/
def Position.awaits (owner : Fin n) : Position n κ → Bool
  | .detach rest => owner ∈ rest
  | .drop logger rest => owner = logger || owner ∈ rest
  | .flush _ _ true | .clear _ true | .drainAndStop | .resetPool => false
  | _ => true

/-- Only subscribed loggers have a buffer, and `Deinitialize` takes it away from one
    after the other. -/
structure Detached (s : System n α κ) : Prop where
  subscribed : ∀ owner, (s.loggers owner).present = true → owner ∈ s.eventLoggers
  attaching : ∀ caller rest, s.call = some (caller, .attach rest) →
    s.code caller = [] ∧ ∀ owner ∈ rest, owner ∈ s.eventLoggers
  awaited : ∀ caller position, s.call = some (caller, position) →
    ∀ owner, (s.loggers owner).present = true → position.awaits owner = true

theorem Detached.initially : Detached (initial : System n α κ) where
  subscribed := by simp [initial, ThreadLocal.present]
  attaching := by simp [initial]
  awaited := by simp [initial]

theorem mem_of_loops {order : List (Fin n)} (loops : s.loops order = true) {owner : Fin n} :
    owner ∈ order ↔ owner ∈ s.eventLoggers := by
  simp only [System.loops, Bool.and_eq_true, decide_eq_true_eq] at loops
  rw [← loops.2, List.mem_toFinset]

theorem construct_detached (detached : Detached s) (uncalled : s.call = none)
    (constructed : s.construct o thread = some s') : Detached s' := by
  have call := (construct_call constructed).1.trans uncalled
  refine ⟨?_, by simp [call], by simp [call]⟩
  simp only [System.construct] at constructed
  split at constructed <;> cases constructed
  · intro owner present
    by_cases same : owner = thread
    · exact Finset.mem_insert.mpr (.inl same)
    · simp only [Function.update_of_ne same] at present
      exact Finset.mem_insert_of_mem (detached.subscribed owner present)
  · exact detached.subscribed

theorem awaits_resting {position : Position n κ} (resting : position.resting = true)
    (owner : Fin n) : position.awaits owner = true := by
  rcases resting_cases resting with rfl | ⟨rest, completion, rfl⟩ | ⟨rest, rfl⟩ <;> rfl

theorem call_detached (detached : Detached s) (called : Called o s thread s') : Detached s' := by
  cases called with
  | flag => exact ⟨detached.subscribed, detached.attaching, detached.awaited⟩
  | log t code uncalled constructed =>
      have after := construct_detached detached uncalled constructed
      have call := (construct_call constructed).1.trans uncalled
      exact ⟨after.subscribed, by simp [System.goto, call], by simp [System.goto, call]⟩
  | exit code uncalled =>
      exact ⟨detached.subscribed, by simp [System.goto, uncalled], by simp [System.goto, uncalled]⟩
  | begin position enabled uncalled _ resting =>
      refine ⟨detached.subscribed, ?_, ?_⟩
      · rintro caller rest ⟨⟩
        cases resting
      · rintro caller _ ⟨⟩ owner _
        exact awaits_resting resting owner
  | launch order _ uncalled outside _ loops entered =>
      obtain ⟨queue, -, rfl⟩ := enter_queue entered
      refine ⟨detached.subscribed, ?_, ?_⟩
      · rintro _ _ ⟨⟩
        exact ⟨(outside_iff.mp (outside thread)).1, fun owner => (mem_of_loops loops).mp⟩
      · rintro _ _ ⟨⟩ owner _
        rfl

theorem execute_detached {instruction : Instruction n α} {rest : List (Instruction n α)}
    (detached : Detached s) (exclusive : Exclusive s)
    (next : s.code thread = instruction :: rest) (executed : Executed thread s s') :
    Detached s' := by
  have subscribed : ∀ owner, (s'.loggers owner).present = true → owner ∈ s'.eventLoggers := by
    intro owner present
    obtain ⟨before, stays⟩ := executed.present owner present
    exact stays (detached.subscribed owner before)
  refine ⟨subscribed, ?_, ?_⟩
  · intro caller attaching called
    rw [executed.call] at called
    have none : s.code thread = [] := by
      by_cases own : thread = caller
      · exact own ▸ (detached.attaching caller attaching called).1
      · exact (exclusive caller _ called thread own).1
    cases none.symm.trans next
  · intro caller position called owner present
    rw [executed.call] at called
    exact detached.awaited caller position called owner (executed.present owner present).1

/-- The call moves on while no logger gets a buffer. -/
theorem Detached.proceed {position after : Position n κ} (detached : Detached s)
    (called : s.call = some (thread, position)) (calls : s'.call = some (thread, after))
    (eventLoggers : s'.eventLoggers = s.eventLoggers)
    (present : ∀ owner, (s'.loggers owner).present = true →
      (s.loggers owner).present = true ∧ (position.awaits owner = true → after.awaits owner = true))
    (attached : ∀ rest, after ≠ .attach rest) : Detached s' := by
  refine ⟨?_, ?_, ?_⟩
  · intro owner has
    rw [eventLoggers]
    exact detached.subscribed owner (present owner has).1
  · intro caller rest calling
    rw [calls] at calling
    obtain ⟨rfl, next⟩ := Prod.mk.inj (Option.some.inj calling)
    exact absurd next (attached rest)
  · intro caller next calling owner has
    rw [calls] at calling
    obtain ⟨rfl, rfl⟩ := Prod.mk.inj (Option.some.inj calling)
    obtain ⟨had, awaits⟩ := present owner has
    exact awaits (detached.awaited _ position called owner had)

theorem Detached.ended (detached : Detached s) (call : s'.call = none)
    (eventLoggers : s'.eventLoggers = s.eventLoggers) (loggers : s'.loggers = s.loggers) :
    Detached s' := by
  refine ⟨?_, by simp [call], by simp [call]⟩
  rw [loggers, eventLoggers]
  exact detached.subscribed

theorem advance_detached {position : Position n κ} (detached : Detached s)
    (called : s.call = some (thread, position)) (advanced : Advanced s thread position s') :
    Detached s' := by
  cases advanced with
  | initialized | uninitialized | resetPool => exact detached.ended rfl rfl rfl
  | attach owner rest logger notified alive =>
      obtain ⟨code, members⟩ := detached.attaching thread _ called
      refine ⟨?_, ?_, ?_⟩
      · intro other present
        by_cases same : other = owner
        · exact same ▸ members owner List.mem_cons_self
        · simp only [System.replaceLogger, Function.update_of_ne same] at present
          exact detached.subscribed other present
      · rintro _ _ ⟨⟩
        exact ⟨code, fun other member => members other (List.mem_cons_of_mem _ member)⟩
      · rintro _ _ ⟨⟩ other _
        rfl
  | deinitialized order _ loops =>
      refine ⟨detached.subscribed, by simp, ?_⟩
      rintro _ _ ⟨⟩ owner present
      exact decide_eq_true ((mem_of_loops loops).mpr (detached.subscribed owner present))
  | detach owner rest logger notified alive =>
      refine detached.proceed called rfl rfl ?_ (by simp)
      intro other present
      refine ⟨present_update ?_ present, ?_⟩
      · rw [alive]
        exact id
      · simp [Position.awaits]
  | drop owner rest logger notified alive =>
      refine detached.proceed called rfl rfl ?_ (by simp)
      intro other present
      by_cases same : other = owner
      · subst same
        simp [System.replaceLogger, ThreadLocal.present, RuntimeManager.detached] at present
      · simp only [System.replaceLogger, Function.update_of_ne same] at present
        exact ⟨present, by simp [Position.awaits, same]⟩
  | detached order position next =>
      refine detached.proceed called rfl rfl ?_ ?_
      · intro owner present
        exact ⟨present, by simp [Position.awaits]⟩
      · rcases next with rfl | rfl <;> simp
  | flush owner rest completion deinitializing =>
      refine detached.proceed called rfl rfl ?_ (by simp)
      intro other present
      exact ⟨present, by cases deinitializing <;> exact id⟩
  | flushQueue completion deinitializing _ entered | clearQueue deinitializing _ entered =>
      obtain ⟨queue, -, rfl⟩ := enter_queue entered
      cases deinitializing with
      | true => exact detached.proceed called rfl rfl (fun _ present => ⟨present, id⟩) (by simp)
      | false => exact detached.ended rfl rfl rfl
  | clear owner rest deinitializing logger notified alive =>
      refine detached.proceed called rfl rfl ?_ (by simp)
      intro other present
      refine ⟨present_update ?_ present, by cases deinitializing <;> exact id⟩
      rw [alive]
      simp [ThreadLocal.present]
  | drainAndStop _ entered =>
      obtain ⟨queue, -, rfl⟩ := enter_queue entered
      exact detached.proceed called rfl rfl (fun _ present => ⟨present, id⟩) (by simp)

theorem thread_detached (detached : Detached s) (exclusive : Exclusive s)
    (threaded : Threaded o s thread s') : Detached s' := by
  cases threaded with
  | giveBack | client => exact ⟨detached.subscribed, detached.attaching, detached.awaited⟩
  | execute instruction rest overtaken _ _ _ next executes =>
      have executed := instructed_executed (execute_instructed executes)
      exact execute_detached detached exclusive next executed
  | advance position order _ _ _ _ called advances =>
      exact advance_detached detached called (advance_advanced advances)

theorem worker_detached (detached : Detached s) (worked : Worked o s s') : Detached s' := by
  cases worked <;> exact ⟨detached.subscribed, detached.attaching, detached.awaited⟩

/-- The caller is about to execute `pool_ = nullptr`. -/
structure System.Resetting (s : System n α κ) (caller : Fin n) : Prop where
  call : s.call = some (caller, .resetPool)
  code : s.code caller = []
  released : s.releasing caller = []
  idle : s.queue.clients caller = .idle

/-- No slice is in anybody's hands, and both pools are full. -/
structure System.Returned (s : System n α κ) : Prop where
  loggers : ∀ owner, (s.loggers owner).slices = []
  threads : ∀ thread, s.releasing thread = [] ∧ (s.queue.clients thread).offered = []
  queue : s.queue.guarded.queue = []
  worker : s.queue.worker.carried = [] ∧ s.workerReleasing = []
  full : ∃ pool, s.pool = some pool ∧ pool.reserved.full = true ∧ pool.dynamic.full = true

theorem slices_of_absent {logger : ThreadLocal α} (absent : logger.present = false) :
    logger.slices = [] := by
  cases logger with
  | alive logger notified =>
      cases held : logger.buffer with
      | none => simp [ThreadLocal.slices, held]
      | some buffer => simp [ThreadLocal.present, held] at absent
  | _ => rfl

/-- Before the pool is reset, every slice has left every hand. -/
theorem hands_empty {caller : Fin n} (exclusive : Exclusive s) (phased : Phased s)
    (detached : Detached s) (call : s.call = some (caller, .resetPool))
    (released : s.releasing caller = []) (idle : s.queue.clients caller = .idle) :
    (∀ owner, (s.loggers owner).slices = []) ∧
      (∀ thread, s.releasing thread = [] ∧ (s.queue.clients thread).offered = []) ∧
      s.queue.guarded.queue = [] ∧ s.queue.worker.carried = [] ∧ s.workerReleasing = [] := by
  have stopped : Stopped s.queue := by
    have phase : s.phase = .stopped := by
      simp only [System.phase, call, idle]
      rfl
    exact phased.holds phase
  refine ⟨?_, ?_, stopped.queue, ?_, ?_⟩
  · intro owner
    apply slices_of_absent
    by_contra present
    have awaited := detached.awaited caller _ call owner (by simpa using present)
    cases awaited
  · intro other
    by_cases same : other = caller
    · subst same
      exact ⟨released, by rw [idle]; rfl⟩
    · obtain ⟨-, none, outside⟩ := exclusive caller _ call other same
      exact ⟨none, by rw [outside]; rfl⟩
  · rw [stopped.worker]
    rfl
  · by_contra releases
    have looping := phased.releasing releases
    rw [stopped.worker] at looping
    cases looping

theorem tokens_of_hands_empty (loggers : ∀ owner, (s.loggers owner).slices = [])
    (threads : ∀ thread : Fin n,
      s.releasing thread = [] ∧ (s.queue.clients thread).offered = [])
    (queue : s.queue.guarded.queue = []) (carried : s.queue.worker.carried = [])
    (releasing : s.workerReleasing = []) : s.tokens = 0 := by
  simp [System.tokens, loggerTokens, releasingTokens, offeredTokens, State.buffers, loggers,
    threads, queue, carried, releasing]

/-- What holds in every state the manager reaches. -/
structure Sound (s : System n α κ) : Prop where
  exclusive : Exclusive s
  phased : Phased s
  detached : Detached s
  conserved : s.Conserved

theorem Sound.initially : Sound (initial : System n α κ) where
  exclusive := by simp [Exclusive, initial]
  phased := .initially
  detached := .initially
  conserved := by
    refine tokens_of_hands_empty (fun _ => rfl) (fun _ => ⟨rfl, rfl⟩) rfl rfl rfl

theorem Sound.called (sound : Sound s) (called : Called o s thread s') : Sound s' := by
  obtain ⟨exclusive, phased, detached, conserved⟩ := sound
  have unpooled : s.call = none → s.initialized = false → s.pool = none := by
    intro uncalled uninitialized
    have pooled := phased.pooled
    simpa [System.busy, uncalled, uninitialized] using pooled
  exact ⟨call_exclusive exclusive called, call_phased phased called,
    call_detached detached called, call_conserved conserved unpooled called⟩

theorem Sound.threaded {now : Int} {overtaken : Overtaken} {order : List (Fin n)}
    (sound : Sound s) (conforms : ClearsUnheld s (.thread thread now overtaken order))
    (taken : s.threadStep o thread now overtaken order = some s') : Sound s' := by
  obtain ⟨exclusive, phased, detached, conserved⟩ := sound
  have threaded := thread_threaded taken
  have resets : s.call = some (thread, .resetPool) → s.releasing thread = [] →
      s.queue.clients thread = .idle → s.tokens = 0 := by
    intro call released idle
    obtain ⟨loggers, threads, queue, carried, releasing⟩ :=
      hands_empty exclusive phased detached call released idle
    exact tokens_of_hands_empty loggers threads queue carried releasing
  exact ⟨thread_exclusive exclusive threaded, thread_phased phased exclusive conforms threaded,
    thread_detached detached exclusive threaded, thread_conserved conserved resets threaded⟩

theorem Sound.worked (sound : Sound s) (worked : Worked o s s') : Sound s' where
  exclusive := worker_exclusive sound.exclusive worked
  phased := worker_phased sound.phased worked
  detached := worker_detached sound.detached worked
  conserved := worker_conserved sound.conserved worked

theorem step_sound {a : Action n α κ} (sound : Sound s) (conforms : ClearsUnheld s a)
    (taken : step o s a = some s') : Sound s' := by
  cases a with
  | call thread method order => exact sound.called (call_called taken)
  | thread thread now overtaken order => exact sound.threaded conforms taken
  | worker now ok => exact sound.worked (worker_worked taken)

/-- Every slice is back in the pool when `Deinitialize` destroys it. -/
theorem Sound.returned {caller : Fin n} (sound : Sound s) (resetting : s.Resetting caller) :
    s.Returned := by
  obtain ⟨exclusive, phased, detached, conserved⟩ := sound
  obtain ⟨call, -, released, idle⟩ := resetting
  obtain ⟨loggers, threads, queue, carried, releasing⟩ :=
    hands_empty exclusive phased detached call released idle
  refine ⟨loggers, threads, queue, ⟨carried, releasing⟩, ?_⟩
  have none : s.tokens = 0 := tokens_of_hands_empty loggers threads queue carried releasing
  have pooled : s.pool.isSome = true := by
    rw [phased.pooled]
    simp [System.busy, call, Position.resting]
  obtain ⟨pool, holds⟩ := Option.isSome_iff_exists.mp pooled
  simp only [System.Conserved, holds, none] at conserved
  exact ⟨pool, holds, conserved.reserved.isFull, conserved.dynamic.isFull⟩

/-- A manager that keeps the latest events for five nanoseconds. -/
def keepLatest : Options Nat where
  queue :=
    { bufferRetentionDuration := 5
      sessionId := 0
      processId := 0
      maxBufferFlushAttempts := 1
      flushAllEvents := false
      threadIdHash := fun thread => BitVec.ofNat 64 thread }
  pool := ⟨⟨2, 4, by decide⟩, ⟨2, 4, 1, by decide⟩⟩
  value := 0
  threadEventBufferCapacity := 2
  flushAllEvents := false

/-- Steps of the only thread. -/
def threadSteps (count : Nat) (order : List (Fin 1)) : List (Action 1 Nat Unit) :=
  List.replicate count (.thread 0 1 ⟨0, 0⟩ order)

end Spoor.Runtime.RuntimeManager
