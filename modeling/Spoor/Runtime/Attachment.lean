import Spoor.Runtime.EventOrder
import Spoor.Runtime.Progress

/-! # Loggers and their buffers

A logger has a buffer from the time `Initialize` comes to it until `Deinitialize` or the
end of its thread takes the buffer away.  Whoever takes a buffer away has flushed the
logger before, and nobody logs in between.  So no event is in a buffer that is dropped,
and while the runtime is initialised no thread finds its logger without one.
-/

namespace Spoor.Runtime.RuntimeManager

open Buffer EventLogging FlushQueue FlushQueue.DiskFlushQueue Lib.Transition

variable {n : Nat} {α κ : Type} {o : Options α} {s s' : System n α κ} {thread : Fin n}

/-- What a thread may still have to do. -/
def Scripted (thread : Fin n) : List (Instruction n α) → Prop
  | [] => True
  | .logEvent _ :: rest | .destroy :: rest => rest = []
  | .flush owner :: rest | .renew owner :: rest =>
      rest = [] ∨ owner = thread ∧ (rest = [.unsubscribe, .destroy] ∨ rest = [.leave, .destroy])
  | .unsubscribe :: rest | .leave :: rest => rest = [.destroy]

/-- The logger that has been flushed before the next instruction. -/
def flushed? (thread : Fin n) : List (Instruction n α) → Option (Fin n)
  | .renew owner :: _ => some owner
  | .unsubscribe :: _ | .leave :: _ | .destroy :: _ => some thread
  | .logEvent _ :: _ | .flush _ :: _ | [] => none

/-- No event is in a buffer that is dropped next. -/
structure Tidy (s : System n α κ) : Prop where
  scripted : ∀ thread, Scripted thread (s.code thread)
  logging : ∀ thread event, .logEvent event ∈ s.code thread → s.call = none
  emptied : ∀ thread owner, flushed? thread (s.code thread) = some owner →
    (s.loggers owner).events = []
  dropping : ∀ caller owner rest, s.call = some (caller, .drop owner rest) →
    (s.loggers owner).events = [] ∨ s.code caller = [.flush owner]
  attaching : ∀ caller rest, s.call = some (caller, .attach rest) →
    ∀ owner, (s.loggers owner).events = []

theorem Tidy.initial : Tidy (initial : System n α κ) := by
  constructor <;> simp [RuntimeManager.initial, Scripted, flushed?]

/-! ## What becomes of an empty logger -/

theorem events_of_slices {threadLocal : ThreadLocal α} (none : threadLocal.slices = []) :
    threadLocal.events = [] := by
  cases threadLocal with
  | alive logger notified =>
      cases held : logger.buffer with
      | none => simp [ThreadLocal.events, held]
      | some buffer =>
          have empty : buffer.slices = [] := by simpa [ThreadLocal.slices, held] using none
          have same : moved buffer = buffer := by rw [moved, ← empty]
          rw [events_alive held, ← same]
          exact contentsOf_moved buffer
  | unconstructed | destroyed => rfl

/-- Entering a method leaves the events where they are. -/
theorem call_events {method : Method α κ} {order : List (Fin n)}
    (taken : s.callStep o thread method order = some s') (owner : Fin n) :
    (s'.loggers owner).events = (s.loggers owner).events := by
  cases call_called taken with
  | flag | exit | begin => rfl
  | launch order _ _ _ _ _ entered =>
      obtain ⟨queue, -, rfl⟩ := enter_queue entered
      rfl
  | log t code _ constructed =>
      simp only [System.construct] at constructed
      split at constructed <;> cases constructed
      · rename_i unconstructed
        by_cases same : owner = thread
        · subst same
          simp only [System.goto, Function.update_self, unconstructed]
          exact (blank_setPool _ _ _).events
        · simp [System.goto, same]
      · rfl

/-- A logger that is replaced by an empty one. -/
theorem events_update {owner other : Fin n} {after : ThreadLocal α}
    (blank : (s.loggers owner).events = [] → after.events = [])
    (empty : (s.loggers other).events = []) :
    (Function.update s.loggers owner after other).events = [] := by
  by_cases same : other = owner
  · subst same
    rw [Function.update_self]
    exact blank empty
  · rwa [Function.update_of_ne same]

theorem blank_detached (logger : EventLogger Owner α) (notified : Bool) :
    (ThreadLocal.alive (detached logger) notified).Blank := by
  intro buffer made
  cases made

theorem execute_empty {instruction : Instruction n α} {rest : List (Instruction n α)}
    (instructed : Instructed s thread rest instruction s') {owner : Fin n}
    (empty : (s.loggers owner).events = []) :
    (s'.loggers owner).events = [] ∨ owner = thread ∧ ∃ event, instruction = .logEvent event := by
  cases instructed with
  | ignore | keep | unsubscribe => exact .inl empty
  | push event overtaken logger notified pool =>
      by_cases same : owner = thread
      · exact .inr ⟨same, event, rfl⟩
      · exact .inl (by simpa [System.goto, same] using empty)
  | pass place logger notified buffer _ _ _ entered =>
      obtain ⟨queue, -, rfl⟩ := enter_queue entered
      refine .inl (events_update (fun _ => ?_) empty)
      rw [events_alive rfl, contentsOf_moved]
  | renew place logger notified =>
      exact .inl (events_update (fun _ => (blank_renewed logger notified).events) empty)
  | leave logger notified =>
      exact .inl (events_update (fun _ => (blank_detached logger notified).events) empty)
  | destroy => exact .inl (events_update (fun _ => rfl) empty)

theorem advance_empty {position : Position n κ} (advanced : Advanced s thread position s')
    {owner : Fin n} (empty : (s.loggers owner).events = []) : (s'.loggers owner).events = [] := by
  cases advanced with
  | initialized | uninitialized | deinitialized | detached | flush | resetPool => exact empty
  | attach place rest logger notified =>
      exact events_update (fun _ => (blank_setPool logger true notified).events) empty
  | detach place rest logger notified alive =>
      refine events_update (fun empty => ?_) empty
      rw [alive] at empty
      exact empty
  | drop place rest logger notified =>
      exact events_update (fun _ => (blank_detached logger notified).events) empty
  | clear place rest deinitializing logger notified =>
      refine events_update (fun _ => ThreadLocal.Blank.events ?_) empty
      intro buffer made
      obtain ⟨earlier, -, rfl⟩ := Option.map_eq_some_iff.mp made
      exact ⟨earlier.capacity, rfl⟩
  | flushQueue _ _ _ entered | clearQueue _ _ entered | drainAndStop _ entered =>
      obtain ⟨queue, -, rfl⟩ := enter_queue entered
      exact empty

theorem empty_of_kept {logger : EventLogger Owner α} {buffer : CircularSliceBuffer Owner α}
    (present : logger.buffer = some buffer) (kept : logger.flush.2 = none) :
    buffer.empty = true := by
  by_contra filled
  simp [EventLogger.flush, present, filled] at kept

/-- A logger that has nothing to pass on is empty. -/
theorem events_of_kept {owner : Fin n} {logger : EventLogger Owner α} {notified : Bool}
    (alive : s.loggers owner = .alive logger notified) (kept : logger.flush.2 = none) :
    (s.loggers owner).events = [] := by
  rw [alive]
  cases held : logger.buffer with
  | none => simp [ThreadLocal.events, held]
  | some buffer =>
      rw [events_alive held]
      simp [contentsOf, CircularSliceBuffer.contiguousMemoryChunks, empty_of_kept held kept]

/-- What an instruction has flushed, the rest finds empty. -/
theorem execute_flushed {instruction : Instruction n α} {rest : List (Instruction n α)}
    (instructed : Instructed s thread rest instruction s')
    (scripted : Scripted thread (instruction :: rest))
    (emptied : ∀ owner, flushed? thread (instruction :: rest) = some owner →
      (s.loggers owner).events = []) :
    Scripted thread (s'.code thread) ∧ (∀ event, .logEvent event ∉ s'.code thread) ∧
      ∀ owner, flushed? thread (s'.code thread) = some owner →
        (s'.loggers owner).events = [] := by
  cases instructed with
  | ignore event =>
      obtain rfl : rest = [] := scripted
      simp [Scripted, flushed?]
  | push event overtaken logger notified pool code _ _ _ chosen =>
      obtain rfl : rest = [] := scripted
      rw [goto_self]
      split at chosen <;> subst chosen <;> simp [Scripted, flushed?]
  | keep owner logger notified alive kept =>
      have empty := events_of_kept alive kept
      rw [goto_self]
      rcases scripted with rfl | ⟨rfl, rfl | rfl⟩
      · simp [Scripted, flushed?]
      · simpa [Scripted, flushed?, System.goto] using empty
      · simpa [Scripted, flushed?, System.goto] using empty
  | pass owner logger notified buffer _ alive _ entered =>
      obtain ⟨queue, -, rfl⟩ := enter_queue entered
      have none : (ThreadLocal.alive { logger with buffer := some (moved buffer) }
          notified).events = [] := by
        rw [events_alive rfl, contentsOf_moved]
      rcases scripted with rfl | ⟨rfl, rfl | rfl⟩ <;>
        simpa [System.goto, Scripted, flushed?] using none
  | renew owner logger notified =>
      have none := (blank_renewed logger notified).events
      rw [goto_self]
      rcases scripted with rfl | ⟨rfl, rfl | rfl⟩
      · simp [Scripted, flushed?]
      · simpa [Scripted, flushed?, System.goto, System.replaceLogger] using none
      · simpa [Scripted, flushed?, System.goto, System.replaceLogger] using none
  | unsubscribe logger notified =>
      obtain rfl : rest = [.destroy] := scripted
      have empty := emptied thread rfl
      rw [goto_self]
      cases notified with
      | true => simp [Scripted, flushed?]
      | false => simpa [Scripted, flushed?, System.goto] using empty
  | leave logger notified =>
      obtain rfl : rest = [.destroy] := scripted
      have none := (blank_detached logger notified).events
      simpa [System.goto, System.replaceLogger, Scripted, flushed?] using none
  | destroy =>
      obtain rfl : rest = [] := scripted
      simp [Scripted, flushed?]

/-! ## Every step drops empty buffers only -/

/-- Without a pool, no logger has a slice. -/
theorem Sound.slices_of_idle (sound : Sound s) (uncalled : s.call = none)
    (uninitialized : s.initialized = false) (owner : Fin n) : (s.loggers owner).slices = [] := by
  have unpooled : s.pool = none := by
    simpa [System.busy, uncalled, uninitialized] using sound.phased.pooled
  have out : s.tokens = 0 := by simpa [System.Conserved, unpooled] using sound.conserved
  simp only [System.tokens, add_eq_zero] at out
  obtain ⟨⟨⟨⟨loggers, -⟩, -⟩, -⟩, -⟩ := out
  have none : ptrTokens (s.loggers owner).slices = 0 :=
    Finset.sum_eq_zero_iff.mp loggers owner (Finset.mem_univ owner)
  simpa [ptrTokens] using none

section Tidy

theorem Tidy.call {method : Method α κ} {order : List (Fin n)} (tidy : Tidy s)
    (sound : Sound s) (taken : s.callStep o thread method order = some s') : Tidy s' := by
  have entered := call_entered taken
  have events := call_events taken
  have called := call_called taken
  have code : ∀ other, s'.code other = s.code other ∨ other = thread ∧ s.code thread = [] ∧
      ((∃ event, s'.code thread = [.logEvent event]) ∨
        s'.code thread = [.flush thread, .unsubscribe, .destroy]) := by
    intro other
    by_cases same : other = thread
    · subst same
      rcases entered.code with none | ⟨event, -, logs⟩ | leaves
      · exact .inl (by rw [none, entered.idle])
      · exact .inr ⟨rfl, entered.idle, .inl ⟨event, logs⟩⟩
      · exact .inr ⟨rfl, entered.idle, .inr leaves⟩
    · exact .inl (entered.others other same)
  constructor
  · intro other
    rcases code other with same | ⟨rfl, -, ⟨event, logs⟩ | leaves⟩
    · rw [same]
      exact tidy.scripted other
    · simp [logs, Scripted]
    · simp [leaves, Scripted]
  · intro other event member
    cases called with
    | flag => exact tidy.logging other event member
    | log t code uncalled constructed => exact (construct_call constructed).1.trans uncalled
    | exit code uncalled => exact uncalled
    | begin position enabled _ outside => simp [(outside_iff.mp (outside other)).1] at member
    | launch order _ _ outside _ _ entered =>
        obtain ⟨queue, -, rfl⟩ := enter_queue entered
        simp [(outside_iff.mp (outside other)).1] at member
  · intro other owner flushes
    rw [events]
    rcases code other with same | ⟨rfl, -, ⟨event, logs⟩ | leaves⟩
    · rw [same] at flushes
      exact tidy.emptied other owner flushes
    · simp [logs, flushed?] at flushes
    · simp [leaves, flushed?] at flushes
  · intro caller owner rest drops
    cases called with
    | flag => exact tidy.dropping caller owner rest drops
    | log t code uncalled constructed =>
        cases drops.symm.trans ((construct_call constructed).1.trans uncalled)
    | exit code uncalled => cases drops.symm.trans uncalled
    | begin position enabled _ _ resting =>
        cases drops
        cases resting
    | launch order _ _ _ _ _ entered =>
        obtain ⟨queue, -, rfl⟩ := enter_queue entered
        cases drops
  · intro caller rest attaches owner
    rw [events]
    cases called with
    | flag => exact tidy.attaching caller rest attaches owner
    | log t code uncalled constructed =>
        cases attaches.symm.trans ((construct_call constructed).1.trans uncalled)
    | exit code uncalled => cases attaches.symm.trans uncalled
    | begin position enabled _ _ resting =>
        cases attaches
        cases resting
    | launch order _ uncalled _ uninitialized =>
        exact events_of_slices (sound.slices_of_idle uncalled uninitialized owner)

/-- Only the caller of a method that goes through all loggers has something to do. -/
theorem code_of_calling {instruction : Instruction n α} {rest : List (Instruction n α)}
    {caller : Fin n} {position : Position n κ} (exclusive : Exclusive s)
    (next : s.code thread = instruction :: rest) (called : s.call = some (caller, position)) :
    thread = caller := by
  by_contra differ
  simp [(exclusive caller position called thread differ).1] at next

theorem flushed?_eq {other owner : Fin n} {code : List (Instruction n α)}
    (flushes : flushed? other code = some owner) (differ : owner ≠ other) :
    ∃ rest, code = .renew owner :: rest := by
  cases code with
  | nil => cases flushes
  | cons instruction rest =>
      cases instruction with
      | renew place => exact ⟨rest, by simpa [flushed?] using flushes⟩
      | logEvent | flush => cases flushes
      | unsubscribe | leave | destroy => exact absurd (Option.some.inj flushes).symm differ

theorem Tidy.execute {instruction : Instruction n α} {rest : List (Instruction n α)}
    (tidy : Tidy s) (sound : Sound s) (disciplined : Disciplined s)
    (next : s.code thread = instruction :: rest)
    (instructed : Instructed s thread rest instruction s') : Tidy s' := by
  have executed := instructed_executed instructed
  obtain ⟨scripted, logless, emptied⟩ := execute_flushed instructed (next ▸ tidy.scripted thread)
    (next ▸ tidy.emptied thread)
  have logs : ∀ event, instruction = .logEvent event → s.call = none := by
    rintro event rfl
    exact tidy.logging thread event (by simp [next])
  constructor
  · intro other
    by_cases same : other = thread
    · exact same ▸ scripted
    · rw [executed.own.code other same]
      exact tidy.scripted other
  · intro other event member
    by_cases same : other = thread
    · exact absurd (same ▸ member) (logless event)
    · rw [executed.own.code other same] at member
      exact executed.call.trans (tidy.logging other event member)
  · intro other owner flushes
    by_cases same : other = thread
    · exact emptied owner (same ▸ flushes)
    · rw [executed.own.code other same] at flushes
      refine (execute_empty instructed (tidy.emptied other owner flushes)).resolve_right ?_
      rintro ⟨rfl, event, logging⟩
      obtain ⟨later, renews⟩ := flushed?_eq flushes (Ne.symm same)
      rcases disciplined.own other owner (.inr (by simp [renews])) with own | ⟨position, called⟩
      · exact same own.symm
      · cases called.symm.trans (logs event logging)
  · intro caller owner later drops
    rw [executed.call] at drops
    obtain rfl := code_of_calling sound.exclusive next drops
    refine .inl ?_
    rcases tidy.dropping thread owner later drops with empty | flushes
    · refine (execute_empty instructed empty).resolve_right ?_
      rintro ⟨-, event, logging⟩
      cases drops.symm.trans (logs event logging)
    · obtain ⟨rfl, rfl⟩ := List.cons_eq_cons.mp (next.symm.trans flushes)
      cases instructed with
      | keep _ logger notified alive kept => exact events_of_kept alive kept
      | pass _ logger notified buffer _ _ _ entered =>
          obtain ⟨queue, -, rfl⟩ := enter_queue entered
          simp only [System.goto, Function.update_self]
          rw [events_alive rfl, contentsOf_moved]
  · intro caller later attaches
    rw [executed.call] at attaches
    obtain rfl := code_of_calling sound.exclusive next attaches
    simp [(sound.detached.attaching thread later attaches).1] at next

theorem advanced_code {position : Position n κ} (code : ∀ other, s.code other = [])
    (advanced : Advanced s thread position s') (other : Fin n) :
    s'.code other = [] ∨ ∃ owner, s'.code other = [.flush owner] := by
  have goes : ∀ owner : Fin n, Function.update s.code thread [.flush owner] other = [] ∨
      ∃ place, Function.update s.code thread [.flush owner] other = [.flush place] := by
    intro owner
    by_cases own : other = thread
    · subst own
      exact .inr ⟨owner, Function.update_self ..⟩
    · rw [Function.update_of_ne own]
      exact .inl (code other)
  cases advanced with
  | detach owner => exact goes owner
  | flush owner => exact goes owner
  | flushQueue _ _ _ entered | clearQueue _ _ entered | drainAndStop _ entered =>
      obtain ⟨queue, -, rfl⟩ := enter_queue entered
      exact .inl (code other)
  | _ => exact .inl (code other)

theorem Tidy.advance {position : Position n κ} (tidy : Tidy s)
    (code : ∀ other, s.code other = []) (called : s.call = some (thread, position))
    (advanced : Advanced s thread position s') : Tidy s' := by
  have codes := advanced_code code advanced
  constructor
  · intro other
    rcases codes other with none | ⟨owner, flushes⟩
    · simp [none, Scripted]
    · simp [flushes, Scripted]
  · intro other event member
    rcases codes other with none | ⟨owner, flushes⟩
    · simp [none] at member
    · simp [flushes] at member
  · intro other owner flushed
    rcases codes other with none | ⟨owner, flushes⟩
    · simp [none, flushed?] at flushed
    · simp [flushes, flushed?] at flushed
  · intro caller owner rest drops
    cases advanced with
    | detach place =>
        cases drops
        exact .inr (goto_self _ _ _)
    | detached order next chosen =>
        cases drops
        rcases chosen with chosen | chosen <;> cases chosen
    | flushQueue _ deinitializing _ entered | clearQueue deinitializing _ entered =>
        obtain ⟨queue, -, rfl⟩ := enter_queue entered
        cases deinitializing <;> cases drops
    | drainAndStop _ entered =>
        obtain ⟨queue, -, rfl⟩ := enter_queue entered
        cases drops
    | _ => cases drops
  · intro caller rest attaches owner
    cases advanced with
    | attach place later logger notified alive =>
        exact advance_empty (.attach place later logger notified alive)
          (tidy.attaching thread _ called owner)
    | detached order next chosen =>
        cases attaches
        rcases chosen with chosen | chosen <;> cases chosen
    | flushQueue _ deinitializing _ entered | clearQueue deinitializing _ entered =>
        obtain ⟨queue, -, rfl⟩ := enter_queue entered
        cases deinitializing <;> cases attaches
    | drainAndStop _ entered =>
        obtain ⟨queue, -, rfl⟩ := enter_queue entered
        cases attaches
    | _ => cases attaches

theorem Tidy.frame (tidy : Tidy s) (code : s'.code = s.code) (call : s'.call = s.call)
    (loggers : s'.loggers = s.loggers) : Tidy s' := by
  obtain ⟨scripted, logging, emptied, dropping, attaching⟩ := tidy
  constructor
  · rwa [code]
  · rwa [code, call]
  · rwa [code, loggers]
  · rwa [code, call, loggers]
  · rwa [call, loggers]

theorem Sound.codes (sound : Sound s) {position : Position n κ} (code : s.code thread = [])
    (called : s.call = some (thread, position)) (other : Fin n) : s.code other = [] := by
  by_cases same : other = thread
  · exact same ▸ code
  · exact (sound.exclusive thread position called other same).1

theorem Tidy.step {a : Action n α κ} (tidy : Tidy s) (sound : Sound s)
    (disciplined : Disciplined s) (taken : step o s a = some s') : Tidy s' := by
  cases a with
  | call thread method order => exact tidy.call sound taken
  | worker now ok =>
      cases worker_worked taken with
      | giveBack | move => exact tidy.frame rfl rfl rfl
  | thread thread now overtaken order =>
      cases thread_threaded taken with
      | giveBack | client => exact tidy.frame rfl rfl rfl
      | execute instruction rest overtaken _ _ _ next executes =>
          exact tidy.execute sound disciplined next (execute_instructed executes)
      | advance position order _ _ _ code called advances =>
          exact tidy.advance (sound.codes code called) called (advance_advanced advances)

end Tidy

/-! ## Loggers have a buffer while the runtime is initialised -/

/-- The runtime is initialised, or `Initialize` has come to the logger. -/
def System.reaches (s : System n α κ) (owner : Fin n) : Prop :=
  s.initialized = true ∨ ∃ caller rest, s.call = some (caller, .attach rest) ∧ owner ∉ rest

structure Agreed (s : System n α κ) : Prop where
  subscribed : ∀ owner, (s.loggers owner).isAlive = true →
    owner ∈ s.eventLoggers ∨ s.code owner = [.destroy]
  buffered : ∀ owner, (s.loggers owner).isAttached = true → (s.loggers owner).present = true
  pooled : ∀ owner, (s.loggers owner).present = true → s.pool.isSome = true
  attached : ∀ owner ∈ s.eventLoggers, (s.loggers owner).isAlive = true → s.reaches owner →
    (s.loggers owner).isAttached = true

theorem Agreed.initial : Agreed (initial : System n α κ) := by
  constructor <;> simp [RuntimeManager.initial, ThreadLocal.isAlive, ThreadLocal.isAttached,
    ThreadLocal.present]

section Agreed

/-- One logger is replaced. -/
theorem Agreed.update (agreed : Agreed s) {owner : Fin n} {after : ThreadLocal α}
    (loggers : s'.loggers = Function.update s.loggers owner after)
    (eventLoggers : s'.eventLoggers = s.eventLoggers) (pool : s'.pool.isSome = s.pool.isSome)
    (alive : after.isAlive = true → (s.loggers owner).isAlive = true)
    (code : ∀ other, s'.code other = s.code other ∨ s.code other ≠ [.destroy] ∨
      other = owner ∧ after.isAlive = false)
    (buffered : after.isAttached = true → after.present = true)
    (pooled : after.present = true → s.pool.isSome = true)
    (reaches : ∀ other, other ≠ owner → s'.reaches other → s.reaches other)
    (attached : owner ∈ s.eventLoggers → after.isAlive = true → s'.reaches owner →
      after.isAttached = true) : Agreed s' := by
  have there : ∀ other, (s'.loggers other).isAlive = true → (s.loggers other).isAlive = true := by
    rw [loggers]
    exact (Function.forall_update_iff s.loggers fun other logger =>
      logger.isAlive = true → (s.loggers other).isAlive = true).mpr ⟨alive, fun _ _ => id⟩
  constructor
  · intro other living
    rw [eventLoggers]
    rcases agreed.subscribed other (there other living) with member | leaving
    · exact .inl member
    · rcases code other with same | differs | ⟨rfl, gone⟩
      · exact .inr (same.trans leaving)
      · exact absurd leaving differs
      · simp [loggers, gone] at living
  · rw [loggers]
    exact (Function.forall_update_iff s.loggers fun _ logger =>
      logger.isAttached = true → logger.present = true).mpr
      ⟨buffered, fun other _ => agreed.buffered other⟩
  · rw [loggers, pool]
    exact (Function.forall_update_iff s.loggers fun _ logger =>
      logger.present = true → s.pool.isSome = true).mpr
      ⟨pooled, fun other _ => agreed.pooled other⟩
  · rw [loggers, eventLoggers]
    exact (Function.forall_update_iff s.loggers fun other logger => other ∈ s.eventLoggers →
      logger.isAlive = true → s'.reaches other → logger.isAttached = true).mpr
      ⟨attached, fun other differ member living reached =>
        agreed.attached other member living (reaches other differ reached)⟩

/-- A logger is replaced by one that has a pool and a buffer if it had. -/
theorem Agreed.exchange (agreed : Agreed s) {owner : Fin n} {before after : EventLogger Owner α}
    {notified notified' : Bool} (alive : s.loggers owner = .alive before notified)
    (loggers : s'.loggers = Function.update s.loggers owner (.alive after notified'))
    (attached : after.attached = before.attached)
    (buffer : after.buffer.isSome = before.buffer.isSome)
    (eventLoggers : s'.eventLoggers = s.eventLoggers) (pool : s'.pool.isSome = s.pool.isSome)
    (code : ∀ other, s'.code other = s.code other ∨ s.code other ≠ [.destroy])
    (reaches : ∀ other, s'.reaches other → s.reaches other) : Agreed s' := by
  have attaches : (ThreadLocal.alive after notified').isAttached =
      (s.loggers owner).isAttached := by
    rw [alive]
    exact attached
  have presents : (ThreadLocal.alive after notified').present = (s.loggers owner).present := by
    rw [alive]
    exact buffer
  refine agreed.update loggers eventLoggers pool (fun _ => isAlive_of_alive alive)
    (fun other => (code other).imp_right .inl) ?_ ?_ (fun other _ => reaches other) ?_
  · rw [attaches, presents]
    exact agreed.buffered owner
  · rw [presents]
    exact agreed.pooled owner
  · rw [attaches]
    exact fun member _ reached =>
      agreed.attached owner member (isAlive_of_alive alive) (reaches owner reached)

theorem attached_push {π : Type} (borrow : Borrow Owner π α) (logger : EventLogger Owner α)
    (pool : π) (event : α) : (logger.push borrow pool event).1.attached = logger.attached := by
  rw [EventLogger.push]
  split <;> rfl

/-- No logger is replaced. -/
theorem Agreed.frame (agreed : Agreed s) (loggers : s'.loggers = s.loggers)
    (eventLoggers : s'.eventLoggers = s.eventLoggers)
    (pool : ∀ owner, (s.loggers owner).present = true → s.pool.isSome = true →
      s'.pool.isSome = true)
    (code : ∀ other, s'.code other = s.code other ∨ s.code other ≠ [.destroy])
    (reaches : ∀ other ∈ s.eventLoggers, s'.reaches other → s.reaches other) : Agreed s' := by
  constructor
  · intro other living
    rw [loggers] at living
    rw [eventLoggers]
    refine (agreed.subscribed other living).imp_right fun leaving => ?_
    exact (code other).elim (fun same => same.trans leaving) (absurd leaving)
  · rw [loggers]
    exact agreed.buffered
  · rw [loggers]
    exact fun owner present => pool owner present (agreed.pooled owner present)
  · rw [loggers, eventLoggers]
    exact fun owner member living reached =>
      agreed.attached owner member living (reaches owner member reached)

/-- A thread without anything to do gets something to do. -/
theorem Agreed.goto (agreed : Agreed s) (idle : s.code thread ≠ [.destroy])
    (code : List (Instruction n α)) : Agreed (s.goto thread code) := by
  refine agreed.frame rfl rfl (fun _ _ => id) (fun other => ?_) fun _ _ => id
  by_cases same : other = thread
  · exact .inr (same ▸ idle)
  · exact .inl (Function.update_of_ne same _ _)

theorem Agreed.construct (agreed : Agreed s) (phased : Phased s) (uncalled : s.call = none)
    (constructed : s.construct o thread = some s') : Agreed s' := by
  simp only [System.construct] at constructed
  split at constructed
  · obtain rfl := Option.some.inj constructed
    obtain ⟨attaches, presents⟩ := attached_setPool
      (EventLogger.new ⟨o.threadEventBufferCapacity, o.flushAllEvents⟩ : EventLogger Owner α)
      s.pool.isSome true
    have initialized : s.pool.isSome = s.initialized := by
      simpa [System.busy, uncalled] using phased.pooled
    constructor
    · intro owner living
      by_cases same : owner = thread
      · exact .inl (Finset.mem_insert.mpr (.inl same))
      · simp only [Function.update_of_ne same] at living
        exact (agreed.subscribed owner living).imp_left Finset.mem_insert_of_mem
    · exact (Function.forall_update_iff s.loggers fun _ logger =>
        logger.isAttached = true → logger.present = true).mpr
        ⟨fun attached => presents.trans (attaches.symm.trans attached),
          fun owner _ => agreed.buffered owner⟩
    · exact (Function.forall_update_iff s.loggers fun _ logger =>
        logger.present = true → s.pool.isSome = true).mpr
        ⟨presents.symm.trans, fun owner _ => agreed.pooled owner⟩
    · intro owner member living reached
      by_cases same : owner = thread
      · subst same
        simp only [Function.update_self]
        rcases reached with starts | ⟨caller, rest, called, -⟩
        · exact attaches.trans (initialized.trans starts)
        · cases called.symm.trans uncalled
      · simp only [Function.update_of_ne same] at living ⊢
        exact agreed.attached owner ((Finset.mem_insert.mp member).resolve_left same) living reached
  · obtain rfl := Option.some.inj constructed
    exact agreed
  · cases constructed

theorem Agreed.call {method : Method α κ} {order : List (Fin n)} (agreed : Agreed s)
    (phased : Phased s) (taken : s.callStep o thread method order = some s') : Agreed s' := by
  have idle := (call_entered taken).idle
  have resting : s.code thread ≠ [.destroy] := by simp [idle]
  cases call_called taken with
  | flag => exact agreed.frame rfl rfl (fun _ _ => id) (fun _ => .inl rfl) fun _ _ => id
  | log t code uncalled constructed =>
      exact (agreed.construct phased uncalled constructed).goto
        (by rwa [construct_code constructed]) code
  | exit code => exact agreed.goto resting code
  | begin position enabled _ _ rests =>
      refine agreed.frame rfl rfl (fun _ _ => id) (fun _ => .inl rfl) ?_
      rintro owner member (initialized | ⟨caller, rest, called, -⟩)
      · exact .inl initialized
      · cases called
        cases rests
  | launch order _ uncalled _ uninitialized loops entered =>
      obtain ⟨queue, -, rfl⟩ := enter_queue entered
      refine agreed.frame rfl rfl (fun _ _ _ => rfl) (fun _ => .inl rfl) ?_
      rintro owner member (initialized | ⟨caller, rest, called, waits⟩)
      · exact .inl initialized
      · cases called
        exact absurd ((mem_of_loops loops).mpr member) waits

theorem Agreed.execute {instruction : Instruction n α} {rest : List (Instruction n α)}
    (agreed : Agreed s) (tidy : Tidy s) (next : s.code thread = instruction :: rest)
    (instructed : Instructed s thread rest instruction s') : Agreed s' := by
  have scripted := next ▸ tidy.scripted thread
  have codes : ∀ (code : List (Instruction n α)), instruction ≠ .destroy → ∀ other,
      Function.update s.code thread code other = s.code other ∨ s.code other ≠ [.destroy] := by
    intro code stays other
    by_cases same : other = thread
    · subst same
      rw [next]
      exact .inr fun destroys => stays (List.cons_eq_cons.mp destroys).1
    · exact .inl (Function.update_of_ne same _ _)
  cases instructed with
  | ignore | keep | unsubscribe =>
      exact agreed.frame rfl rfl (fun _ _ => id) (codes _ (by simp)) fun _ _ => id
  | push event overtaken logger notified pool code alive _ pooled =>
      exact agreed.exchange alive rfl (attached_push _ logger pool event)
        (isSome_buffer_push _ logger pool event) rfl (by simp [System.goto, pooled])
        (codes code (by simp)) fun _ => id
  | pass owner logger notified buffer _ alive passed entered =>
      obtain ⟨queue, -, rfl⟩ := enter_queue entered
      exact agreed.exchange alive rfl rfl (by rw [buffer_of_flush passed]; rfl) rfl rfl
        (codes _ (by simp)) fun _ => id
  | renew owner logger notified alive =>
      exact agreed.exchange alive rfl rfl Option.isSome_map rfl rfl (codes rest (by simp))
        fun _ => id
  | leave logger notified alive =>
      obtain rfl : rest = [.destroy] := scripted
      have others : ∀ owner ∈ s.eventLoggers.erase thread, owner ≠ thread ∧
          Function.update s.loggers thread (.alive (detached logger) notified) owner =
            s.loggers owner :=
        fun owner member => ⟨Finset.ne_of_mem_erase member,
          Function.update_of_ne (Finset.ne_of_mem_erase member) _ _⟩
      constructor
      · intro owner living
        by_cases same : owner = thread
        · subst same
          exact .inr (goto_self _ _ _)
        · simp only [System.goto, System.replaceLogger, Function.update_of_ne same] at living ⊢
          exact (agreed.subscribed owner living).imp_left fun member =>
            Finset.mem_erase.mpr ⟨same, member⟩
      · exact (Function.forall_update_iff s.loggers fun _ logger =>
          logger.isAttached = true → logger.present = true).mpr
          ⟨by rintro ⟨⟩, fun owner _ => agreed.buffered owner⟩
      · exact (Function.forall_update_iff s.loggers fun _ logger =>
          logger.present = true → s.pool.isSome = true).mpr
          ⟨by rintro ⟨⟩, fun owner _ => agreed.pooled owner⟩
      · intro owner member living reached
        obtain ⟨differ, same⟩ := others owner member
        simp only [System.goto, System.replaceLogger, same] at living ⊢
        exact agreed.attached owner (Finset.mem_of_mem_erase member) living reached
  | destroy logger notified alive =>
      obtain rfl : rest = [] := scripted
      refine agreed.update rfl rfl rfl (by rintro ⟨⟩) ?_ (by rintro ⟨⟩) (by rintro ⟨⟩)
        (fun _ _ => id) (by rintro - ⟨⟩)
      intro other
      by_cases same : other = thread
      · exact .inr (.inr ⟨same, rfl⟩)
      · exact .inl (Function.update_of_ne same _ _)

theorem Agreed.advance {position : Position n κ} (agreed : Agreed s) (sound : Sound s)
    (code : ∀ other, s.code other = []) (called : s.call = some (thread, position))
    (advanced : Advanced s thread position s') : Agreed s' := by
  have codes : ∀ other, s'.code other = s.code other ∨ s.code other ≠ [.destroy] :=
    fun other => .inr (by simp [code])
  have reaches : s'.initialized = s.initialized →
      (∀ caller rest, s'.call ≠ some (caller, .attach rest)) → ∀ owner, s'.reaches owner →
        s.reaches owner := by
    rintro same none owner (initialized | ⟨caller, rest, attaches, -⟩)
    · exact .inl (same.symm.trans initialized)
    · exact absurd attaches (none caller rest)
  cases advanced with
  | initialized =>
      refine agreed.frame rfl rfl (fun _ _ => id) codes fun owner _ _ => ?_
      exact .inr ⟨thread, [], called, List.not_mem_nil⟩
  | attach owner rest logger notified alive =>
      have pooled : s.pool.isSome = true := by
        rw [sound.phased.pooled]
        simp [System.busy, called, Position.resting]
      obtain ⟨attaches, presents⟩ := attached_setPool logger true notified
      refine agreed.update rfl rfl rfl (fun _ => isAlive_of_alive alive)
        (fun other => (codes other).imp_right .inl) (fun _ => presents) (fun _ => pooled) ?_
        fun _ _ _ => attaches
      rintro other differ (initialized | ⟨caller, later, calls, reached⟩)
      · exact .inl initialized
      · cases calls
        exact .inr ⟨thread, _, called, by simp [differ, reached]⟩
  | uninitialized =>
      exact agreed.frame rfl rfl (fun _ _ => id) codes fun other _ =>
        reaches rfl (by rintro _ _ ⟨⟩) other
  | deinitialized order =>
      refine agreed.frame rfl rfl (fun _ _ => id) codes ?_
      rintro other - (⟨⟨⟩⟩ | ⟨caller, rest, ⟨⟩, -⟩)
  | detach owner rest logger notified alive =>
      refine agreed.exchange alive rfl rfl rfl rfl rfl ?_ (reaches rfl (by rintro _ _ ⟨⟩))
      exact fun other => .inr (by simp [code])
  | drop owner rest logger notified alive =>
      have uninitialized := sound.phased.busy (by simp [System.busy, called, Position.resting])
      refine agreed.update rfl rfl rfl (fun _ => isAlive_of_alive alive)
        (fun other => (codes other).imp_right .inl) (by rintro ⟨⟩) (by rintro ⟨⟩)
        (fun other _ => reaches rfl (by rintro _ _ ⟨⟩) other) ?_
      rintro - - (initialized | ⟨caller, later, ⟨⟩, -⟩)
      cases initialized.symm.trans uninitialized
  | detached order position next =>
      refine agreed.frame rfl rfl (fun _ _ => id) codes fun other _ => reaches rfl ?_ other
      rcases next with rfl | rfl <;> simp
  | flush owner rest completion deinitializing =>
      refine agreed.frame rfl rfl (fun _ _ => id) ?_ fun other _ =>
        reaches rfl (by rintro _ _ ⟨⟩) other
      exact fun other => .inr (by simp [code])
  | flushQueue _ deinitializing _ entered | clearQueue deinitializing _ entered =>
      obtain ⟨queue, -, rfl⟩ := enter_queue entered
      refine agreed.frame rfl rfl (fun _ _ => id) codes fun other _ => reaches rfl ?_ other
      cases deinitializing <;> simp
  | clear owner rest deinitializing logger notified alive =>
      exact agreed.exchange alive rfl rfl Option.isSome_map rfl rfl codes
        (reaches rfl (by rintro _ _ ⟨⟩))
  | drainAndStop _ entered =>
      obtain ⟨queue, -, rfl⟩ := enter_queue entered
      exact agreed.frame rfl rfl (fun _ _ => id) codes fun other _ =>
        reaches rfl (by rintro _ _ ⟨⟩) other
  | resetPool =>
      refine agreed.frame rfl rfl ?_ codes fun other _ => reaches rfl (by rintro _ _ ⟨⟩) other
      intro owner present
      cases sound.detached.awaited thread _ called owner present

theorem Agreed.step {a : Action n α κ} (agreed : Agreed s) (sound : Sound s) (tidy : Tidy s)
    (taken : step o s a = some s') : Agreed s' := by
  have frame : ∀ {t : System n α κ}, t.loggers = s.loggers → t.eventLoggers = s.eventLoggers →
      t.pool.isSome = s.pool.isSome → t.code = s.code → t.call = s.call →
      t.initialized = s.initialized → Agreed t := by
    intro t loggers eventLoggers pool code call initialized
    refine agreed.frame loggers eventLoggers (fun _ _ => pool.trans)
      (fun other => .inl (by rw [code])) fun other _ => ?_
    rw [System.reaches, initialized, call]
    exact id
  cases a with
  | call thread method order => exact agreed.call sound.phased taken
  | worker now ok =>
      cases worker_worked taken with
      | giveBack ptr rest pool _ pooled => exact frame rfl rfl (by rw [pooled]; rfl) rfl rfl rfl
      | move => exact frame rfl rfl rfl rfl rfl rfl
  | thread thread now overtaken order =>
      cases thread_threaded taken with
      | giveBack ptr rest pool _ pooled => exact frame rfl rfl (by rw [pooled]; rfl) rfl rfl rfl
      | client => exact frame rfl rfl rfl rfl rfl rfl
      | execute instruction rest overtaken _ _ _ next executes =>
          exact agreed.execute tidy next (execute_instructed executes)
      | advance position order _ _ _ code called advances =>
          exact agreed.advance sound (sound.codes code called) called (advance_advanced advances)

end Agreed

/-- A thread that is about to log finds its logger attached exactly while the runtime is
    initialised. -/
theorem Agreed.attached_eq {event : α} {rest : List (Instruction n α)}
    {logger : EventLogger Owner α} {notified : Bool} (agreed : Agreed s) (sound : Sound s)
    (tidy : Tidy s) (next : s.code thread = .logEvent event :: rest)
    (alive : s.loggers thread = .alive logger notified) : logger.attached = s.initialized := by
  have uncalled : s.call = none := tidy.logging thread event (by simp [next])
  have same : (s.loggers thread).isAttached = logger.attached := by rw [alive]; rfl
  have subscribed : thread ∈ s.eventLoggers := by
    refine (agreed.subscribed thread (isAlive_of_alive alive)).resolve_right ?_
    rw [next]
    simp
  rw [← same, Bool.eq_iff_iff]
  constructor
  · intro attached
    have pooled := agreed.pooled thread (agreed.buffered thread attached)
    simpa [sound.phased.pooled, System.busy, uncalled] using pooled
  · intro initialized
    exact agreed.attached thread subscribed (isAlive_of_alive alive) (.inl initialized)

/-! ## Buffers are handed over to an open queue -/

/-- While a thread hands over a buffer, the queue is open. -/
def Delivering (s : System n α κ) : Prop := ∀ thread, s.offered thread ≠ [] → s.phase = .opened

section Delivering

theorem Delivering.initial : Delivering (initial : System n α κ) := by
  intro thread offers
  simp [RuntimeManager.initial, System.offered, DiskFlushQueue.initial] at offers

/-- A logger has a buffer only while the queue is open. -/
theorem phase_of_present {owner : Fin n} (agreed : Agreed s) (sound : Sound s)
    (idle : ∀ caller position, s.call = some (caller, position) → s.queue.clients caller = .idle)
    (present : (s.loggers owner).present = true) : s.phase = .opened := by
  have pooled := agreed.pooled owner present
  rw [sound.phased.pooled] at pooled
  cases called : s.call with
  | none =>
      have initialized : s.initialized = true := by simpa [System.busy, called] using pooled
      simp [System.phase, called, initialized, restingPhase]
  | some call =>
      obtain ⟨caller, position⟩ := call
      have awaited := sound.detached.awaited caller position called owner present
      simp only [System.phase, called, idle caller position called]
      cases resting : position.resting with
      | true =>
          have initialized : s.initialized = true := by
            simpa [System.busy, called, resting] using pooled
          rw [phase_resting resting, restingPhase, if_pos initialized]
      | false =>
          cases position with
          | attach | detach | drop => rfl
          | deinitializeRuntime => cases resting
          | drainAndStop | resetPool => cases awaited
          | flush rest completion deinitializing | clear rest deinitializing =>
              cases deinitializing with
              | true => cases awaited
              | false => cases resting

theorem Delivering.execute {instruction : Instruction n α} {rest : List (Instruction n α)}
    (delivering : Delivering s) (agreed : Agreed s) (sound : Sound s)
    (idle : s.queue.clients thread = .idle) (next : s.code thread = instruction :: rest)
    (instructed : Instructed s thread rest instruction s') : Delivering s' := by
  cases instructed with
  | pass owner logger notified buffer _ alive passed entered =>
      have opened : s.phase = .opened := by
        have present : (s.loggers owner).present = true := by
          rw [alive]
          exact Option.isSome_of_eq_some (buffer_of_flush passed)
        refine phase_of_present agreed sound (fun caller position called => ?_) present
        rw [← code_of_calling sound.exclusive next called]
        exact idle
      have others := ((Local.refl thread _).enter entered).clients
      obtain ⟨queue, enters, rfl⟩ := enter_queue entered
      obtain ⟨-, clients⟩ := call_enqueues enters
      have same : ({ s with queue } : System n α κ).phase = s.phase := by
        refine phase_client rfl rfl others ?_ ?_
        · rw [idle]
          rfl
        · simp [clients, DiskFlushQueue.Call.entry, Client.switching]
      exact fun other _ => same.trans opened
  | _ => exact delivering

theorem Delivering.call {method : Method α κ} {order : List (Fin n)} (delivering : Delivering s)
    (taken : s.callStep o thread method order = some s') : Delivering s' := by
  intro other offers
  rw [(call_entered taken).offered] at offers
  have silent : ¬ ∀ other, s.outside other = true := by
    intro outside
    have idle := (outside_iff.mp (outside other)).2.2.1
    simp [System.offered, idle] at offers
  have opened := delivering other offers
  cases call_called taken with
  | flag | exit => exact opened
  | log t code _ constructed =>
      obtain ⟨call, initialized, -, queue, -⟩ := construct_call constructed
      simpa [System.phase, System.goto, call, initialized, queue] using opened
  | begin position enabled _ outside => exact absurd outside silent
  | launch order _ _ outside => exact absurd outside silent

theorem Delivering.advance {position : Position n κ} (exclusive : Exclusive s)
    (called : s.call = some (thread, position)) (idle : s.queue.clients thread = .idle)
    (advanced : Advanced s thread position s') : Delivering s' := by
  have none : ∀ other, s.offered other = [] := by
    intro other
    by_cases same : other = thread
    · rw [same, System.offered, idle]
      rfl
    · rw [System.offered, (exclusive thread position called other same).2.2]
      rfl
  have silent : ∀ {call : Option (Fin n × Position n κ)}
      {method : DiskFlushQueue.Call (CircularSliceBuffer Owner α) κ}, method.entry.offered = [] →
      { s with call }.enter thread method = some s' → Delivering s' := by
    intro call method bare entered other offers
    obtain ⟨queue, enters, rfl⟩ := enter_queue entered
    have fewer := enter_offered (s := s) enters bare other
    rw [none] at fewer
    exact absurd (List.sublist_nil.mp fewer) offers
  cases advanced with
  | flushQueue completion _ _ entered => exact silent rfl entered
  | clearQueue _ _ entered => exact silent rfl entered
  | drainAndStop _ entered => exact silent rfl entered
  | _ => exact fun other offers => absurd (none other) offers

theorem Delivering.client {now : Int} {queue : State (CircularSliceBuffer Owner α) κ}
    {released : List (SlicePtr α)} (delivering : Delivering s) (phased : Phased s)
    (exclusive : Exclusive s) (moves : clientStep o.queue s.queue thread now = some queue) :
    Delivering
      { s with queue, releasing := Function.update s.releasing thread released } := by
  have others : ∀ other : Fin n, other ≠ thread → queue.clients other = s.queue.clients other :=
    fun other differ => client_others moves fun equal => differ (Fin.ext equal)
  have before : ∀ other : Fin n, (queue.clients other).offered ≠ [] → s.offered other ≠ [] := by
    intro other offers
    by_cases same : other = thread
    · subst same
      rcases client_enqueues moves with ⟨-, fewer⟩ | ⟨buffer, -, after, -⟩
      · intro none
        rw [System.offered] at none
        rw [none] at fewer
        exact offers (List.sublist_nil.mp fewer)
      · exact absurd after offers
    · rwa [System.offered, ← others other same]
  intro other offers
  have opened := delivering other (before other offers)
  cases switches : (s.queue.clients thread).switching with
  | true =>
      obtain ⟨position, called, -⟩ := phased.switching thread switches
      have own : other = thread := by
        by_contra differ
        refine before other offers ?_
        rw [System.offered, (exclusive thread position called other differ).2.2]
        rfl
      have offered := before other offers
      rw [own, System.offered] at offered
      cases position : s.queue.clients thread <;>
        simp_all [Client.switching, Client.offered]
  | false =>
      refine Eq.trans ?_ opened
      exact phase_client rfl rfl others switches
        (switching_client moves switches)

theorem Delivering.step {a : Action n α κ} (delivering : Delivering s) (agreed : Agreed s)
    (sound : Sound s) (taken : step o s a = some s') : Delivering s' := by
  cases a with
  | call thread method order => exact delivering.call taken
  | worker now ok =>
      cases worker_worked taken with
      | giveBack => exact delivering
      | move now ok queue _ moves =>
          have clients := worker_clients moves
          intro other offers
          rw [System.offered, clients] at offers
          rw [System.phase, clients]
          exact delivering other offers
  | thread thread now overtaken order =>
      cases thread_threaded taken with
      | giveBack => exact delivering
      | client now queue _ _ moves => exact delivering.client sound.phased sound.exclusive moves
      | execute instruction rest overtaken _ _ idle next executes =>
          exact delivering.execute agreed sound idle next (execute_instructed executes)
      | advance position order _ _ idle _ called advances =>
          exact .advance sound.exclusive called idle (advance_advanced advances)

end Delivering

end Spoor.Runtime.RuntimeManager
