import Spoor.Buffer.CapacityBound
import Spoor.EventLogging.Lossless
import Spoor.FlushQueue.Delivery
import Spoor.Runtime.Attribution

/-! # Who uses which logger

Only one thread at a time may be handing over events of the same logger, and the buffer
that was moved out of a logger must not be used before it is renewed.
-/

namespace Spoor.Runtime.RuntimeManager

open Buffer EventLogging FlushQueue Lib.Transition

variable {n : Nat} {α κ : Type}

def ThreadLocal.events : ThreadLocal α → List α
  | .alive logger _ => logger.buffer.toList.flatMap contentsOf
  | _ => []

def Instruction.event? : Instruction n α → Option α
  | .logEvent event => some event
  | _ => none

def System.offered (s : System n α κ) (thread : Fin n) : List (CircularSliceBuffer Owner α) :=
  (s.queue.clients thread).offered

/-! ## Every slice is well formed -/

/-- `Sourced` for events from anywhere. -/
abbrev Formed (o : Options α) (s : System n α κ) : Prop := Sourced o (fun _ _ => True) s

section Formed

variable {o : Options α} {s s' : System n α κ} {thread : Fin n}

theorem Formed.pass (held : Formed o s) {owner : Fin n} {rest : List (Instruction n α)}
    {logger : EventLogger Owner α} {notified : Bool} {buffer : CircularSliceBuffer Owner α}
    (alive : s.loggers owner = .alive logger notified) (passed : logger.flush.2 = some buffer)
    (entered : ({ s with
      loggers := Function.update s.loggers owner
        (.alive { logger with buffer := some (moved buffer) } notified) }.goto thread
        (.renew owner :: rest)).enter thread (.enqueue buffer) = some s') : Formed o s' := by
  have emptied : (ThreadLocal.alive { logger with buffer := some (moved buffer) } notified).slices =
      [] := by
    simp [ThreadLocal.slices, moved]
  have moves : Formed o { s with
      loggers := Function.update s.loggers owner
        (.alive { logger with buffer := some (moved buffer) } notified) } :=
    held.update (by simp [emptied])
  refine (moves.goto fun _ _ => trivial).enter ?_ entered
  intro offered member
  obtain rfl : offered = buffer := by
    simpa [DiskFlushQueue.Call.entry, DiskFlushQueue.Client.offered] using member
  intro ptr slice
  have within : ptr.slice.Within fun _ => True := by
    refine held.loggers owner ptr ?_
    simpa [alive, ThreadLocal.slices, buffer_of_flush passed] using slice
  exact within.mono fun event _ => ⟨thread, trivial, rfl⟩

theorem Formed.execute (held : Formed o s) {rest : List (Instruction n α)}
    {instruction : Instruction n α} (instructed : Instructed s thread rest instruction s') :
    Formed o s' := by
  by_cases passes : ∃ owner logger notified, instruction = .flush owner ∧
      s.loggers owner = .alive logger notified ∧ logger.flush.2.isSome = true
  · obtain ⟨owner, logger, notified, rfl, alive, some⟩ := passes
    cases instructed with
    | keep _ other _ present none =>
        rw [alive] at present
        cases present
        simp [none] at some
    | pass _ other _ buffer _ present passed entered => exact held.pass present passed entered
  · refine Sourced.execute held (fun _ _ => trivial) ?_ instructed
    intro owner logger notified flushes alive some
    exact absurd ⟨owner, logger, notified, flushes, alive, some⟩ passes

theorem Formed.step (held : Formed o s) {a : Action n α κ} (taken : step o s a = some s') :
    Formed o s' := by
  cases a with
  | call thread method order => exact held.call (fun _ _ _ _ => trivial) taken
  | worker now ok => exact held.worked (worker_worked taken)
  | thread thread now overtaken order =>
      cases thread_threaded taken with
      | giveBack ptr rest pool releasing pooled =>
          have formed := held.releasing thread
          rw [releasing] at formed
          have returned := held.giveBack pooled (formed ptr (by simp))
          exact returned.release fun other member => formed other (List.mem_cons_of_mem ptr member)
      | execute instruction rest overtaken s' released idle code executes =>
          exact Formed.execute held (execute_instructed executes)
      | advance position order s' _ _ _ _ advances => exact held.advance (advance_advanced advances)
      | client now queue _ _ moves => exact held.client moves

end Formed

/-! ## The discipline of the loggers -/

/-- A logger without events. -/
def ThreadLocal.Blank : ThreadLocal α → Prop
  | .alive logger _ => ∀ buffer, logger.buffer = some buffer → ∃ capacity, buffer = .new capacity
  | _ => True

/-- The buffer of the logger, if it has one, can be pushed to and passed on. -/
def ThreadLocal.Usable : ThreadLocal α → Prop
  | .alive logger _ => ∀ buffer, logger.buffer = some buffer → ∃ window, buffer.Holds window
  | _ => True

theorem ThreadLocal.Blank.usable {threadLocal : ThreadLocal α} (blank : threadLocal.Blank) :
    threadLocal.Usable := by
  cases threadLocal with
  | alive logger notified =>
      intro buffer present
      obtain ⟨capacity, rfl⟩ := blank buffer present
      exact ⟨[], CircularSliceBuffer.holds_new capacity⟩
  | unconstructed | destroyed => trivial

theorem ThreadLocal.Blank.events {threadLocal : ThreadLocal α} (blank : threadLocal.Blank) :
    threadLocal.events = [] := by
  cases threadLocal with
  | alive logger notified =>
      cases present : logger.buffer with
      | none => simp [ThreadLocal.events, present]
      | some buffer =>
          obtain ⟨capacity, rfl⟩ := blank buffer present
          simp [ThreadLocal.events, present,
            contentsOf_eq (CircularSliceBuffer.holds_new capacity : (CircularSliceBuffer.new
              capacity : CircularSliceBuffer Owner α).Holds [])]
  | unconstructed | destroyed => rfl

theorem contentsOf_moved (buffer : CircularSliceBuffer Owner α) :
    contentsOf (moved buffer) = [] := by
  rw [contentsOf, CircularSliceBuffer.contiguousMemoryChunks]
  split
  · rfl
  · simp [CircularSliceBuffer.current, moved]

/-- A thread flushes and renews its own logger, or any logger in a call.  It renews
    the logger at once when it has moved the buffer out of it, and until then nobody
    uses the logger. -/
structure Disciplined (s : System n α κ) : Prop where
  exclusive : Exclusive s
  own : ∀ thread owner, .flush owner ∈ s.code thread ∨ .renew owner ∈ s.code thread →
    owner = thread ∨ ∃ position, s.call = some (thread, position)
  renews : ∀ thread owner, .renew owner ∉ (s.code thread).tail
  usable : ∀ owner, (s.loggers owner).Usable ∨
    (s.loggers owner).events = [] ∧ ∃ thread rest, s.code thread = .renew owner :: rest

section Disciplined

variable {o : Options α} {s s' : System n α κ} {thread : Fin n}

theorem Disciplined.initial : Disciplined (initial : System n α κ) := by
  constructor <;> simp [RuntimeManager.initial, Exclusive, ThreadLocal.Usable]

/-- A thread can use a logger unless it is about to renew it. -/
theorem Disciplined.uses (disciplined : Disciplined s) {owner : Fin n}
    (busy : s.code thread ≠ [] ∨ ∃ position, s.call = some (thread, position))
    (uses : owner = thread ∨ ∃ position, s.call = some (thread, position))
    (other : ∀ rest, s.code thread ≠ .renew owner :: rest) : (s.loggers owner).Usable := by
  rcases disciplined.usable owner with usable | ⟨-, renewer, rest, renews⟩
  · exact usable
  · have differ : renewer ≠ thread := by
      rintro rfl
      exact other rest renews
    have outside : ∀ position, s.call ≠ some (thread, position) := by
      intro position calls
      have empty := (disciplined.exclusive thread position calls renewer differ).1
      simp [renews] at empty
    rcases disciplined.own renewer owner (.inr (by simp [renews])) with own | ⟨position, calls⟩
    · rcases uses with same | ⟨position, calls⟩
      · exact absurd (own.symm.trans same) differ
      · exact absurd calls (outside position)
    · have empty := (disciplined.exclusive renewer position calls thread differ.symm).1
      rcases busy with code | ⟨position, calls⟩
      · exact absurd empty code
      · exact absurd calls (outside position)

/-- What a step of one thread has to keep. -/
theorem Disciplined.moved (disciplined : Disciplined s) (exclusive : Exclusive s')
    (others : ∀ other, other ≠ thread → s'.code other = s.code other)
    (calls : ∀ caller position, caller ≠ thread → s.call = some (caller, position) →
      s'.call = some (caller, position))
    (own : ∀ owner, .flush owner ∈ s'.code thread ∨ .renew owner ∈ s'.code thread →
      owner = thread ∨ ∃ position, s'.call = some (thread, position))
    (renews : ∀ owner, .renew owner ∉ (s'.code thread).tail)
    (usable : ∀ owner, (s'.loggers owner).Usable ∨ s'.loggers owner = s.loggers owner ∧
        (∀ rest, s.code thread ≠ .renew owner :: rest) ∨
      (s'.loggers owner).events = [] ∧ ∃ rest, s'.code thread = .renew owner :: rest) :
    Disciplined s' := by
  refine ⟨exclusive, ?_, ?_, ?_⟩
  · intro other owner member
    by_cases same : other = thread
    · subst same
      exact own owner member
    · rw [others other same] at member
      refine (disciplined.own other owner member).imp_right ?_
      rintro ⟨position, called⟩
      exact ⟨position, calls other position same called⟩
  · intro other owner
    by_cases same : other = thread
    · subst same
      exact renews owner
    · rw [others other same]
      exact disciplined.renews other owner
  · intro owner
    rcases usable owner with ready | ⟨kept, otherwise⟩ | ⟨empty, rest, next⟩
    · exact .inl ready
    · rw [kept]
      refine (disciplined.usable owner).imp_right ?_
      rintro ⟨empty, renewer, rest, next⟩
      have differ : renewer ≠ thread := by
        rintro rfl
        exact otherwise rest next
      exact ⟨empty, renewer, rest, (others renewer differ).trans next⟩
    · exact .inr ⟨empty, thread, rest, next⟩

/-- The loggers and the code after a call. -/
structure Entered (s : System n α κ) (thread : Fin n) (method : Method α κ) (s' : System n α κ) :
    Prop where
  idle : s.code thread = []
  others : ∀ other, other ≠ thread → s'.code other = s.code other
  code : s'.code thread = [] ∨ (∃ event, method = .logEvent event ∧
    s'.code thread = [.logEvent event]) ∨
      s'.code thread = [.flush thread, .unsubscribe, .destroy]
  loggers : ∀ owner, s'.loggers owner = s.loggers owner ∨ (s'.loggers owner).Blank
  call : ∀ caller position, s.call = some (caller, position) → s'.call = some (caller, position)
  buffers : s'.queue.enqueuedBuffers = s.queue.enqueuedBuffers
  offered : ∀ other, s'.offered other = s.offered other

theorem blank_setPool (logger : EventLogger Owner α) (attached notified : Bool) :
    (ThreadLocal.alive (logger.setPool attached).1 notified).Blank := by
  intro buffer present
  cases attached with
  | false => simp [EventLogger.setPool] at present
  | true =>
      exact ⟨logger.options.preferredCapacity, by
        simpa [EventLogger.setPool, eq_comm] using present⟩

theorem blank_renewed (logger : EventLogger Owner α) (notified : Bool) :
    (ThreadLocal.alive { logger with
      buffer := logger.buffer.map fun _ =>
        (.new logger.options.preferredCapacity : CircularSliceBuffer Owner α) }
      notified).Blank := by
  intro buffer made
  obtain ⟨-, -, rfl⟩ := Option.map_eq_some_iff.mp made
  exact ⟨_, rfl⟩

theorem construct_loggers (constructed : s.construct o thread = some s') (owner : Fin n) :
    s'.loggers owner = s.loggers owner ∨ (s'.loggers owner).Blank := by
  simp only [System.construct] at constructed
  split at constructed
  · obtain rfl := Option.some.inj constructed
    by_cases same : owner = thread
    · subst same
      refine .inr ?_
      simp only [Function.update_self]
      exact blank_setPool _ _ _
    · exact .inl (by simp [same])
  · obtain rfl := Option.some.inj constructed
    exact .inl rfl
  · cases constructed

theorem call_entered {method : Method α κ} {order : List (Fin n)}
    (taken : s.callStep o thread method order = some s') : Entered s thread method s' := by
  simp only [System.callStep, System.begin] at taken
  split at taken
  · cases taken
  · rename_i outside
    obtain ⟨idle, -, resting, -⟩ := outside_iff.mp (by simpa using outside)
    have stays : ∀ {t : System n α κ}, t.code = s.code → t.loggers = s.loggers →
        (∀ caller position, s.call = some (caller, position) → t.call = some (caller, position)) →
        t.queue = s.queue → Entered s thread method t := by
      intro t code loggers call queue
      exact ⟨idle, fun other _ => by rw [code], .inl (by rw [code, idle]),
        fun owner => .inl (by rw [loggers]), call, by rw [queue], fun other => by
          rw [System.offered, System.offered, queue]⟩
    cases method with
    | enable =>
        obtain rfl := Option.some.inj taken
        split
        · exact stays rfl rfl (fun _ _ => id) rfl
        · exact stays rfl rfl (fun _ _ => id) rfl
    | disable =>
        obtain rfl := Option.some.inj taken
        exact stays rfl rfl (fun _ _ => id) rfl
    | logEvent event =>
        simp only at taken
        split at taken
        · cases taken
        · obtain ⟨t, constructed, rfl⟩ := Option.map_eq_some_iff.mp taken
          obtain ⟨call, -, -, queue, -⟩ := construct_call constructed
          have code := construct_code constructed
          have loggers := construct_loggers constructed
          split
          · refine ⟨idle, fun other differ => ?_, .inr (.inl ⟨event, rfl, by simp [System.goto]⟩),
              loggers, fun _ _ called => call.trans called, ?_, fun other => ?_⟩
            · simp [System.goto, differ, code]
            · simp [System.goto, queue]
            · simp [System.offered, System.goto, queue]
          · refine ⟨idle, fun other _ => by rw [code], .inl (by rw [code, idle]),
              loggers, fun _ _ called => call.trans called, by rw [queue],
              fun other => by rw [System.offered, System.offered, queue]⟩
    | exit =>
        simp only at taken
        split at taken
        · obtain rfl := Option.some.inj taken
          exact ⟨idle, fun other differ => by simp [System.goto, differ],
            .inr (.inr (by simp [System.goto])), fun owner => .inl rfl, fun _ _ => id, rfl,
            fun _ => rfl⟩
        · cases taken
    | initializeRuntime =>
        simp only at taken
        split at taken
        · cases taken
        · rename_i alone
          obtain ⟨uncalled, -⟩ : s.call = none ∧ ∀ other, s.outside other = true := by
            simpa using alone
          split at taken
          · obtain rfl := Option.some.inj taken
            exact stays rfl rfl (fun _ _ => id) rfl
          · split at taken
            · cases taken
            · obtain ⟨queue, enters, rfl⟩ := enter_queue taken
              obtain ⟨buffers, clients⟩ := DiskFlushQueue.call_enqueues enters
              refine ⟨idle, fun _ _ => rfl, .inl idle, fun _ => .inl rfl,
                fun _ _ called => by simp [uncalled] at called, buffers, fun other => ?_⟩
              rw [System.offered, System.offered, clients]
              by_cases same : other = thread
              · subst same
                simp [resting, DiskFlushQueue.Call.entry, DiskFlushQueue.Client.offered]
              · have apart : (other : Nat) ≠ thread := fun equal => same (Fin.ext equal)
                simp [apart]
    | deinitializeRuntime | flush | clear =>
        simp only at taken
        split at taken
        · cases taken
        · rename_i alone
          have uncalled : s.call = none := by
            cases called : s.call with
            | none => rfl
            | some call => simp [called] at alone
          obtain rfl := Option.some.inj taken
          exact stays rfl rfl (fun _ _ called => by simp [uncalled] at called) rfl

end Disciplined

end Spoor.Runtime.RuntimeManager
