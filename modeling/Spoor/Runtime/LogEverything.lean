import Spoor.FlushQueue.Delivery
import Spoor.Runtime.FirstLaps

/-! # Everything that is logged is written

In log-everything mode no event is lost on its way from a logger to a trace file, as long
as the pool has a slice for every buffer that asks for one, nobody calls `Clear`, and no
write fails that the queue does not try again.  When the runtime has been deinitialised,
the records that were written have all events that were logged while it was on.
-/

namespace Spoor.Runtime.RuntimeManager

open Buffer EventLogging FlushQueue Lib.Transition

variable {n : Nat} {α κ : Type} {o : Options α} {s s' : System n α κ} {thread : Fin n}

/-! ## Runs in which nothing is dropped on purpose -/

def Action.lossless (s : System n α κ) : Action n α κ → Bool
  | .call _ .clear _ => false
  | .thread thread _ overtaken _ => s.lends thread overtaken
  | _ => true

/-- Nobody calls `Clear`, the pool has a slice for every event that needs one, and no write
    fails that is not tried again. -/
def Lossless (s : System n α κ) (a : Action n α κ) : Prop :=
  s.queue.worker.retries = true ∧ a.lossless s = true

instance (s : System n α κ) (a : Action n α κ) : Decidable (Lossless s a) :=
  inferInstanceAs (Decidable (_ ∧ _))

/-- Nobody is in `Clear`. -/
structure Unclearing (s : System n α κ) : Prop where
  calling : ∀ caller rest deinitializing, s.call ≠ some (caller, .clear rest deinitializing)
  clients : ∀ thread : Fin n, s.queue.clients thread ≠ .clearLock

section Unclearing

theorem Unclearing.initial : Unclearing (initial : System n α κ) := by
  constructor <;> simp [RuntimeManager.initial, DiskFlushQueue.initial]

theorem Unclearing.clearsUnheld (unclearing : Unclearing s) (a : Action n α κ) :
    ClearsUnheld s a := by
  cases a with
  | call | worker => trivial
  | thread thread now overtaken order =>
      intro _ clears
      obtain ⟨client, reading, same, position⟩ := DiskFlushQueue.criticalSection_eq_clear clears
      obtain ⟨rfl, -⟩ := DiskFlushQueue.Action.client.inj same
      exact absurd position (unclearing.clients thread)

/-- A client enters a method other than `Clear`. -/
theorem Unclearing.enter {t : System n α κ}
    {method : DiskFlushQueue.Call (CircularSliceBuffer Owner α) κ} (unclearing : Unclearing s)
    (entered : t.enter thread method = some s') (same : t.queue = s.queue)
    (other : method.entry ≠ .clearLock) (place : Fin n) :
    s'.queue.clients place ≠ .clearLock := by
  have others := ((Local.refl thread t).enter entered).clients
  by_cases own : place = thread
  · obtain ⟨queue, enters, rfl⟩ := enter_queue entered
    rw [own, (DiskFlushQueue.call_enqueues enters).2, Function.update_self]
    exact other
  · rw [others place own, same]
    exact unclearing.clients place

theorem Unclearing.advance {position : Position n κ} {order : List (Fin n)}
    (unclearing : Unclearing s) (flushAll : o.flushAllEvents = true)
    (called : s.call = some (thread, position))
    (taken : s.advance o thread order position = some s') : Unclearing s' := by
  by_cases last : position = .detach []
  · subst last
    simp only [System.advance, flushAll, if_true] at taken
    split at taken <;> cases taken
    exact ⟨by simp, unclearing.clients⟩
  · cases advance_advanced taken with
    | detached => exact absurd rfl last
    | clear => exact absurd called (unclearing.calling _ _ _)
    | clearQueue => exact absurd called (unclearing.calling _ _ _)
    | flushQueue completion deinitializing _ entered =>
        refine ⟨?_, unclearing.enter entered rfl (by rintro ⟨⟩)⟩
        obtain ⟨queue, -, rfl⟩ := enter_queue entered
        cases deinitializing <;> simp
    | drainAndStop _ entered =>
        refine ⟨?_, unclearing.enter entered rfl (by rintro ⟨⟩)⟩
        obtain ⟨queue, -, rfl⟩ := enter_queue entered
        simp
    | initialized | attach | uninitialized | deinitialized | detach | drop | flush | resetPool =>
        exact ⟨by simp [System.goto], unclearing.clients⟩

/-- No method but `Clear` starts to clear the loggers. -/
theorem call_position {method : Method α κ} {order : List (Fin n)} (stays : method ≠ .clear)
    (taken : s.callStep o thread method order = some s') :
    s'.call = s.call ∨ ∃ position, s'.call = some (thread, position) ∧
      ∀ rest deinitializing, position ≠ .clear rest deinitializing := by
  simp only [System.callStep, System.begin] at taken
  split at taken
  · cases taken
  · cases method with
    | clear => exact absurd rfl stays
    | enable =>
        obtain rfl := Option.some.inj taken
        exact .inl (by split <;> rfl)
    | disable =>
        obtain rfl := Option.some.inj taken
        exact .inl rfl
    | logEvent event =>
        simp only at taken
        split at taken
        · cases taken
        · obtain ⟨t, constructed, rfl⟩ := Option.map_eq_some_iff.mp taken
          have call := (construct_call constructed).1
          exact .inl (by split <;> exact call)
    | exit =>
        simp only at taken
        split at taken <;> cases taken
        exact .inl rfl
    | initializeRuntime =>
        simp only at taken
        split at taken
        · cases taken
        · split at taken
          · obtain rfl := Option.some.inj taken
            exact .inl rfl
          · split at taken
            · cases taken
            · obtain ⟨queue, -, rfl⟩ := enter_queue taken
              exact .inr ⟨.attach order, rfl, by simp⟩
    | deinitializeRuntime | flush =>
        simp only at taken
        split at taken <;> cases taken
        exact .inr ⟨_, rfl, by simp⟩

theorem Unclearing.call {method : Method α κ} {order : List (Fin n)} (unclearing : Unclearing s)
    (stays : method ≠ .clear) (taken : s.callStep o thread method order = some s') :
    Unclearing s' := by
  refine ⟨?_, fun other => ?_⟩
  · rcases call_position stays taken with same | ⟨position, called, differs⟩
    · exact same ▸ unclearing.calling
    · intro caller rest deinitializing clears
      rw [called] at clears
      exact differs rest deinitializing (congrArg Prod.snd (Option.some.inj clears))
  · have own : s'.queue.clients other = s.queue.clients other ∨
        s'.queue.clients other = .runExchange := by
      cases call_called taken with
      | flag | exit | begin => exact .inl rfl
      | log t code _ constructed =>
          obtain ⟨-, -, -, queue, -⟩ := construct_call constructed
          exact .inl (by rw [System.goto, queue])
      | launch order _ _ _ _ _ entered =>
          have others := ((Local.refl thread _).enter entered).clients
          obtain ⟨queue, enters, rfl⟩ := enter_queue entered
          by_cases same : other = thread
          · refine .inr ?_
            rw [same, (DiskFlushQueue.call_enqueues enters).2, Function.update_self]
            rfl
          · exact .inl (others other same)
    rcases own with same | starts
    · exact same ▸ unclearing.clients other
    · rw [starts]
      rintro ⟨⟩

theorem client_unclearing {β : Type} {options : DiskFlushQueue.Options}
    {queue queue' : DiskFlushQueue.State β κ} {client : Nat} {now : Int}
    (moves : DiskFlushQueue.clientStep options queue client now = some queue') :
    queue'.clients client ≠ .clearLock := by
  cases position : queue.clients client <;> simp only [DiskFlushQueue.clientStep, position] at moves
  all_goals
    repeat split at moves
    all_goals cases moves
    all_goals simp

theorem Unclearing.step {a : Action n α κ} (unclearing : Unclearing s)
    (flushAll : o.flushAllEvents = true) (lossless : Lossless s a)
    (taken : step o s a = some s') : Unclearing s' := by
  cases a with
  | call thread method order =>
      refine unclearing.call ?_ taken
      rintro rfl
      cases lossless.2
  | worker now ok =>
      cases worker_worked taken with
      | giveBack => exact ⟨unclearing.calling, unclearing.clients⟩
      | move now ok queue _ moves =>
          refine ⟨unclearing.calling, ?_⟩
          rw [DiskFlushQueue.worker_clients moves]
          exact unclearing.clients
  | thread thread now overtaken order =>
      cases thread_threaded taken with
      | giveBack => exact ⟨unclearing.calling, unclearing.clients⟩
      | client now queue _ _ moves =>
          refine ⟨unclearing.calling, fun other => ?_⟩
          by_cases same : other = thread
          · subst same
            exact client_unclearing moves
          · rw [DiskFlushQueue.client_others moves fun equal => same (Fin.ext equal)]
            exact unclearing.clients other
      | execute instruction rest overtaken _ _ _ _ executes =>
          have executed := instructed_executed (execute_instructed executes)
          refine ⟨executed.call ▸ unclearing.calling, fun other => ?_⟩
          by_cases same : other = thread
          · subst same
            rcases executed.queue with kept | ⟨buffer, enters⟩
            · rw [kept]
              exact unclearing.clients other
            · rw [(DiskFlushQueue.call_enqueues enters).2, Function.update_self]
              rintro ⟨⟩
          · rw [executed.own.clients other same]
            exact unclearing.clients other
      | advance position order _ _ _ _ called advances =>
          exact unclearing.advance flushAll called advances

end Unclearing

/-! ## What becomes of an event in a step -/

def Method.events : Method α κ → List α
  | .logEvent event => [event]
  | _ => []

/-- The event that the runtime takes from a thread in a step: what is logged while the
    runtime is not initialised or not enabled is not meant to be kept. -/
def System.records (s : System n α κ) (thread : Fin n) : Action n α κ → List α
  | .call caller method _ =>
      if caller = thread ∧ s.initialized = true ∧ s.enabled = true then method.events else []
  | _ => []

/-- The events that the runtime takes from a thread in a run, in order. -/
def recorded (o : Options α) (thread : Fin n) : System n α κ → List (Action n α κ) → List α
  | _, [] => []
  | s, a :: labels => s.records thread a ++
      match step o s a with
      | some t => recorded o thread t labels
      | none => []

/-- The events of a thread that no thread has handed over yet. -/
def System.pending (s : System n α κ) (thread : Fin n) : List α :=
  (s.loggers thread).events ++
    if s.initialized then (s.code thread).filterMap Instruction.event? else []

/-- A step takes new events, or a thread hands over the buffer of a logger, or the queue
    appends the buffer that a thread offers. -/
inductive Placed (s s' : System n α κ) (taken : Fin n → List α) : Prop where
  | kept (buffers : s'.queue.enqueuedBuffers = s.queue.enqueuedBuffers)
      (offered : ∀ thread, s'.offered thread = s.offered thread)
      (pending : ∀ owner, s'.pending owner = s.pending owner ++ taken owner)
  | passed (thread passer : Fin n) (buffer : CircularSliceBuffer Owner α)
      (none : ∀ owner, taken owner = [])
      (buffers : s'.queue.enqueuedBuffers = s.queue.enqueuedBuffers)
      (before : s.offered thread = [])
      (offered : ∀ other, s'.offered other = if other = thread then [buffer] else s.offered other)
      (pending : ∀ owner, s.pending owner =
        (if owner = passer then contentsOf buffer else []) ++ s'.pending owner)
  | appended (thread : Fin n) (buffer : CircularSliceBuffer Owner α)
      (none : ∀ owner, taken owner = [])
      (buffers : s'.queue.enqueuedBuffers = s.queue.enqueuedBuffers ++ [buffer])
      (before : s.offered thread = [buffer])
      (offered : ∀ other, s'.offered other = if other = thread then [] else s.offered other)
      (pending : ∀ owner, s'.pending owner = s.pending owner)

section Placed

theorem recorded_concat {labels : List (Action n α κ)} {a : Action n α κ} {s t : System n α κ}
    (reached : exec (step o) s labels = some t) :
    recorded o thread s (labels ++ [a]) = recorded o thread s labels ++ t.records thread a := by
  induction labels generalizing s with
  | nil =>
      obtain rfl : s = t := Option.some.inj reached
      cases taken : step o s a <;> simp [recorded, taken]
  | cons b labels ih =>
      obtain ⟨u, taken, rest⟩ := Option.bind_eq_some_iff.mp reached
      simp only [List.cons_append, recorded, taken, ih rest, List.append_assoc]

theorem pending_eq (loggers : ∀ owner, (s'.loggers owner).events = (s.loggers owner).events)
    (initialized : s'.initialized = s.initialized)
    (code : ∀ other, (s'.code other).filterMap Instruction.event? =
      (s.code other).filterMap Instruction.event?) (owner : Fin n) :
    s'.pending owner = s.pending owner := by
  rw [System.pending, System.pending, loggers, initialized, code]

/-- What a thread has to do after it entered a method. -/
theorem call_logs {method : Method α κ} {order : List (Fin n)}
    (taken : s.callStep o thread method order = some s') :
    s'.initialized = s.initialized ∧
      (s'.code thread).filterMap Instruction.event? = if s.enabled then method.events else [] := by
  have initialized : s'.initialized = s.initialized := by
    cases call_called taken with
    | flag | exit | begin => rfl
    | log t code _ constructed => exact (construct_call constructed).2.1
    | launch order _ _ _ _ _ entered =>
        obtain ⟨queue, -, rfl⟩ := enter_queue entered
        rfl
  refine ⟨initialized, ?_⟩
  have entered := call_entered taken
  cases method with
  | logEvent event =>
      simp only [System.callStep, System.begin] at taken
      split at taken
      · cases taken
      · split at taken
        · cases taken
        · obtain ⟨t, constructed, rfl⟩ := Option.map_eq_some_iff.mp taken
          have enabled : t.enabled = s.enabled := by
            simp only [System.construct] at constructed
            split at constructed <;> cases constructed <;> rfl
          rw [enabled]
          cases s.enabled with
          | true => simp [Instruction.event?, Method.events]
          | false => simp [construct_code constructed, entered.idle]
  | _ =>
      rcases entered.code with none | ⟨event, same, -⟩ | leaves
      · simp [none, Method.events]
      · cases same
      · simp [leaves, Instruction.event?, Method.events]

theorem call_placed {method : Method α κ} {order : List (Fin n)}
    (taken : s.callStep o thread method order = some s') :
    Placed s s' fun owner => s.records owner (.call thread method order) := by
  have entered := call_entered taken
  obtain ⟨initialized, logs⟩ := call_logs taken
  refine .kept entered.buffers entered.offered fun owner => ?_
  rw [System.pending, System.pending, call_events taken, initialized]
  by_cases same : owner = thread
  · subst same
    rw [logs, entered.idle]
    cases initialized : s.initialized <;> simp [System.records, initialized]
  · have foreign : s.records owner (.call thread method order) = [] := by
      simp [System.records, Ne.symm same]
    rw [entered.others owner same, foreign, List.append_nil]

/-- A logger without events is replaced by another one without events. -/
theorem events_exchange {owner : Fin n} {after : ThreadLocal α}
    (before : (s.loggers owner).events = []) (blank : after.events = []) (other : Fin n) :
    (Function.update s.loggers owner after other).events = (s.loggers other).events := by
  by_cases same : other = owner
  · subst same
    rw [Function.update_self, before, blank]
  · rw [Function.update_of_ne same]

/-- The thread goes on with code that logs as much as before. -/
theorem logs_goto {code : List (Instruction n α)}
    (same : code.filterMap Instruction.event? = (s.code thread).filterMap Instruction.event?)
    (other : Fin n) : (Function.update s.code thread code other).filterMap Instruction.event? =
      (s.code other).filterMap Instruction.event? := by
  by_cases own : other = thread
  · subst own
    rw [Function.update_self, same]
  · rw [Function.update_of_ne own]

theorem logEvent_placed {event : α} {rest : List (Instruction n α)} {overtaken : Overtaken}
    (laps : FirstLaps o s) (tidy : Tidy s) (disciplined : Disciplined s) (formed : Formed o s)
    (agreed : Agreed s) (sound : Sound s) (lends : s.lends thread overtaken = true)
    (next : s.code thread = .logEvent event :: rest)
    (taken : s.execute thread overtaken rest (.logEvent event) = some s') :
    Placed s s' fun _ => [] := by
  obtain rfl : rest = [] := by
    have scripted := tidy.scripted thread
    rwa [next] at scripted
  obtain ⟨logger, notified, alive, ⟨unattached, rfl⟩ |
    ⟨attached, pool, after, left, pooled, pushes, rfl⟩⟩ := execute_logEvent taken
  · have uninitialized : s.initialized = false :=
      (agreed.attached_eq sound tidy next alive).symm.trans unattached
    refine .kept rfl (fun _ => rfl) fun owner => ?_
    simp [System.pending, System.goto, uninitialized]
  · have initialized : s.initialized = true :=
      (agreed.attached_eq sound tidy next alive).symm.trans attached
    obtain ⟨buffer, pushed, held, rfl, -, filled⟩ :=
      laps.push tidy disciplined formed agreed lends next alive attached pooled pushes
    refine .kept rfl (fun _ => rfl) fun owner => ?_
    rw [List.append_nil, System.pending, System.pending]
    by_cases same : owner = thread
    · subst same
      have logless : (if ({ logger with buffer := some pushed } :
          EventLogger Owner α).flushesNow then [.flush owner] else
            ([] : List (Instruction n α))).filterMap Instruction.event? = [] := by
        split <;> rfl
      simp only [System.goto, Function.update_self, logless, initialized, if_true, next, alive]
      rw [events_alive rfl, events_alive held, contentsOf_eq filled.holds]
      simp [Instruction.event?]
    · simp [System.goto, same]

theorem execute_placed {instruction : Instruction n α} {rest : List (Instruction n α)}
    {overtaken : Overtaken} (laps : FirstLaps o s) (tidy : Tidy s) (disciplined : Disciplined s)
    (formed : Formed o s) (agreed : Agreed s) (sound : Sound s)
    (lends : s.lends thread overtaken = true) (idle : s.queue.clients thread = .idle)
    (next : s.code thread = instruction :: rest)
    (taken : s.execute thread overtaken rest instruction = some s') :
    Placed s s' fun _ => [] := by
  have instructed := execute_instructed taken
  have emptied := tidy.emptied thread
  rw [next] at emptied
  have logless : ∀ {code : List (Instruction n α)}, code.filterMap Instruction.event? =
      (instruction :: rest).filterMap Instruction.event? → ∀ other,
        (Function.update s.code thread code other).filterMap Instruction.event? =
          (s.code other).filterMap Instruction.event? :=
    fun same => logs_goto (same.trans (by rw [next]))
  have kept : ∀ {t : System n α κ}, t.queue = s.queue → t.initialized = s.initialized →
      (∀ owner, (t.loggers owner).events = (s.loggers owner).events) →
      (∀ other, (t.code other).filterMap Instruction.event? =
        (s.code other).filterMap Instruction.event?) → Placed s t fun _ => [] := by
    intro t queue initialized loggers code
    refine .kept (by rw [queue]) (fun other => by rw [System.offered, System.offered, queue]) ?_
    exact fun owner => (pending_eq loggers initialized code owner).trans (List.append_nil _).symm
  cases instructed with
  | ignore | push =>
      exact logEvent_placed laps tidy disciplined formed agreed sound lends next taken
  | keep => exact kept rfl rfl (fun _ => rfl) (logless rfl)
  | unsubscribe logger notified =>
      refine kept rfl rfl (fun _ => rfl) (logless ?_)
      split <;> rfl
  | renew owner logger notified =>
      exact kept rfl rfl
        (events_exchange (emptied owner rfl) (blank_renewed logger notified).events) (logless rfl)
  | leave logger notified =>
      exact kept rfl rfl
        (events_exchange (emptied thread rfl) (blank_detached logger notified).events) (logless rfl)
  | destroy => exact kept rfl rfl (events_exchange (emptied thread rfl) rfl) (logless rfl)
  | pass owner logger notified buffer _ alive passed entered =>
      obtain ⟨queue, enters, rfl⟩ := enter_queue entered
      obtain ⟨buffers, clients⟩ := DiskFlushQueue.call_enqueues enters
      refine .passed thread owner buffer (fun _ => rfl) buffers (by rw [System.offered, idle]; rfl)
        (fun other => ?_) fun other => ?_
      · rw [System.offered, clients]
        by_cases same : other = thread
        · subst same
          simp [DiskFlushQueue.Call.entry, DiskFlushQueue.Client.offered]
        · have apart : (other : Nat) ≠ thread := fun equal => same (Fin.ext equal)
          simp [apart, same, System.offered, System.goto]
      · have events : (s.loggers other).events =
            (if other = owner then contentsOf buffer else []) ++
            (Function.update s.loggers owner (.alive { logger with buffer := some (moved buffer) }
              notified) other).events := by
          by_cases same : other = owner
          · subst same
            rw [if_pos rfl, Function.update_self, alive, events_alive (buffer_of_flush passed),
              events_alive rfl, contentsOf_moved, List.append_nil]
          · rw [if_neg same, Function.update_of_ne same, List.nil_append]
        have codes : (Function.update s.code thread (.renew owner :: rest) other).filterMap
            Instruction.event? = (s.code other).filterMap Instruction.event? :=
          logless (by rfl) other
        simp only [System.pending, System.goto, events, codes, List.append_assoc]

theorem advance_placed {position : Position n κ} (tidy : Tidy s) (unclearing : Unclearing s)
    (code : ∀ other, s.code other = []) (called : s.call = some (thread, position))
    (idle : s.queue.clients thread = .idle) (exclusive : Exclusive s)
    (advanced : Advanced s thread position s') : Placed s s' fun _ => [] := by
  have codes : ∀ other, (s'.code other).filterMap Instruction.event? = [] := by
    intro other
    rcases advanced_code code advanced other with none | ⟨owner, flushes⟩
    · simp [none]
    · simp [flushes, Instruction.event?]
  have pending : (∀ owner, (s'.loggers owner).events = (s.loggers owner).events) → ∀ owner,
      s'.pending owner = s.pending owner ++ [] := by
    intro loggers owner
    rw [List.append_nil, System.pending, System.pending, loggers, codes, code]
    simp
  have offers : ∀ other, s.offered other = [] := by
    intro other
    by_cases same : other = thread
    · rw [same, System.offered, idle]
      rfl
    · rw [System.offered, (exclusive thread position called other same).2.2]
      rfl
  have enters : ∀ {t : System n α κ} {method : DiskFlushQueue.Call (CircularSliceBuffer Owner α) κ},
      t.enter thread method = some s' → t.queue = s.queue → t.loggers = s.loggers →
        method.entry.offered = [] → Placed s s' fun _ => [] := by
    intro t method entered queue loggers bare
    obtain ⟨after, taken, rfl⟩ := enter_queue entered
    rw [queue] at taken
    refine .kept (DiskFlushQueue.call_enqueues taken).1 (fun other => ?_) (pending ?_)
    · have fewer := enter_offered (s := s) taken bare other
      rw [offers] at fewer ⊢
      exact List.sublist_nil.mp fewer
    · exact fun owner => by rw [← loggers]
  cases advanced with
  | attach owner rest logger notified =>
      exact .kept rfl (fun _ => rfl) (pending (events_exchange
        (tidy.attaching thread _ called owner) (blank_setPool logger true notified).events))
  | detach owner rest logger notified alive =>
      refine .kept rfl (fun _ => rfl) (pending fun other => ?_)
      by_cases same : other = owner
      · subst same
        simp only [System.goto, Function.update_self, alive]
        rfl
      · simp [System.goto, same]
  | drop owner rest logger notified =>
      have empty : (s.loggers owner).events = [] := by
        refine (tidy.dropping thread owner rest called).resolve_right ?_
        simp [code]
      exact .kept rfl (fun _ => rfl)
        (pending (events_exchange empty (blank_detached logger notified).events))
  | clear => exact absurd called (unclearing.calling _ _ _)
  | flushQueue _ _ _ entered => exact enters entered rfl rfl rfl
  | clearQueue _ _ entered => exact enters entered rfl rfl rfl
  | drainAndStop _ entered => exact enters entered rfl rfl rfl
  | initialized | uninitialized | deinitialized | detached | flush | resetPool =>
      exact .kept rfl (fun _ => rfl) (pending fun _ => rfl)

/-- What holds in every state of a run in which nothing is dropped on purpose. -/
structure Intact (o : Options α) (s : System n α κ) : Prop where
  sound : Sound s
  disciplined : Disciplined s
  formed : Formed o s
  tidy : Tidy s
  agreed : Agreed s
  delivering : Delivering s
  laps : FirstLaps o s
  unclearing : Unclearing s

theorem Intact.initial (o : Options α) : Intact o (initial : System n α κ) :=
  ⟨.initially, .initial, .initial, .initial, .initial, .initial, .initial o, .initial⟩

theorem thread_placed {now : Int} {overtaken : Overtaken} {order : List (Fin n)}
    (intact : Intact o s) (lends : s.lends thread overtaken = true)
    (taken : s.threadStep o thread now overtaken order = some s') : Placed s s' fun _ => [] := by
  obtain ⟨sound, disciplined, formed, tidy, agreed, delivering, laps, unclearing⟩ := intact
  cases thread_threaded taken with
  | giveBack =>
      exact .kept rfl (fun _ => rfl) fun _ => (List.append_nil _).symm
  | execute instruction rest _ _ released idle next =>
      have executes : s.execute thread overtaken rest instruction = some s' := by
        simpa [System.threadStep, released, idle, next, DiskFlushQueue.Client.isIdle] using taken
      exact execute_placed laps tidy disciplined formed agreed sound lends idle next executes
  | advance position order _ _ idle code called advances =>
      exact advance_placed tidy unclearing (sound.codes code called) called idle sound.exclusive
        (advance_advanced advances)
  | client now queue _ _ moves =>
      have others : ∀ other : Fin n, other ≠ thread →
          (queue.clients other).offered = s.offered other := by
        intro other differ
        rw [DiskFlushQueue.client_others moves fun equal => differ (Fin.ext equal), System.offered]
      have delivers : (queue.enqueuedBuffers = s.queue.enqueuedBuffers ∧
          (queue.clients thread).offered = (s.queue.clients thread).offered) ∨
        ∃ buffer, (s.queue.clients thread).offered = [buffer] ∧
          (queue.clients thread).offered = [] ∧
          queue.enqueuedBuffers = s.queue.enqueuedBuffers ++ [buffer] := by
        by_cases offers : s.offered thread = []
        · rcases DiskFlushQueue.client_enqueues moves with ⟨buffers, fewer⟩ | appended
          · rw [System.offered] at offers
            rw [offers] at fewer ⊢
            exact .inl ⟨buffers, List.sublist_nil.mp fewer⟩
          · exact .inr appended
        · have opened : DiskFlushQueue.Open s.queue := sound.phased.holds (delivering thread offers)
          exact DiskFlushQueue.client_delivers opened moves
      rcases delivers with ⟨buffers, offered⟩ | ⟨buffer, before, after, buffers⟩
      · refine .kept buffers (fun other => ?_) fun _ => (List.append_nil _).symm
        by_cases same : other = thread
        · subst same
          exact offered
        · exact others other same
      · refine .appended thread buffer (fun _ => rfl) buffers before (fun other => ?_) fun _ => rfl
        by_cases same : other = thread
        · subst same
          rw [if_pos rfl]
          exact after
        · rw [if_neg same]
          exact others other same

theorem step_placed {a : Action n α κ} (intact : Intact o s) (lossless : Lossless s a)
    (taken : step o s a = some s') : Placed s s' fun owner => s.records owner a := by
  cases a with
  | call thread method order => exact call_placed taken
  | thread thread now overtaken order => exact thread_placed intact lossless.2 taken
  | worker now ok =>
      cases worker_worked taken with
      | giveBack => exact .kept rfl (fun _ => rfl) fun _ => (List.append_nil _).symm
      | move now ok queue _ moves =>
          refine .kept (DiskFlushQueue.worker_enqueues moves) (fun other => ?_)
            fun _ => (List.append_nil _).symm
          rw [System.offered, System.offered, DiskFlushQueue.worker_clients moves]

end Placed

/-! ## Whole runs -/

section Runs

theorem FirstLaps.frame (laps : FirstLaps o s) (code : s'.code = s.code)
    (loggers : s'.loggers = s.loggers) : FirstLaps o s' := by
  refine ⟨loggers ▸ laps.configured, fun owner => ?_⟩
  rw [loggers, System.Flushing, code]
  exact laps.filling owner

theorem Intact.step {a : Action n α κ} (intact : Intact o s)
    (positive : 0 < o.threadEventBufferCapacity) (flushAll : o.flushAllEvents = true)
    (lossless : Lossless s a) (taken : step o s a = some s') : Intact o s' := by
  obtain ⟨sound, disciplined, formed, tidy, agreed, delivering, laps, unclearing⟩ := intact
  have lapped : FirstLaps o s' := by
    cases a with
    | call thread method order => exact laps.call positive taken
    | worker now ok =>
        cases worker_worked taken with
        | giveBack | move => exact laps.frame rfl rfl
    | thread thread now overtaken order =>
        cases thread_threaded taken with
        | giveBack | client => exact laps.frame rfl rfl
        | execute instruction rest _ _ released idle next =>
            have executes : s.execute thread overtaken rest instruction = some s' := by
              simpa [RuntimeManager.step, System.threadStep, released, idle, next,
                DiskFlushQueue.Client.isIdle] using taken
            exact laps.execute positive flushAll tidy disciplined formed agreed lossless.2 next
              executes
        | advance position order _ _ _ code called advances =>
            exact laps.advance positive (sound.codes code called) (advance_advanced advances)
  exact ⟨step_sound sound (unclearing.clearsUnheld a) taken,
    (step_moved disciplined formed taken).2, formed.step taken, tidy.step sound disciplined taken,
    agreed.step sound tidy taken, delivering.step agreed sound taken, lapped,
    unclearing.step flushAll lossless taken⟩

/-- The events that the runtime took from a thread, in their order: in records, in the hands
    of one thread, and pending. -/
def Carried (tag : α → Fin n) (s : System n α κ) (owner : Fin n) (events : List α) : Prop :=
  ∃ carrier, (∀ other, other ≠ carrier → ownEvents tag owner (s.offered other) = []) ∧
    ownEvents tag owner (s.queue.enqueuedBuffers ++ s.offered carrier) ++ s.pending owner = events

theorem Carried.initial (tag : α → Fin n) (owner : Fin n) :
    Carried tag (initial : System n α κ) owner [] :=
  ⟨owner, fun _ _ => rfl, rfl⟩

theorem pending_sublist (s : System n α κ) (owner : Fin n) :
    (s.pending owner).Sublist (s.waiting owner) := by
  rw [System.pending, System.waiting]
  split
  · exact List.Sublist.refl _
  · exact List.Sublist.append_left (List.nil_sublist _) _

theorem Carried.step {tag : α → Fin n} {labels labels' : List (Action n α κ)} {owner : Fin n}
    {events : List α} {taken : Fin n → List α} (carried : Carried tag s owner events)
    (own : ∀ a ∈ labels, LogsOwn (fun thread event => tag event = thread) a)
    (inOrder : InOrder tag labels s) (inOrder' : InOrder tag labels' s') (exclusive : Exclusive s')
    (placed : Placed s s' taken) : Carried tag s' owner (events ++ taken owner) := by
  obtain ⟨carrier, others, whole⟩ := carried
  cases placed with
  | kept buffers offered pending =>
      refine ⟨carrier, fun other differ => ?_, ?_⟩
      · rw [offered]
        exact others other differ
      · rw [buffers, offered, pending, ← whole, List.append_assoc]
  | passed thread passer buffer none buffers before offered pending =>
      rw [none, List.append_nil]
      have tagged : ownEvents tag owner [buffer] =
          if owner = passer then contentsOf buffer else [] := by
        have origin : ∀ event ∈ contentsOf buffer, tag event = passer := by
          intro event member
          refine inOrder.tag_waiting own ((pending_sublist s passer).subset ?_)
          rw [pending, if_pos rfl]
          exact List.mem_append_left _ member
        rw [ownEvents, List.flatMap_singleton]
        split
        · rename_i same
          refine List.filter_eq_self.mpr fun event member => ?_
          simpa [same] using origin event member
        · rename_i differ
          refine List.filter_eq_nil_iff.mpr fun event member => ?_
          simpa [origin event member] using Ne.symm differ
      rw [pending, ← tagged, ← List.append_assoc] at whole
      have elsewhere : ∀ other, other ≠ thread →
          ownEvents tag owner (s'.offered other) = ownEvents tag owner (s.offered other) :=
        fun other differ => by rw [offered, if_neg differ]
      by_cases empty : ownEvents tag owner [buffer] = []
      · have same : ∀ other, ownEvents tag owner (s'.offered other) =
            ownEvents tag owner (s.offered other) := by
          intro other
          by_cases own : other = thread
          · rw [own, offered, if_pos rfl, before, empty]
            rfl
          · exact elsewhere other own
        refine ⟨carrier, fun other differ => (same other).trans (others other differ), ?_⟩
        rw [ownEvents_append, buffers, same, ← ownEvents_append, ← whole, empty, List.append_nil]
      · have alone : ∀ other, other ≠ thread → ownEvents tag owner (s'.offered other) = [] := by
          intro other differ
          refine (inOrder'.offered_apart exclusive (Ne.symm differ)).resolve_left ?_
          rwa [offered, if_pos rfl]
        have none : ownEvents tag owner (s.offered carrier) = [] := by
          by_cases same : carrier = thread
          · rw [same, before]
            rfl
          · exact (elsewhere carrier same).symm.trans (alone carrier same)
        refine ⟨thread, alone, ?_⟩
        rw [ownEvents_append, buffers, offered, if_pos rfl, ← whole, ownEvents_append, none,
          List.append_nil]
  | appended thread buffer none buffers before offered pending =>
      rw [none, List.append_nil]
      refine ⟨carrier, fun other differ => ?_, ?_⟩
      · rw [offered]
        split
        · rfl
        · exact others other differ
      · rw [buffers, offered, pending, ← whole]
        split
        · rename_i same
          rw [same, before, List.append_nil]
        · rename_i differ
          have foreign : ownEvents tag owner [buffer] = [] := by
            rw [← before]
            exact others thread (Ne.symm differ)
          simp only [ownEvents_append, foreign, List.append_nil]

/-- A step of the manager is a step of the queue or leaves the queue alone. -/
theorem step_queue {a : Action n α κ} (taken : step o s a = some s') :
    s'.queue = s.queue ∨ ∃ b, DiskFlushQueue.step o.queue s.queue b = some s'.queue ∧
      ∀ client now, b = .client client now → ∃ thread : Fin n, client = thread := by
  have entered : ∀ {t : System n α κ} {thread : Fin n}
      {method : DiskFlushQueue.Call (CircularSliceBuffer Owner α) κ},
      t.enter thread method = some s' → t.queue = s.queue →
      ∃ b, DiskFlushQueue.step o.queue s.queue b = some s'.queue ∧
        ∀ client now, b = .client client now → ∃ thread : Fin n, client = thread := by
    intro t thread method enters queue
    obtain ⟨after, moves, rfl⟩ := enter_queue enters
    exact ⟨.call thread method, queue ▸ moves, by simp⟩
  cases a with
  | worker now ok =>
      cases worker_worked taken with
      | giveBack => exact .inl rfl
      | move now ok queue _ moves => exact .inr ⟨.worker now ok, moves, by simp⟩
  | call thread method order =>
      cases call_called taken with
      | flag | exit | begin => exact .inl rfl
      | log t code _ constructed => exact .inl (construct_call constructed).2.2.2.1
      | launch order _ _ _ _ _ launches => exact .inr (entered launches rfl)
  | thread thread now overtaken order =>
      cases thread_threaded taken with
      | giveBack => exact .inl rfl
      | client now queue _ _ moves =>
          refine .inr ⟨.client thread now, moves, ?_⟩
          rintro client reading ⟨⟩
          exact ⟨thread, rfl⟩
      | execute instruction rest overtaken _ _ _ _ executes =>
          rcases (instructed_executed (execute_instructed executes)).queue with
            same | ⟨buffer, enters⟩
          · exact .inl same
          · exact .inr ⟨.call thread (.enqueue buffer), enters, by simp⟩
      | advance position order _ _ _ _ _ advances =>
          cases advance_advanced advances with
          | flushQueue completion _ _ enters => exact .inr (entered enters rfl)
          | clearQueue _ _ enters => exact .inr (entered enters rfl)
          | drainAndStop _ enters => exact .inr (entered enters rfl)
          | _ => exact .inl rfl

/-- The records in the queue are where they are due, and those that left it were written. -/
structure Accounted (queue : DiskFlushQueue.State (CircularSliceBuffer Owner α) κ) : Prop where
  keeping : queue.Keeping
  tracked : DiskFlushQueue.Tracked queue
  written : DiskFlushQueue.Written queue

theorem Accounted.step {a : Action n α κ} (accounted : Accounted s.queue)
    (flushAll : o.queue.flushAllEvents = true) (unclearing : Unclearing s)
    (lossless : Lossless s a) (taken : step o s a = some s') : Accounted s'.queue := by
  rcases step_queue taken with same | ⟨b, moves, clients⟩
  · exact same ▸ accounted
  · obtain ⟨keeping, tracked, written⟩ := accounted
    refine ⟨DiskFlushQueue.step_keeping flushAll keeping moves,
      DiskFlushQueue.step_tracked tracked moves,
      written.step flushAll keeping ?_ lossless.1 moves⟩
    intro clears
    obtain ⟨client, now, rfl, position⟩ := DiskFlushQueue.criticalSection_eq_clear clears
    obtain ⟨thread, rfl⟩ := clients client now rfl
    exact unclearing.clients thread position

theorem run_intact {tag : α → Fin n} {labels : List (Action n α κ)}
    (everything : o.flushAllEvents = true ∧ o.queue.flushAllEvents = true)
    (positive : 0 < o.threadEventBufferCapacity)
    (own : ∀ a ∈ labels, LogsOwn (fun thread event => tag event = thread) a)
    (lossless : Meets (step o) Lossless initial labels)
    (reached : exec (step o) initial labels = some s) :
    Intact o s ∧ Accounted s.queue ∧
      ∀ owner, Carried tag s owner (recorded o owner initial labels) := by
  suffices run : (∀ a ∈ labels, LogsOwn (fun thread event => tag event = thread) a) ∧
      exec (step o) initial labels = some s ∧ Intact o s ∧ Accounted s.queue ∧
        InOrder tag labels s ∧ ∀ owner, Carried tag s owner (recorded o owner initial labels) from
    ⟨run.2.2.1, run.2.2.2.1, run.2.2.2.2.2⟩
  refine history_invariant
    (fun s a => LogsOwn (fun thread event => tag event = thread) a ∧ Lossless s a)
    (fun labels s => (∀ a ∈ labels, LogsOwn (fun thread event => tag event = thread) a) ∧
      exec (step o) initial labels = some s ∧ Intact o s ∧ Accounted s.queue ∧
      InOrder tag labels s ∧ ∀ owner, Carried tag s owner (recorded o owner initial labels))
    ⟨by simp, rfl, .initial o, ⟨DiskFlushQueue.Keeping.initial, .initial, .initial⟩, .initial,
      .initial tag⟩ ?_
    ((meets_of_forall own).and lossless) reached
  rintro labels t a u ⟨earlier, before, intact, accounted, inOrder, carried⟩ ⟨last, conforms⟩ taken
  have intact' := intact.step positive everything.1 conforms taken
  have moves := (step_moved intact.disciplined intact.formed taken).1
  have inOrder' := inOrder.step intact.sound.exclusive earlier taken moves
  refine ⟨?_, exec_concat.mpr ⟨t, before, taken⟩, intact',
    accounted.step everything.2 intact.unclearing conforms taken, inOrder', fun owner => ?_⟩
  · intro b member
    rcases List.mem_append.mp member with before | added
    · exact earlier b before
    · exact List.mem_singleton.mp added ▸ last
  · rw [recorded_concat before]
    exact (carried owner).step earlier inOrder inOrder' intact'.sound.exclusive
      (step_placed intact conforms taken)

end Runs

/-- In log-everything mode, in every run in which nobody calls `Clear`, the pool has a slice
    for every event that needs one and no write fails that is not tried again: once the
    runtime is deinitialised and every thread is outside, the records hold the events that
    each thread logged while the runtime was on, all of them and in order, and every record
    was written. -/
theorem recorded_events_written (o : Options (Fin n × α)) (labels : List (Action n α κ))
    (s : System n (Fin n × α) κ)
    (everything : o.flushAllEvents = true ∧ o.queue.flushAllEvents = true)
    (positive : 0 < o.threadEventBufferCapacity)
    (lossless : Meets (step o) Lossless initial (labels.map Action.marked))
    (reached : exec (step o) initial (labels.map Action.marked) = some s)
    (off : s.initialized = false) (outside : ∀ thread, s.outside thread = true)
    (thread : Fin n) :
    ownEvents Prod.fst thread s.queue.enqueuedBuffers =
        recorded o thread initial (labels.map Action.marked) ∧
      ∀ client record, .enqueued client record ∈ s.queue.log →
        .wrote record.id true ∈ s.queue.log := by
  have own : ∀ a ∈ labels.map Action.marked,
      LogsOwn (fun (thread : Fin n) (event : Fin n × α) => event.1 = thread) a := by
    intro a member
    obtain ⟨b, -, rfl⟩ := List.mem_map.mp member
    exact logsOwn_marked b
  obtain ⟨intact, ⟨keeping, tracked, written⟩, carried⟩ :=
    run_intact everything positive own lossless reached
  have uncalled : s.call = none := by
    by_contra called
    obtain ⟨⟨caller, position⟩, calls⟩ := Option.ne_none_iff_exists'.mp called
    exact (outside_iff.mp (outside caller)).2.2.2 position calls
  have stopped : DiskFlushQueue.Stopped s.queue := by
    have phase : s.phase = .stopped := by simp [System.phase, uncalled, off, restingPhase]
    exact intact.sound.phased.holds phase
  refine ⟨?_, fun client record given => written.of_stopped tracked stopped given⟩
  obtain ⟨carrier, -, whole⟩ := carried thread
  have offered : s.offered carrier = [] := by
    rw [System.offered, (outside_iff.mp (outside carrier)).2.2.1]
    rfl
  have pending : s.pending thread = [] := by
    rw [System.pending, events_of_slices (intact.sound.slices_of_idle uncalled off thread), off]
    rfl
  rwa [offered, pending, List.append_nil, List.append_nil] at whole

/-- A manager that writes everything, for events that are marked with one of two threads. -/
def everythingMarked : Options (Fin 2 × Nat) :=
  { keepLatestMarked with
    queue := { keepLatestMarked.queue with flushAllEvents := true }
    flushAllEvents := true }

/-- A thread logs three events into buffers for two, and another one deinitialises the
    runtime and waits until the worker has written both of them. -/
def logThreeThenJoin (thread other : Fin 2) : List (Action 2 Nat Unit) :=
  startAndLog ++ Action.call thread (.logEvent 8) [] :: stepsOf thread 7 ++
    Action.call thread (.logEvent 5) [] :: stepsOf thread 1 ++
    Action.call other .deinitializeRuntime [] ::
      List.replicate 19 (.thread other 1 ⟨0, 0⟩ [thread]) ++
    List.replicate 24 (.worker 1 true) ++ stepsOf other 2

theorem recorded_events_written_logThreeThenJoin :
    ∃ s, exec (step everythingMarked) initial ((logThreeThenJoin 0 1).map Action.marked) =
        some s ∧
      s.queue.enqueuedBuffers.length = 2 ∧
      ownEvents Prod.fst 0 s.queue.enqueuedBuffers = [(0, 7), (0, 8), (0, 5)] ∧
      ∀ client record, .enqueued client record ∈ s.queue.log →
        .wrote record.id true ∈ s.queue.log := by
  have lossless : Meets (step everythingMarked) Lossless initial
      ((logThreeThenJoin 0 1).map Action.marked) := by decide +kernel
  have written := recorded_events_written everythingMarked (logThreeThenJoin 0 1) _ ⟨rfl, rfl⟩
    (by decide) lossless rfl rfl (by decide +kernel) 0
  exact ⟨_, rfl, rfl, written.1.trans (by decide +kernel), written.2⟩

end Spoor.Runtime.RuntimeManager
