import Spoor.Runtime.Deinitialize

/-! # Methods that overlap

`lock_` is held for sections of a method and not for the whole of it.  `Deinitialize`
takes it to disable the runtime, again to detach the loggers and again to flush or
clear them, and it resets the pool without it.  In between other threads may log, end
or call any method.  Here every thread is in a method of its own and waits for
nothing but the lock.

A logger itself has no lock.  Where two threads use one logger at a time, which the
source leaves undefined, their steps are taken one after the other.

While the methods that go through all loggers have the manager for themselves, what
a thread does here is what it does in `System`.
-/

namespace Spoor.Runtime.RuntimeManager

open Buffer EventLogging FlushQueue Lib.Transition

variable {n : Nat} {α κ : Type}

/-- `common` is what the threads share and has no call, `calls` is where each of them
    stands, and `testing` is the event of a thread that has constructed its logger and
    has yet to test `Enabled`. -/
structure Overlapping (n : Nat) (α κ : Type) where
  common : System n α κ
  calls : Fin n → Option (Position n κ)
  testing : Fin n → Option α

/-- A call that stands here holds `lock_`; `working` says that the thread is not done
    with its last logger. -/
def Position.locked (working : Bool) : Position n κ → Bool
  | .attach _ | .drop _ _ => true
  | .detach rest | .flush rest _ _ | .clear rest _ => working || !rest.isEmpty
  | .deinitializeRuntime | .drainAndStop | .resetPool => false

def Instruction.leaves : Instruction n α → Bool
  | .leave => true
  | _ => false

def ThreadLocal.notifies : ThreadLocal α → Bool
  | .alive _ notified => notified
  | _ => false

/-- `~EventLogger` flushes the buffer before it takes `lock_`, every other method starts
    with it. -/
def Method.locks : Method α κ → Bool
  | .exit => false
  | _ => true

/-- The method goes through all loggers. -/
def Method.exclusive : Method α κ → Bool
  | .initializeRuntime | .deinitializeRuntime | .flush _ | .clear => true
  | _ => false

/-- The method uses the logger of its thread. -/
def Method.single : Method α κ → Bool
  | .logEvent _ | .exit => true
  | _ => false

namespace Overlapping

variable (o : Options α) (s : Overlapping n α κ)

def initial : Overlapping n α κ where
  common := RuntimeManager.initial
  calls := fun _ => none
  testing := fun _ => none

/-- What the thread sees of the manager: the call is its own. -/
def seen (thread : Fin n) : System n α κ :=
  { s.common with call := (s.calls thread).map fun position => (thread, position) }

/-- The thread has moved on. -/
def after (thread : Fin n) (moved : System n α κ) : Overlapping n α κ :=
  { s with
    common := { moved with call := none }
    calls := Function.update s.calls thread (moved.call.map Prod.snd) }

def outside (thread : Fin n) : Bool :=
  (s.seen thread).outside thread && (s.testing thread).isNone

/-- The thread is done with its last instruction. -/
def settled (thread : Fin n) : Bool :=
  (s.common.releasing thread).isEmpty && (s.common.queue.clients thread).isIdle

/-- The thread holds `lock_`.  Without a call it may be in `Unsubscribe`, which ends when
    the slices of the buffer are back. -/
def locked (thread : Fin n) : Bool :=
  match s.calls thread, s.common.code thread with
  | some position, code => position.locked (!s.settled thread || !code.isEmpty)
  | none, [.destroy] => !s.settled thread
  | none, code => code.any Instruction.leaves

/-- The next step of the thread takes `lock_`. -/
def locks (thread : Fin n) : Bool :=
  (s.testing thread).isSome || s.settled thread &&
    match s.calls thread, s.common.code thread with
    | none, .unsubscribe :: _ => (s.common.loggers thread).notifies
    | some .deinitializeRuntime, [] | some (.detach []), [] => true
    | _, _ => false

/-- Nobody holds `lock_`. -/
def free : Bool := decide (∀ thread, s.locked thread = false)

/-- A thread enters a method of the manager.  The first `LogEvent` of a thread takes the
    lock in `Subscribe` and again in `Enabled`. -/
def callStep (thread : Fin n) (method : Method α κ) (order : List (Fin n)) :
    Option (Overlapping n α κ) :=
  if !s.outside thread || method.locks && !s.free then none
  else
    match method, s.common.loggers thread with
    | .logEvent event, .unconstructed =>
        ((s.seen thread).construct o thread).map fun moved =>
          { s.after thread moved with testing := Function.update s.testing thread (some event) }
    | _, _ => ((s.seen thread).begin o true true thread method order).map (s.after thread)

/-- The next step of a thread inside the manager. -/
def threadStep (thread : Fin n) (now : Int) (overtaken : Overtaken) (order : List (Fin n)) :
    Option (Overlapping n α κ) :=
  if s.locks thread && !s.free then none
  else
    match s.testing thread with
    | some event =>
        some { s with
          common := if s.common.enabled then s.common.goto thread [.logEvent event] else s.common
          testing := Function.update s.testing thread none }
    | none => ((s.seen thread).threadStep o thread now overtaken order).map (s.after thread)

def step : Action n α κ → Option (Overlapping n α κ)
  | .call thread method order => s.callStep o thread method order
  | .thread thread now overtaken order => s.threadStep o thread now overtaken order
  | .worker now ok => (s.common.workerStep o now ok).map fun common => { s with common }

/-- `Initialize`, `Deinitialize`, `Flush` and `Clear` are called while every thread is
    outside, and nobody logs or ends before they are over. -/
def Unaccompanied (s : Overlapping n α κ) : Action n α κ → Prop
  | .call _ method _ =>
      (method.exclusive = true → ∀ other, s.outside other = true) ∧
        (method.single = true → ∀ other, s.calls other = none)
  | _ => True

/-- And the queue is only cleared while its worker holds no record. -/
def Undisturbed (s : Overlapping n α κ) (a : Action n α κ) : Prop :=
  ClearsUnheld s.common a ∧ s.Unaccompanied a

instance (s : Overlapping n α κ) : ∀ a, Decidable (s.Unaccompanied a)
  | .call _ method _ => inferInstanceAs (Decidable (
      (method.exclusive = true → ∀ other, s.outside other = true) ∧
        (method.single = true → ∀ other, s.calls other = none)))
  | .thread _ _ _ _ | .worker _ _ => inferInstanceAs (Decidable True)

instance [DecidableEq κ] (s : Overlapping n α κ) (a : Action n α κ) :
    Decidable (s.Undisturbed a) :=
  inferInstanceAs (Decidable (ClearsUnheld s.common a ∧ s.Unaccompanied a))

end Overlapping

section

variable {o : Options α} {s s' : Overlapping n α κ} {t t' : System n α κ} {thread : Fin n}
  {order : List (Fin n)}

/-- `t` is the manager with the only call under way. -/
structure Overlapping.Follows (s : Overlapping n α κ) (t : System n α κ) : Prop where
  common : s.common = { t with call := none }
  calls : ∀ thread position, s.calls thread = some position ↔ t.call = some (thread, position)
  testing : t.call ≠ none → ∀ thread, s.testing thread = none

theorem Overlapping.Follows.initially :
    (Overlapping.initial : Overlapping n α κ).Follows RuntimeManager.initial where
  common := rfl
  calls := by simp [Overlapping.initial, RuntimeManager.initial]
  testing uncalled := absurd rfl uncalled

/-- Without a call of somebody else a thread sees the whole manager. -/
theorem Overlapping.Follows.seen (follows : s.Follows t)
    (own : ∀ caller position, t.call = some (caller, position) → caller = thread) :
    s.seen thread = t := by
  have call : (s.calls thread).map (fun position => (thread, position)) = t.call := by
    cases called : t.call with
    | none =>
        cases stands : s.calls thread with
        | none => rfl
        | some position => cases called.symm.trans ((follows.calls thread position).mp stands)
    | some call =>
        obtain rfl := own call.1 call.2 called
        rw [(follows.calls call.1 call.2).mpr called]
        rfl
  rw [Overlapping.seen, follows.common, call]

theorem Overlapping.Follows.after (follows : s.Follows t)
    (own : ∀ caller position, t.call = some (caller, position) → caller = thread)
    (calls : ∀ caller position, t'.call = some (caller, position) → caller = thread)
    (testing : t'.call ≠ none → ∀ other, s.testing other = none) :
    (s.after thread t').Follows t' where
  common := rfl
  calls other position := by
    by_cases same : other = thread
    · subst same
      simp only [Overlapping.after, Function.update_self, Option.map_eq_some_iff]
      constructor
      · rintro ⟨⟨caller, stands⟩, called, rfl⟩
        exact calls caller stands called ▸ called
      · exact fun called => ⟨_, called, rfl⟩
    · simp only [Overlapping.after, Function.update_of_ne same]
      constructor
      · exact fun stands => absurd (own _ _ ((follows.calls other position).mp stands)) same
      · exact fun called => absurd (calls _ _ called) same
  testing := testing

theorem Overlapping.Follows.uncalled (follows : s.Follows t)
    (nowhere : ∀ other, s.calls other = none) : t.call = none := by
  by_contra called
  obtain ⟨⟨caller, position⟩, stands⟩ := Option.ne_none_iff_exists'.mp called
  cases (nowhere caller).symm.trans ((follows.calls caller position).mpr stands)

theorem Overlapping.outside_iff :
    s.outside thread = true ↔ s.common.code thread = [] ∧ s.common.releasing thread = [] ∧
      s.common.queue.clients thread = .idle ∧ s.calls thread = none ∧
        s.testing thread = none := by
  rw [Overlapping.outside, Bool.and_eq_true, RuntimeManager.outside_iff]
  simp [Overlapping.seen, and_assoc, Option.eq_none_iff_forall_ne_some]

/-- A call that goes through all loggers is one of the thread that made it. -/
theorem called_own (called : Called o t thread t') (uncalled : t.call = none) :
    ∀ caller position, t'.call = some (caller, position) → caller = thread := by
  intro caller position calls
  cases called with
  | flag | exit => cases uncalled.symm.trans calls
  | log u code _ constructed =>
      cases ((construct_call constructed).1.trans uncalled).symm.trans calls
  | begin =>
      cases calls
      rfl
  | launch order _ _ _ _ _ entered =>
      obtain ⟨queue, -, rfl⟩ := enter_queue entered
      cases calls
      rfl

/-- A method that may start by itself does what it does in `System`. -/
theorem begin_called {method : Method α κ} (uncalled : t.call = none)
    (outside : t.outside thread = true)
    (alone : method.exclusive = true → ∀ other, t.outside other = true)
    (taken : t.begin o true true thread method order = some t') : Called o t thread t' := by
  have enters : t.callStep o thread method order = some t' := by
    rw [System.callStep, uncalled, outside]
    cases method with
    | logEvent | exit | enable | disable => exact taken
    | initializeRuntime | deinitializeRuntime | flush | clear =>
        simpa [alone rfl] using taken
  exact call_called enters

theorem begin_single {method : Method α κ} {free alone : Bool} (single : method.single = true)
    (taken : t.begin o free alone thread method order = some t') : t'.call = t.call := by
  cases method with
  | logEvent event =>
      simp only [System.begin] at taken
      split at taken
      · cases taken
      · obtain ⟨moved, constructed, rfl⟩ := Option.map_eq_some_iff.mp taken
        have same := (construct_call constructed).1
        split <;> exact same
  | exit =>
      simp only [System.begin] at taken
      split at taken
      · obtain rfl := Option.some.inj taken
        rfl
      · cases taken
  | _ => cases single

theorem begin_flag {method : Method α κ} {free alone : Bool}
    (loggerless : method.exclusive = false ∧ method.single = false)
    (taken : t.begin o free alone thread method order = some t') :
    ∃ enabled, { t with enabled } = t' := by
  cases method with
  | enable =>
      obtain rfl := Option.some.inj taken
      split
      · exact ⟨true, rfl⟩
      · exact ⟨t.enabled, rfl⟩
  | disable => exact ⟨false, Option.some.inj taken⟩
  | logEvent | exit => cases loggerless.2
  | _ => cases loggerless.1

theorem flag_follows {enabled : Bool} (follows : s.Follows t) :
    (s.after thread { s.seen thread with enabled }).Follows { t with enabled } where
  common := by
    simp only [Overlapping.after, Overlapping.seen, follows.common]
  calls other position := by
    rw [← follows.calls other position]
    by_cases same : other = thread
    · subst same
      simp [Overlapping.after, Overlapping.seen]
    · simp [Overlapping.after, same]
  testing := follows.testing

/-- A method that uses loggers is entered while no call is under way. -/
theorem Overlapping.Follows.enters (follows : s.Follows t) {method : Method α κ}
    (outside : s.outside thread = true) (loggers : (method.exclusive || method.single) = true)
    (unaccompanied : s.Unaccompanied (.call thread method order)) :
    t.call = none ∧ s.seen thread = t ∧ t.outside thread = true ∧
      (method.exclusive = true → (∀ other, t.outside other = true) ∧
        ∀ other, s.testing other = none) := by
  have uncalled : t.call = none := by
    refine follows.uncalled fun other => ?_
    rcases Bool.or_eq_true_iff.mp loggers with exclusive | single
    · exact (Overlapping.outside_iff.mp (unaccompanied.1 exclusive other)).2.2.2.1
    · exact unaccompanied.2 single other
  have outer : ∀ {other : Fin n}, s.outside other = true → t.outside other = true := by
    intro other outside
    obtain ⟨code, releasing, idle, -, -⟩ := Overlapping.outside_iff.mp outside
    rw [follows.common] at code releasing idle
    exact RuntimeManager.outside_iff.mpr ⟨code, releasing, idle, by simp [uncalled]⟩
  refine ⟨uncalled, follows.seen (by simp [uncalled]), outer outside, fun exclusive => ?_⟩
  have apart := unaccompanied.1 exclusive
  exact ⟨fun other => outer (apart other), fun other =>
    (Overlapping.outside_iff.mp (apart other)).2.2.2.2⟩

theorem call_follows {method : Method α κ} (follows : s.Follows t) (sound : Sound t)
    (unaccompanied : s.Unaccompanied (.call thread method order))
    (taken : s.callStep o thread method order = some s') : ∃ t', s'.Follows t' ∧ Sound t' := by
  unfold Overlapping.callStep at taken
  split at taken
  · cases taken
  · rename_i entering
    have outside : s.outside thread = true := by
      simp only [Bool.or_eq_true, not_or, Bool.not_eq_true', Bool.not_eq_false] at entering
      exact entering.1
    split at taken
    · rename_i event _
      obtain ⟨uncalled, seen, -, -⟩ := follows.enters outside rfl unaccompanied
      obtain ⟨moved, constructed, rfl⟩ := Option.map_eq_some_iff.mp taken
      rw [seen] at constructed
      have called : Called o t thread moved := by
        rw [← goto_code moved thread]
        exact .log moved _ uncalled constructed
      have still := (construct_call constructed).1.trans uncalled
      have after : (s.after thread moved).Follows moved :=
        follows.after (by simp [uncalled]) (by simp [still]) (absurd still)
      exact ⟨moved, ⟨after.common, after.calls, absurd still⟩, sound.called called⟩
    · rename_i method _ _ _
      obtain ⟨moved, begins, rfl⟩ := Option.map_eq_some_iff.mp taken
      by_cases loggers : (method.exclusive || method.single) = true
      · obtain ⟨uncalled, seen, own, alone⟩ := follows.enters outside loggers unaccompanied
        rw [seen] at begins
        have called := begin_called uncalled own (fun exclusive => (alone exclusive).1) begins
        refine ⟨moved, follows.after (by simp [uncalled]) (called_own called uncalled) ?_,
          sound.called called⟩
        intro calls
        rcases Bool.or_eq_true_iff.mp loggers with exclusive | single
        · exact (alone exclusive).2
        · exact absurd ((begin_single single begins).trans uncalled) calls
      · obtain ⟨enabled, rfl⟩ := begin_flag (by simpa using loggers) begins
        have called : Called o t thread { t with enabled } := .flag enabled
        exact ⟨_, flag_follows follows, sound.called called⟩

theorem thread_follows {now : Int} {overtaken : Overtaken} (follows : s.Follows t)
    (sound : Sound t) (conforms : ClearsUnheld s.common (.thread thread now overtaken order))
    (taken : s.threadStep o thread now overtaken order = some s') :
    ∃ t', s'.Follows t' ∧ Sound t' := by
  unfold Overlapping.threadStep at taken
  split at taken
  · cases taken
  · split at taken
    · rename_i event tests
      obtain rfl := Option.some.inj taken
      have uncalled : t.call = none := by
        by_contra called
        cases (follows.testing called thread).symm.trans tests
      have same : s.common = t := by
        rw [follows.common, ← uncalled]
      rw [same]
      split
      · have called : Called o t thread (t.goto thread [.logEvent event]) := .exit _ uncalled
        refine ⟨t.goto thread [.logEvent event], ⟨?_, follows.calls, absurd uncalled⟩,
          sound.called called⟩
        rw [System.goto, ← uncalled]
      · exact ⟨t, ⟨same ▸ follows.common, follows.calls, absurd uncalled⟩, sound⟩
    · obtain ⟨moved, steps, rfl⟩ := Option.map_eq_some_iff.mp taken
      have conforms : ClearsUnheld t (.thread thread now overtaken order) := by
        rw [follows.common] at conforms
        exact conforms
      by_cases own : ∀ caller position, t.call = some (caller, position) → caller = thread
      · rw [follows.seen own] at steps
        obtain ⟨-, calls⟩ := threaded_local (thread_threaded steps)
        refine ⟨moved, follows.after own ?_ ?_, sound.threaded conforms steps⟩
        · intro caller position called
          obtain ⟨before, calling⟩ := calls caller position called
          exact own caller before calling
        · intro called
          obtain ⟨⟨caller, position⟩, calling⟩ := Option.ne_none_iff_exists'.mp called
          obtain ⟨before, had⟩ := calls caller position calling
          exact follows.testing (by simp [had])
      · simp only [not_forall] at own
        obtain ⟨caller, position, called, other⟩ := own
        obtain ⟨code, releasing, idle⟩ :=
          sound.exclusive caller position called thread (Ne.symm other)
        have none : s.calls thread = none := by
          by_contra stands
          obtain ⟨position', stands⟩ := Option.ne_none_iff_exists'.mp stands
          have calls := (follows.calls thread position').mp stands
          rw [called] at calls
          exact other (congrArg Prod.fst (Option.some.inj calls))
        simp [System.threadStep, Overlapping.seen, follows.common, code, releasing, idle, none,
          DiskFlushQueue.Client.isIdle] at steps

/-- The worker does not look at the call. -/
theorem workerStep_call (t : System n α κ) (call : Option (Fin n × Position n κ)) (now : Int)
    (ok : Bool) :
    { t with call }.workerStep o now ok =
      (t.workerStep o now ok).map fun moved => { moved with call } := by
  simp only [System.workerStep]
  split <;> simp [Option.map_map, Function.comp_def]

theorem worker_follows {now : Int} {ok : Bool} {common : System n α κ} (follows : s.Follows t)
    (sound : Sound t) (taken : s.common.workerStep o now ok = some common) :
    ∃ t', { s with common }.Follows t' ∧ Sound t' := by
  rw [follows.common, workerStep_call] at taken
  obtain ⟨moved, steps, rfl⟩ := Option.map_eq_some_iff.mp taken
  have worked := worker_worked steps
  have call : moved.call = t.call := by
    cases worked <;> rfl
  refine ⟨moved, ⟨rfl, ?_, ?_⟩, sound.worked worked⟩
  · rw [call]
    exact follows.calls
  · rw [call]
    exact follows.testing

theorem run_follows {labels : List (Action n α κ)}
    (meets : Meets (Overlapping.step o) Overlapping.Undisturbed .initial labels)
    (reached : exec (Overlapping.step o) .initial labels = some s) :
    ∃ t, s.Follows t ∧ Sound t := by
  refine invariant Overlapping.Undisturbed (fun s => ∃ t, s.Follows t ∧ Sound t)
    ⟨_, .initially, .initially⟩ ?_ meets reached
  rintro s a s' ⟨t, follows, sound⟩ ⟨conforms, unaccompanied⟩ taken
  cases a with
  | call thread method order => exact call_follows follows sound unaccompanied taken
  | thread thread now overtaken order => exact thread_follows follows sound conforms taken
  | worker now ok =>
      obtain ⟨common, steps, rfl⟩ := Option.map_eq_some_iff.mp taken
      exact worker_follows follows sound steps

end

/-- In a run in which the queue is only cleared while its worker holds no record, and the
    methods that go through all loggers have the manager for themselves, every slice is
    back in the pool when `Deinitialize` destroys it. -/
theorem deinitialize_returns_slices (o : Options α) (labels : List (Action n α κ))
    (s : Overlapping n α κ) (caller : Fin n)
    (meets : Meets (Overlapping.step o) Overlapping.Undisturbed .initial labels)
    (reached : exec (Overlapping.step o) .initial labels = some s)
    (resetting : (s.seen caller).Resetting caller) : s.common.Returned := by
  obtain ⟨t, follows, sound⟩ := run_follows meets reached
  have stands : s.calls caller = some .resetPool := by
    simpa [Overlapping.seen] using resetting.call
  have calls := (follows.calls caller .resetPool).mp stands
  have seen : s.seen caller = t := by
    refine follows.seen fun other position called => ?_
    rw [calls] at called
    exact (congrArg Prod.fst (Option.some.inj called)).symm
  rw [seen] at resetting
  rw [follows.common]
  obtain ⟨loggers, threads, queue, worker, full⟩ := sound.returned resetting
  exact ⟨loggers, threads, queue, worker, full⟩

def workerSteps {n : Nat} (count : Nat) : List (Action n Nat Unit) :=
  List.replicate count (.worker 1 true)

/-- One event is logged and `Deinitialize` comes as far as `Clear` of the queue. -/
def logThenDetach (thread : Fin 1) : List (Action 1 Nat Unit) :=
  Action.call thread .initializeRuntime [] :: threadSteps 4 [] ++
    [Action.call thread .enable [], Action.call thread (.logEvent 7) []] ++ threadSteps 2 [] ++
    [Action.call thread .deinitializeRuntime []] ++ threadSteps 11 [thread]

/-- The record is cleared before the worker gets to it. -/
def clearThenDrain (thread : Fin 1) : List (Action 1 Nat Unit) :=
  logThenDetach thread ++ threadSteps 7 [] ++ workerSteps 4 ++ threadSteps 1 []

/-- `Clear` comes while the worker holds the record, which the worker then puts back. -/
def clearWhileHeld (thread : Fin 1) : List (Action 1 Nat Unit) :=
  logThenDetach thread ++ workerSteps 2 ++ threadSteps 3 [] ++ workerSteps 3 ++
    threadSteps 3 [] ++ workerSteps 4 ++ threadSteps 1 []

theorem deinitialize_returns_slices_clearThenDrain :
    ∃ s, exec (Overlapping.step keepLatest) .initial (clearThenDrain 0) = some s ∧
      (s.seen 0).Resetting 0 ∧ s.common.Returned := by
  have meets : Meets (Overlapping.step keepLatest) Overlapping.Undisturbed .initial
      (clearThenDrain 0) := by decide +kernel
  refine ⟨_, rfl, ⟨rfl, rfl, rfl, rfl⟩, ?_⟩
  exact deinitialize_returns_slices keepLatest (clearThenDrain 0) _ 0 meets rfl
    ⟨rfl, rfl, rfl, rfl⟩

/-- `keepLatest` with every event written. -/
def keepEverything : Options Nat :=
  { keepLatest with
    queue := { keepLatest.queue with flushAllEvents := true }
    flushAllEvents := true }

/-- A thread enables the runtime while `Deinitialize` has yet to detach the loggers, and
    subscribes a new one before the pool is gone. -/
def logWhileDetached (thread other : Fin 2) : List (Action 2 Nat Unit) :=
  let own (count : Nat) : List (Action 2 Nat Unit) :=
    List.replicate count (.thread thread 1 ⟨0, 0⟩ [other])
  Action.call thread .initializeRuntime [] :: List.replicate 4 (.thread thread 1 ⟨0, 0⟩ []) ++
    [.call thread .enable [], .call thread .deinitializeRuntime [], .call other .enable [],
      .thread thread 1 ⟨0, 0⟩ [], .call other (.logEvent 7) []] ++ own 4 ++
    List.replicate 2 (.thread other 1 ⟨0, 0⟩ []) ++ own 6 ++ workerSteps 4 ++ own 1

/-- The drain ends with the record in the deque and a slice out when the pool is
    destroyed; so it does when another thread logs in between the sections of
    `Deinitialize`, though nothing is cleared. -/
theorem deinitialize_loses_slices :
    (∃ s, exec (Overlapping.step keepLatest) .initial (clearWhileHeld 0) = some s ∧
      Meets (Overlapping.step keepLatest) Overlapping.Unaccompanied .initial (clearWhileHeld 0) ∧
      (s.seen 0).Resetting 0 ∧ s.common.queue.guarded.queue.length = 1 ∧
      (∃ pool, s.common.pool = some pool ∧ pool.reserved.full = false) ∧ ¬ s.common.Returned) ∧
    ∃ s, exec (Overlapping.step keepEverything) .initial (logWhileDetached 0 1) = some s ∧
      Meets (Overlapping.step keepEverything) (fun s a => ClearsUnheld s.common a) .initial
        (logWhileDetached 0 1) ∧
      (s.seen 0).Resetting 0 ∧ (s.common.loggers 1).slices.length = 1 ∧
      (∃ pool, s.common.pool = some pool ∧ pool.reserved.full = false) ∧
      ¬ s.common.Returned := by
  constructor
  · refine ⟨_, rfl, by decide +kernel, ⟨rfl, rfl, rfl, rfl⟩, rfl, ⟨_, rfl, rfl⟩, ?_⟩
    intro returned
    cases returned.queue
  · refine ⟨_, rfl, by decide +kernel, ⟨rfl, rfl, rfl, rfl⟩, rfl, ⟨_, rfl, rfl⟩, ?_⟩
    intro returned
    cases returned.loggers 1

end Spoor.Runtime.RuntimeManager
