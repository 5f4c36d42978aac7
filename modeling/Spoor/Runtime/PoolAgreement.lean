import Spoor.Runtime.Registration

/-! # The pool of the manager and of the loggers

While the runtime is initialised the manager and its loggers have the same pool.
`Deinitialize` takes the pool from the loggers in its critical section and destroys
it later, without the lock.  In between `pool_` is a pool that no logger may get.
-/

namespace Spoor.Runtime.Registration

open Lib.Transition

/-- The manager and its loggers agree on the pool, and none holds one that is gone. -/
def PoolsAgree (s : State) : Prop :=
  (s.initialized = true → ∃ pool, s.pool = some pool ∧
    ∀ logger ∈ s.eventLoggers, (s.loggers logger).pool = some pool) ∧
  ∀ logger ∈ s.eventLoggers, ∀ pool ∈ (s.loggers logger).pool, pool ∉ s.destroyedPools

/-- No thread is between the critical section of `Deinitialize` and its end. -/
def State.settled (s : State) : Prop := ∀ thread, (s.threads thread).tail = false

/-- The step gives `pool_` to a logger or replaces it. -/
def Action.usesPool : Action → Bool
  | .call _ .initializeRuntime | .call _ (.subscribe _) | .call _ (.construct _ true) => true
  | _ => false

/-- `Initialize` and `Subscribe` do not come between the critical section of
    `Deinitialize` and its end. -/
def TailUndisturbed (s : State) (a : Action) : Prop := a.usesPool = true → s.settled

/-- What holds while the tail of `Deinitialize` is left undisturbed. -/
structure Attached (s : State) : Prop where
  settled : s.initialized = true → s.settled
  owned : s.initialized = true → ∃ pool, s.pool = some pool ∧
    ∀ logger ∈ s.eventLoggers, (s.loggers logger).pool = some pool
  detached : s.initialized = false → ∀ logger ∈ s.eventLoggers, (s.loggers logger).pool = none
  unowned : s.initialized = false → s.settled → s.pool = none
  usable : ∀ pool ∈ s.pool, pool < s.pools ∧ pool ∉ s.destroyedPools
  gone : ∀ pool ∈ s.destroyedPools, pool < s.pools
  born : ∀ logger ∈ s.eventLoggers, (s.loggers logger).life ≠ .unborn

theorem Attached.initial : Attached initial where
  settled := by simp [Registration.initial]
  owned := by simp [Registration.initial]
  detached := by simp [Registration.initial]
  unowned _ _ := rfl
  usable := by simp [Registration.initial]
  gone := by simp [Registration.initial]
  born := by simp [Registration.initial]

theorem Attached.poolsAgree {s : State} (held : Attached s) : PoolsAgree s := by
  refine ⟨held.owned, ?_⟩
  intro logger member pool holds
  cases phase : s.initialized with
  | false => simp [held.detached phase logger member] at holds
  | true =>
      obtain ⟨owned, here, same⟩ := held.owned phase
      obtain rfl : owned = pool := by simpa [same logger member] using holds
      exact (held.usable owned here).2

/-- A change of loggers alone keeps the invariant if each subscribed one has the pool
    it had before or, in a settled state, `pool_`. -/
theorem Attached.change {s s' : State} (held : Attached s) (keeps : Keeps s s')
    (loggers : ∀ logger ∈ s'.eventLoggers, (s'.loggers logger).life ≠ .unborn ∧
      (logger ∈ s.eventLoggers ∧ (s'.loggers logger).pool = (s.loggers logger).pool ∨
        s.settled ∧ (s'.loggers logger).pool = s.pool)) : Attached s' where
  settled := by
    intro ready thread
    rw [keeps.tails]
    exact held.settled (keeps.initialized ▸ ready) thread
  owned := by
    intro ready
    obtain ⟨owned, here, same⟩ := held.owned (keeps.initialized ▸ ready)
    refine ⟨owned, keeps.pool.trans here, ?_⟩
    intro logger member
    obtain ⟨-, ⟨older, kept⟩ | ⟨-, given⟩⟩ := loggers logger member
    · rw [kept, same logger older]
    · rw [given, here]
  detached := by
    intro stopped logger member
    obtain ⟨-, ⟨older, kept⟩ | ⟨settled, given⟩⟩ := loggers logger member
    · rw [kept, held.detached (keeps.initialized ▸ stopped) logger older]
    · rw [given, held.unowned (keeps.initialized ▸ stopped) settled]
  unowned := by
    intro stopped settled
    rw [keeps.pool]
    refine held.unowned (keeps.initialized ▸ stopped) ?_
    intro thread
    rw [← keeps.tails]
    exact settled thread
  usable := by
    rw [keeps.pool, keeps.pools, keeps.destroyedPools]
    exact held.usable
  gone := by
    rw [keeps.pools, keeps.destroyedPools]
    exact held.gone
  born logger member := (loggers logger member).1

theorem Attached.attachAll {s : State} (held : Attached s) (stopped : s.initialized = false)
    (settled : s.settled) : Attached s.attachAll := by
  have unowned : s.pool = none := held.unowned stopped settled
  have destroyed : s.attachAll.destroyedPools = s.destroyedPools := by
    simp [State.attachAll, State.forEach, State.replacePool, unowned]
  refine
    { settled := fun _ => settled
      owned := fun _ => ⟨s.pools, rfl, ?_⟩
      detached := by simp [State.attachAll]
      unowned := by simp [State.attachAll]
      usable := ?_
      gone := ?_
      born := ?_ }
  · intro logger member
    have member : logger ∈ s.eventLoggers := member
    simp [State.attachAll, State.forEach, State.replacePool, member]
  · intro pool made
    obtain rfl : s.pools = pool := Option.some.inj made
    refine ⟨Nat.lt_succ_self _, ?_⟩
    rw [destroyed]
    exact fun older => Nat.lt_irrefl _ (held.gone _ older)
  · intro pool older
    rw [destroyed] at older
    exact Nat.lt_succ_of_lt (held.gone pool older)
  · intro logger member
    rw [attachAll_life]
    exact held.born logger member

theorem Attached.detachAll {s : State} (held : Attached s) (thread : Nat) :
    Attached (s.detachAll.goto thread .flushOrClear) where
  settled := by simp [State.detachAll, State.goto]
  owned := by simp [State.detachAll, State.goto]
  detached := by
    intro _ logger member
    have member : logger ∈ s.eventLoggers := member
    simp [State.detachAll, State.forEach, State.goto, member]
  unowned := by
    intro _ settled
    have inside := settled thread
    simp [State.goto, Position.tail] at inside
  usable := held.usable
  gone := held.gone
  born logger member := by
    rw [show (s.detachAll.goto thread .flushOrClear).loggers = s.detachAll.loggers from rfl,
      detachAll_life]
    exact held.born logger member

theorem Attached.resetPool {s : State} (held : Attached s) {thread : Nat}
    (position : s.threads thread = .resetPool) :
    Attached ((s.replacePool none).goto thread .outside) := by
  have stopped : s.initialized = false := by
    by_contra ready
    have inside := held.settled (by simpa using ready) thread
    simp [position, Position.tail] at inside
  have phase : ((s.replacePool none).goto thread .outside).initialized = false := stopped
  refine
    { settled := fun ready => absurd (phase.symm.trans ready) (by simp)
      owned := fun ready => absurd (phase.symm.trans ready) (by simp)
      detached := fun _ => held.detached stopped
      unowned := fun _ _ => rfl
      usable := fun pool here => absurd here (by simp [State.replacePool, State.goto])
      gone := ?_
      born := held.born }
  intro pool member
  cases old : s.pool with
  | none =>
      simp only [State.goto, State.replacePool, old] at member
      exact held.gone pool member
  | some last =>
      simp only [State.goto, State.replacePool, old] at member
      obtain rfl | older := Finset.mem_insert.mp member
      · exact (held.usable pool old).1
      · exact held.gone pool older

theorem Attached.subscribe {s s' : State} {subscriber : Nat} (held : Attached s)
    (settled : s.settled) (taken : s.subscribe subscriber = some s') : Attached s' := by
  obtain ⟨alive, rfl⟩ := subscribe_eq.mp taken
  refine held.change ⟨rfl, rfl, rfl, rfl, fun _ => rfl⟩ ?_
  intro logger member
  rw [setPool_life]
  by_cases own : logger = subscriber
  · subst own
    exact ⟨by simp [alive], .inr ⟨settled, by simp [State.setPool]⟩⟩
  · have older : logger ∈ s.eventLoggers := Finset.mem_of_mem_insert_of_ne member own
    exact ⟨held.born logger older, .inl ⟨older, by simp [State.setPool, own]⟩⟩

theorem Attached.unsubscribe {s s' : State} {subscriber : Nat} (held : Attached s)
    (taken : s.unsubscribe subscriber = some s') : Attached s' := by
  obtain ⟨-, rfl⟩ := unsubscribe_eq.mp taken
  refine held.change ⟨rfl, rfl, rfl, rfl, fun _ => rfl⟩ ?_
  intro logger member
  obtain ⟨own, older⟩ := Finset.mem_erase.mp member
  refine ⟨?_, .inl ⟨older, by simp [State.setPool, own]⟩⟩
  rw [setPool_life]
  exact held.born logger older

theorem Attached.construct {s s' : State} {logger : Nat} {notified : Bool} (held : Attached s)
    (settled : notified = true → s.settled) (taken : s.construct logger notified = some s') :
    Attached s' := by
  obtain ⟨unborn, loggers, eventLoggers, keeps⟩ := construct_eq taken
  refine held.change keeps ?_
  intro other member
  by_cases own : other = logger
  · subst own
    rw [loggers]
    cases notified with
    | false =>
        rw [eventLoggers] at member
        exact absurd unborn (held.born other member)
    | true => exact ⟨by simp, .inr ⟨settled rfl, by simp⟩⟩
  · obtain ⟨same, older⟩ := construct_others taken own
    rw [same]
    exact ⟨held.born other (older member), .inl ⟨older member, rfl⟩⟩

theorem Attached.destroy {s s' : State} {logger : Nat} (held : Attached s)
    (taken : s.destroy logger = some s') : Attached s' := by
  obtain ⟨-, loggers, eventLoggers, keeps⟩ := destroy_eq taken
  refine held.change keeps ?_
  intro other member
  by_cases own : other = logger
  · subst own
    rw [eventLoggers] at member
    rw [loggers]
    split at member
    · simp at member
    · rename_i unknown
      exact ⟨by simp, .inl ⟨member, by simp [unknown]⟩⟩
  · obtain ⟨same, older⟩ := destroy_others taken own
    rw [same]
    exact ⟨held.born other (older member), .inl ⟨older member, rfl⟩⟩

theorem Attached.step {s s' : State} {a : Action} (held : Attached s)
    (undisturbed : TailUndisturbed s a) (taken : step s a = some s') : Attached s' := by
  cases step_effect taken with
  | quiet keeps eventLoggers loggers =>
      refine held.change keeps ?_
      intro logger member
      rw [eventLoggers] at member
      rw [loggers]
      exact ⟨held.born logger member, .inl ⟨member, rfl⟩⟩
  | attach thread acts stopped _ next =>
      subst next acts
      exact held.attachAll stopped (undisturbed rfl)
  | detach thread _ _ next =>
      subst next
      exact held.detachAll thread
  | reset thread position next =>
      subst next
      exact held.resetPool position
  | subscribe thread subscriber acts next =>
      subst acts
      exact held.subscribe (undisturbed rfl) next
  | unsubscribe subscriber next => exact held.unsubscribe next
  | construct thread logger notified acts next =>
      subst acts
      refine held.construct ?_ next
      rintro rfl
      exact undisturbed rfl
  | destroy thread logger acts next => exact held.destroy next

/-- The pools agree throughout every run in which neither `Initialize` nor `Subscribe`
    comes between the critical section of `Deinitialize` and its end. -/
theorem pools_agree (labels : List Action) (s : State)
    (undisturbed : Meets step TailUndisturbed initial labels)
    (reached : exec step initial labels = some s) : PoolsAgree s :=
  (invariant TailUndisturbed Attached .initial
    (fun _ _ _ held apart taken => held.step apart taken) undisturbed reached).poolsAgree

/-- The runtime is initialised and deinitialised while another thread has a logger. -/
def initializeLogDeinitialize : List Action := initializeLog ++ deinitializeCall 0

theorem initializeLogDeinitialize_undisturbed :
    Meets step TailUndisturbed initial initializeLogDeinitialize := by
  have outside : initial.settled := fun _ => rfl
  refine meets_cons.mpr ⟨fun _ => outside, fun s first => ?_⟩
  obtain rfl := Option.some.inj first
  refine meets_cons.mpr ⟨fun _ => outside, fun s second => ?_⟩
  intro before a after t split _ uses
  have member : a ∈ deinitializeCall 0 := by
    change deinitializeCall 0 = _ at split
    simp [split]
  simp only [deinitializeCall, List.mem_cons, List.mem_replicate] at member
  obtain rfl | ⟨-, rfl⟩ := member <;> cases uses

theorem pools_agree_initializeLogDeinitialize :
    (∃ s, exec step initial initializeLog = some s ∧ s.initialized = true ∧
      0 ∈ s.eventLoggers ∧ PoolsAgree s) ∧
    ∃ s, exec step initial initializeLogDeinitialize = some s ∧
      0 ∈ s.eventLoggers ∧ 0 ∈ s.destroyedPools ∧ PoolsAgree s := by
  have undisturbed := initializeLogDeinitialize_undisturbed
  exact ⟨⟨_, rfl, rfl, by decide, pools_agree initializeLog _ undisturbed.take rfl⟩,
    _, rfl, by decide, by decide, pools_agree initializeLogDeinitialize _ undisturbed rfl⟩

/-- Thread 0 has left the critical section of `Deinitialize` and goes on after another
    thread has made a step. -/
def disturbedTail (method : Method) : List Action :=
  initializeLog ++ [Action.call 0 .deinitializeRuntime, Action.advance 0, Action.call 2 method] ++
    List.replicate 4 (Action.advance 0)

/-- A thread that subscribes in the tail of `Deinitialize` is left with a pool that is
    gone, and so is every logger if the runtime is initialised there. -/
theorem disturbed_tail_disagrees :
    (∃ s, exec step initial (disturbedTail (.construct 1 true)) = some s ∧ ¬ PoolsAgree s) ∧
      ∃ s, exec step initial (disturbedTail .initializeRuntime) = some s ∧
        s.initialized = true ∧ s.pool = none ∧ ¬ PoolsAgree s := by
  refine ⟨⟨_, rfl, ?_⟩, _, rfl, rfl, rfl, ?_⟩
  · intro agree
    exact agree.2 1 (by decide) 0 rfl (by decide)
  · intro agree
    exact agree.2 0 (by decide) 1 rfl (by decide)

end Spoor.Runtime.Registration
