import Mathlib.Data.List.Basic
import Spoor.Runtime.Registration

/-! # Recording is enabled while the runtime is initialized

`Enable` takes effect only while the runtime is initialized, and `Deinitialize`
disables recording before it clears `initialized_`.  It does so in two critical
sections: another thread's `Enable` can come between them, and then the second one
leaves recording enabled in a runtime that is not initialized.  The runs without
such a step are exactly those in which recording is enabled only while the runtime
is initialized.
-/

namespace Spoor.Runtime.Registration

open Lib.Transition

/-- What a step does to the two flags. -/
inductive FlagEffect (s : State) (a : Action) (s' : State) : Prop where
  | keeps : s'.enabled = s.enabled → s'.initialized = s.initialized → FlagEffect s a s'
  | disables : s'.enabled = false → s'.initialized = s.initialized → FlagEffect s a s'
  | enables (thread : Nat) : a = .call thread .enable → s.initialized = true →
      s'.enabled = true → s'.initialized = true → FlagEffect s a s'
  | sets (thread : Nat) : a = .call thread .initializeRuntime → s'.enabled = s.enabled →
      s'.initialized = true → FlagEffect s a s'
  | clears (thread : Nat) : a = .advance thread → s.threads thread = .lock →
      s.initialized = true → s'.enabled = s.enabled → s'.initialized = false → FlagEffect s a s'

theorem subscribe_flags {s s' : State} {subscriber : Nat}
    (taken : s.subscribe subscriber = some s') :
    s'.enabled = s.enabled ∧ s'.initialized = s.initialized := by
  obtain ⟨-, rfl⟩ := subscribe_eq.mp taken
  exact ⟨rfl, rfl⟩

theorem unsubscribe_flags {s s' : State} {subscriber : Nat}
    (taken : s.unsubscribe subscriber = some s') :
    s'.enabled = s.enabled ∧ s'.initialized = s.initialized := by
  obtain ⟨-, rfl⟩ := unsubscribe_eq.mp taken
  exact ⟨rfl, rfl⟩

theorem construct_flags {s s' : State} {logger : Nat} {notified : Bool}
    (taken : s.construct logger notified = some s') :
    s'.enabled = s.enabled ∧ s'.initialized = s.initialized := by
  simp only [State.construct] at taken
  split at taken
  · split at taken
    · obtain ⟨enabled, ready⟩ := subscribe_flags taken
      exact ⟨enabled, ready⟩
    · cases taken
      exact ⟨rfl, rfl⟩
  · cases taken

theorem destroy_flags {s s' : State} {logger : Nat} (taken : s.destroy logger = some s') :
    s'.enabled = s.enabled ∧ s'.initialized = s.initialized := by
  simp only [State.destroy] at taken
  split at taken
  · obtain ⟨left, leaves, rfl⟩ := Option.map_eq_some_iff.mp taken
    split at leaves
    · obtain ⟨enabled, ready⟩ := unsubscribe_flags leaves
      exact ⟨enabled, ready⟩
    · cases leaves
      exact ⟨rfl, rfl⟩
  · cases taken

theorem call_flags {s s' : State} {thread : Nat} {method : Method}
    (taken : s.callStep thread method = some s') : FlagEffect s (.call thread method) s' := by
  unfold State.callStep at taken
  split at taken
  · cases taken
  · cases method with
    | initializeRuntime =>
        simp only [State.initializeRuntime] at taken
        split at taken
        · cases taken
          exact .keeps rfl rfl
        · split at taken <;> cases taken
          exact .sets thread rfl rfl rfl
    | deinitializeRuntime =>
        cases taken
        exact .disables rfl rfl
    | enable =>
        cases taken
        split
        case isTrue ready => exact .enables thread rfl ready rfl ready
        case isFalse => exact .keeps rfl rfl
    | disable =>
        cases taken
        exact .disables rfl rfl
    | subscribe subscriber => exact .keeps (subscribe_flags taken).1 (subscribe_flags taken).2
    | unsubscribe subscriber => exact .keeps (unsubscribe_flags taken).1 (unsubscribe_flags taken).2
    | flush | clear =>
        simp only at taken
        split at taken <;> cases taken
        exact .keeps rfl rfl
    | construct logger notified => exact .keeps (construct_flags taken).1 (construct_flags taken).2
    | destroy logger => exact .keeps (destroy_flags taken).1 (destroy_flags taken).2

/-- The second critical section of `Deinitialize` clears `initialized_` and leaves
    `enabled_` as it is. -/
theorem advance_lock {s s' : State} {thread : Nat} (position : s.threads thread = .lock)
    (ready : s.initialized = true) (taken : s.advance thread = some s') :
    s'.enabled = s.enabled ∧ s'.initialized = false := by
  simp only [State.advance, position, ready, Bool.not_true, Bool.false_eq_true, if_false] at taken
  split at taken <;> cases taken
  exact ⟨rfl, rfl⟩

theorem advance_flags {s s' : State} {thread : Nat} (taken : s.advance thread = some s') :
    FlagEffect s (.advance thread) s' := by
  cases position : s.threads thread with
  | outside => simp [State.advance, position] at taken
  | lock =>
      cases ready : s.initialized with
      | true =>
          obtain ⟨enabled, cleared⟩ := advance_lock position ready taken
          exact .clears thread rfl position ready enabled cleared
      | false =>
          simp only [State.advance, position, ready, Bool.not_false, if_true,
            Option.some.injEq] at taken
          subst taken
          exact .keeps rfl rfl
  | flushOrClear =>
      simp only [State.advance, position] at taken
      split at taken <;> cases taken
      exact .keeps rfl rfl
  | flushOrClearQueue | drainAndStop | resetPool =>
      simp only [State.advance, position, Option.some.injEq] at taken
      subst taken
      exact .keeps rfl rfl

theorem step_flags {s s' : State} {a : Action} (taken : step s a = some s') :
    FlagEffect s a s' := by
  cases a with
  | call => exact call_flags taken
  | advance => exact advance_flags taken

/-! ## Runs in which `initialized_` is cleared while recording is disabled -/

def EnabledInitialized (s : State) : Prop := s.enabled = true → s.initialized = true

/-- The second critical section of `Deinitialize` does not find both flags set. -/
def ClearsDisabled (s : State) : Action → Prop
  | .call _ _ => True
  | .advance thread => s.threads thread = .lock → s.initialized = true → s.enabled = false

instance (s : State) (a : Action) : Decidable (ClearsDisabled s a) :=
  match a with
  | .call _ _ => inferInstanceAs (Decidable True)
  | .advance _ => inferInstanceAs (Decidable (_ → _ → _))

/-- A step keeps the invariant exactly when it does not clear `initialized_` while
    recording is enabled. -/
theorem step_enabledInitialized {s s' : State} {a : Action} (holds : EnabledInitialized s)
    (taken : step s a = some s') : EnabledInitialized s' ↔ ClearsDisabled s a := by
  constructor
  · intro holds'
    cases a with
    | call => trivial
    | advance thread =>
        intro position ready
        obtain ⟨enabled, cleared⟩ := advance_lock position ready taken
        rw [EnabledInitialized, enabled, cleared] at holds'
        simpa using holds'
  · intro clears recording
    cases step_flags taken with
    | keeps enabled ready => rw [ready, holds (enabled ▸ recording)]
    | disables enabled _ => simp [enabled] at recording
    | enables _ _ _ _ ready => exact ready
    | sets _ _ _ ready => exact ready
    | clears thread acts position ready enabled _ =>
        subst acts
        rw [enabled, clears position ready] at recording
        contradiction

/-- Recording does not start without an `Enable`. -/
theorem exec_disabled {s s' : State} {labels : List Action} (reached : exec step s labels = some s')
    (disabled : s.enabled = false) (recording : s'.enabled = true) :
    ∃ thread, .call thread .enable ∈ labels := by
  induction labels generalizing s with
  | nil =>
      obtain rfl : s = s' := by simpa using reached
      simp [disabled] at recording
  | cons a labels ih =>
      obtain ⟨t, taken, rest⟩ := Option.bind_eq_some_iff.mp reached
      have later : t.enabled = false → ∃ thread, .call thread .enable ∈ a :: labels := by
        intro stopped
        obtain ⟨thread, listed⟩ := ih rest stopped
        exact ⟨thread, List.mem_cons_of_mem a listed⟩
      cases step_flags taken with
      | keeps enabled _ => exact later (enabled.trans disabled)
      | disables enabled _ => exact later enabled
      | enables thread acts => exact ⟨thread, by simp [acts]⟩
      | sets _ _ enabled _ => exact later (enabled.trans disabled)
      | clears _ _ _ _ enabled _ => exact later (enabled.trans disabled)

/-- After an `Initialize` that takes effect, recording waits for an `Enable`. -/
def WaitsForEnable (labels : List Action) : Prop :=
  ∀ before thread after rest t s,
    labels = before ++ .call thread .initializeRuntime :: after ++ rest →
    exec step initial before = some t → t.initialized = false →
    exec step initial (before ++ .call thread .initializeRuntime :: after) = some s →
    s.enabled = true → ∃ other, .call other .enable ∈ after

/-- The runs in which recording is enabled only while the runtime is initialized,
    and is not taken over by a later `Initialize`, are those in which `Deinitialize`
    always clears `initialized_` while recording is disabled. -/
theorem enabled_initialized_iff (labels : List Action) (s : State)
    (reached : exec step initial labels = some s) :
    ((∀ before after t, labels = before ++ after → exec step initial before = some t →
        EnabledInitialized t) ∧ WaitsForEnable labels) ↔
      Meets step ClearsDisabled initial labels := by
  have initially : EnabledInitialized initial := by simp [EnabledInitialized, initial]
  constructor
  · rintro ⟨always, -⟩ before a after t split earlier
    have taken : ∃ u, step t a = some u := by
      rw [split, exec_append, earlier, Option.bind_some, exec_cons] at reached
      obtain ⟨u, taken, -⟩ := Option.bind_eq_some_iff.mp reached
      exact ⟨u, taken⟩
    obtain ⟨u, taken⟩ := taken
    have here := always before (a :: after) t split earlier
    have next := always (before ++ [a]) after u (by simp [split])
      (exec_concat.mpr ⟨t, earlier, taken⟩)
    exact (step_enabledInitialized here taken).mp next
  · intro meets
    have always : ∀ before after t, labels = before ++ after →
        exec step initial before = some t → EnabledInitialized t := by
      intro before after t split earlier
      rw [split] at meets
      apply invariant ClearsDisabled EnabledInitialized initially _ meets.take earlier
      intro u a v holds clears taken
      exact (step_enabledInitialized holds taken).mpr clears
    refine ⟨always, ?_⟩
    intro before thread after rest t u split earlier fresh later recording
    have stopped : t.enabled = false := by
      have holds := always before _ t (by rw [split, List.append_assoc]) earlier
      rw [EnabledInitialized, fresh] at holds
      simpa using holds
    rw [exec_append, earlier, Option.bind_some] at later
    obtain ⟨other, listed⟩ := exec_disabled later stopped recording
    exact ⟨other, by simpa using listed⟩

/-- Recording is enabled and disabled again by the thread that shuts down. -/
def enableAndShutDown : List Action :=
  [.call 0 .initializeRuntime, .call 0 .enable, .call 0 .deinitializeRuntime, .advance 0]

theorem enabled_initialized_enableAndShutDown :
    ∃ s, exec step initial enableAndShutDown = some s ∧
      (∀ before after t, enableAndShutDown = before ++ after →
        exec step initial before = some t → EnabledInitialized t) ∧
      WaitsForEnable enableAndShutDown :=
  ⟨_, rfl, (enabled_initialized_iff enableAndShutDown _ rfl).mpr (by decide)⟩

/-- A second thread enables recording between the two critical sections. -/
def enableBetweenSections : List Action :=
  [.call 0 .initializeRuntime, .call 0 .deinitializeRuntime, .call 1 .enable, .advance 0]

/-- Recording is left enabled in a runtime that is not initialized, and the next
    `Initialize` records at once. -/
theorem enableBetweenSections_enabled :
    ∃ s t, exec step initial enableBetweenSections = some s ∧ s.enabled = true ∧
      s.initialized = false ∧ step s (.call 1 .initializeRuntime) = some t ∧ t.enabled = true ∧
      t.initialized = true :=
  ⟨_, _, rfl, rfl, rfl, rfl, rfl, rfl⟩

end Spoor.Runtime.Registration
