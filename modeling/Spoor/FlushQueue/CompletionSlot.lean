import Spoor.FlushQueue.Completion

/-! # The completion slot

`flush_completion_` is one slot for any number of `Flush` calls.  A completion
is lost when another one is stored over it, when it is stored after the worker
left its loop, and when the worker leaves its loop while it waits.  In every
other run the completions handed over are those started and those pending.
-/

namespace Spoor.FlushQueue.DiskFlushQueue

open Lib.Transition

variable {β κ : Type}

def Event.handed? : Event β κ → Option κ
  | .handed callback => some callback
  | _ => none

def Event.started? : Event β κ → Option κ
  | .started callback => some callback
  | _ => none

/-- The completions waiting in the slot or about to be started. -/
def State.pending (s : State β κ) : List κ :=
  (s.guarded.flushCompletion.toList ++ s.worker.starting.toList).map Completion.callback

/-- Every completion handed to `Flush` was started once or is pending, and none
    is pending once the queue has stopped. -/
structure CompletionsKept (s : State β κ) : Prop where
  once : (s.log.filterMap Event.handed?).Perm (s.log.filterMap Event.started? ++ s.pending)
  stopped : s.running = false → s.pending = []

/-- `Flush` stores a completion only into an empty slot of a serving queue. -/
def State.StoresFree (s : State β κ) : Option (Section κ) → Prop
  | some (.flush (some _) _) => s.guarded.flushCompletion.isNone ∧ s.Serving
  | _ => True

instance (s : State β κ) : ∀ executed, Decidable (s.StoresFree executed)
  | some (.flush (some _) _) =>
      inferInstanceAs (Decidable (s.guarded.flushCompletion.isNone ∧ s.Serving))
  | some .enqueue | some .clear | some (.flush none _) | none => .isTrue trivial

/-- No step overwrites or abandons a waiting completion. -/
def KeepsSlot (s : State β κ) (a : Action β κ) : Prop :=
  s.StoresFree (s.criticalSection a) ∧ (s.exits a → s.guarded.flushCompletion.isNone)

instance (s : State β κ) (a : Action β κ) : Decidable (KeepsSlot s a) :=
  inferInstanceAs (Decidable (s.StoresFree _ ∧ (_ → _)))

theorem pending_eq {s : State β κ} {slot starting : Option (Completion κ)}
    (stored : s.guarded.flushCompletion = slot) (starts : s.worker.starting = starting) :
    s.pending = (slot.toList ++ starting.toList).map Completion.callback := by
  rw [State.pending, stored, starts]

/-- Events that mention no completion. -/
def Event.Mute (e : Event β κ) : Prop := e.handed? = none ∧ e.started? = none

theorem Event.Control.mute {e : Event β κ} (control : e.Control) : e.Mute := by
  cases e with
  | offered | rejected | drained => exact ⟨rfl, rfl⟩
  | _ => exact control.elim

/-- The completions handed over and not started yet, as a step changes them. -/
inductive SlotEffect (s : State β κ) (a : Action β κ) (s' : State β κ) : Prop where
  | same (events : List (Event β κ)) :
      s'.pending = s.pending → s'.log = s.log ++ events → (∀ e ∈ events, e.Mute) →
      SlotEffect s a s'
  | bypass (callback : κ) :
      s'.pending = s.pending → s'.log = s.log ++ [.handed callback, .started callback] →
      SlotEffect s a s'
  | store (callback : κ) (now : Int) (marked : List Nat) :
      s.criticalSection a = some (.flush (some callback) now) →
      (s.guarded.flushCompletion = none → s'.pending = callback :: s.pending) →
      s'.log = s.log ++ [.flushed now marked, .handed callback] → SlotEffect s a s'
  | start (callback : κ) :
      s.pending.Perm (callback :: s'.pending) → s'.log = s.log ++ [.started callback] →
      SlotEffect s a s'

theorem step_slot {o : Options} {s s' : State β κ} {a : Action β κ}
    (taken : step o s a = some s') : SlotEffect s a s' := by
  have unchanged : s'.guarded.flushCompletion = s.guarded.flushCompletion →
      s'.worker.starting = s.worker.starting → s'.pending = s.pending := pending_eq
  cases step_effect taken with
  | silent events guarded load log control =>
      exact .same events (unchanged (by rw [guarded]) (congrArg Load.starting load)) log
        (fun e member => (control e member).mute)
  | bypass callback guarded worker log =>
      exact .bypass callback (unchanged (by rw [guarded]) (by rw [worker])) log
  | enqueue thread buffer flushTimestamp record _ _ _ guarded worker log =>
      exact .same _ (unchanged (by rw [guarded]; rfl) (by rw [worker])) log
        (by simp [Event.Mute, Event.handed?, Event.started?])
  | flush completion now flushes guarded worker log =>
      cases completion with
      | none =>
          exact .same _ (unchanged (by rw [guarded]; rfl) (by rw [worker])) log
            (by simp [Event.Mute, Event.handed?, Event.started?])
      | some callback =>
          refine .store callback now _ flushes ?_ log
          intro free
          rw [State.pending, State.pending, guarded, worker, free]
          rfl
  | clear _ guarded worker log =>
      exact .same _ (unchanged (by rw [guarded]; rfl) (by rw [worker])) log
        (by simp [Event.Mute, Event.handed?, Event.started?])
  | pop record rest position front guarded worker log =>
      exact .same [] (unchanged (by rw [guarded]) (by rw [worker, position]; rfl))
        (by simp [log]) (by simp)
  | test record now position guarded worker log =>
      have starting : s'.worker.starting = s.worker.starting := by
        rcases worker with after | ⟨after, -⟩ <;> rw [after, position] <;> rfl
      exact .same _ (unchanged (by rw [guarded]) starting) log
        (by simp [Event.Mute, Event.handed?, Event.started?])
  | discard record position guarded worker log =>
      exact .same _ (unchanged (by rw [guarded]; rfl) (by rw [worker, position]; rfl)) log
        (by simp [Event.Mute, Event.handed?, Event.started?])
  | write record ok position guarded worker log =>
      exact .same _ (unchanged (by rw [guarded]) (by rw [worker, position]; rfl)) log
        (by simp [Event.Mute, Event.handed?, Event.started?])
  | requeue record position _ guarded log =>
      have unstarting : s'.worker.starting = s.worker.starting := by
        rcases position with ⟨before, after⟩ | ⟨before, -, after⟩ <;> rw [before, after] <;> rfl
      exact .same [] (unchanged (by rw [guarded]; rfl) unstarting) (by simp [log]) (by simp)
  | finish record ok position _ guarded worker log =>
      exact .same _ (unchanged (by rw [guarded]; rfl) (by rw [worker, position]; rfl)) log
        (by simp [Event.Mute, Event.handed?, Event.started?])
  | take completion leaving position _ slot guarded worker log =>
      refine .same [] ?_ (by simp [log]) (by simp)
      rw [State.pending, State.pending, guarded, worker, slot, position]
      rfl
  | start completion leaving position guarded worker log =>
      refine .start completion.callback ?_ log
      rw [State.pending, State.pending, guarded, worker, position, starting_endIteration]
      simp [Worker.starting]

/-- The inductive form of `CompletionsKept`. -/
structure SlotKept (s : State β κ) : Prop where
  once : (s.log.filterMap Event.handed?).Perm (s.log.filterMap Event.started? ++ s.pending)
  serving : s.Serving ∨ s.pending = []

theorem SlotKept.initial : SlotKept (initial : State β κ) := ⟨.refl _, .inr rfl⟩

theorem filterMap_append_mute {log events : List (Event β κ)} (mute : ∀ e ∈ events, e.Mute) :
    (log ++ events).filterMap Event.handed? = log.filterMap Event.handed? ∧
      (log ++ events).filterMap Event.started? = log.filterMap Event.started? := by
  have handed : events.filterMap Event.handed? = [] :=
    List.filterMap_eq_nil_iff.mpr fun e member => (mute e member).1
  have started : events.filterMap Event.started? = [] :=
    List.filterMap_eq_nil_iff.mpr fun e member => (mute e member).2
  simp [handed, started]

private theorem perm_of_handed {handed started pending : List κ} (callback : κ)
    (once : handed.Perm (started ++ pending)) :
    (handed ++ [callback]).Perm (started ++ callback :: pending) := by
  refine (once.append_right [callback]).trans ?_
  rw [List.append_assoc]
  exact (List.perm_append_singleton callback pending).append_left started

theorem step_once {o : Options} {s s' : State β κ} {a : Action β κ} (kept : SlotKept s)
    (keeps : KeepsSlot s a) (taken : step o s a = some s') :
    (s'.log.filterMap Event.handed?).Perm (s'.log.filterMap Event.started? ++ s'.pending) := by
  have once := kept.once
  cases step_slot taken with
  | same events pending log mute =>
      rw [log, (filterMap_append_mute mute).1, (filterMap_append_mute mute).2, pending]
      exact once
  | bypass callback pending log =>
      simp only [log, pending, List.filterMap_append, List.filterMap_cons, List.filterMap_nil,
        Event.handed?, Event.started?, List.append_assoc, List.singleton_append]
      exact perm_of_handed callback once
  | store callback now marked flushes pending log =>
      have free := keeps.1
      rw [flushes] at free
      simp only [log, pending (Option.isNone_iff_eq_none.mp free.1), List.filterMap_append,
        List.filterMap_cons, List.filterMap_nil, Event.handed?, Event.started?, List.append_nil]
      exact perm_of_handed callback once
  | start callback pending log =>
      simp only [log, List.filterMap_append, List.filterMap_cons, List.filterMap_nil,
        Event.handed?, Event.started?, List.append_nil, List.append_assoc,
        List.singleton_append]
      exact once.trans (pending.append_left _)

theorem step_slotKept {o : Options} {s s' : State β κ} {a : Action β κ} (kept : SlotKept s)
    (keeps : KeepsSlot s a) (taken : step o s a = some s') : SlotKept s' := by
  refine ⟨step_once kept keeps taken, ?_⟩
  by_cases serving : s.Serving
  · rcases step_serving serving taken with serving' | ⟨exits, guarded, worker⟩
    · exact .inl serving'
    · have free : s'.guarded.flushCompletion = none := by
        rw [guarded]
        exact Option.isNone_iff_eq_none.mp (keeps.2 exits)
      have unstarting : s'.worker.starting = none := by
        rw [worker]
        rfl
      exact .inr (pending_eq free unstarting)
  · have idle : s.pending = [] := kept.serving.resolve_left serving
    refine .inr ?_
    cases step_slot taken with
    | same events pending => exact pending.trans idle
    | bypass callback pending => exact pending.trans idle
    | store callback now marked flushes =>
        have free := keeps.1
        rw [flushes] at free
        exact absurd free.2 serving
    | start callback pending => simp [idle] at pending

theorem run_completionsKept {o : Options} {labels : List (Action β κ)} {s : State β κ}
    (keeps : Meets (step o) KeepsSlot initial labels)
    (reached : exec (step o) initial labels = some s) : SlotKept s :=
  invariant KeepsSlot SlotKept SlotKept.initial
    (fun _ _ _ kept conforms taken => step_slotKept kept conforms taken) keeps reached

/-- In a run that neither overwrites nor abandons a waiting completion, no
    completion is lost or started twice. -/
theorem completions_kept (o : Options) (labels : List (Action β κ)) (s : State β κ)
    (keeps : Meets (step o) KeepsSlot initial labels)
    (reached : exec (step o) initial labels = some s) : CompletionsKept s := by
  obtain ⟨once, serving⟩ := run_completionsKept keeps reached
  refine ⟨once, ?_⟩
  intro stopped
  rcases serving with ⟨running, -⟩ | idle
  · simp [stopped] at running
  · exact idle

/-- One `Flush` whose completion is started, and a drain. -/
def flushThenDrain : List (Action Unit Bool) :=
  runCall 0 ++ enqueueCall 0 () 1 ++ flushCall 0 (some true) 2 ++
    List.replicate 9 (Action.worker 3 true) ++ [Action.call 0 .drainAndStop] ++
    List.replicate 2 (Action.client 0 3) ++ List.replicate 4 (Action.worker 3 true) ++
    [Action.client 0 3]

theorem completions_kept_flushThenDrain :
    ∃ s, exec (step logEverything) initial flushThenDrain = some s ∧
      s.log.filterMap Event.started? = [true] ∧ s.running = false ∧ CompletionsKept s :=
  ⟨_, rfl, rfl, rfl, completions_kept logEverything flushThenDrain _ (by decide) rfl⟩

/-- A second `Flush` stores its completion over the first one, and the worker
    drains without looking at the slot. -/
def flushTwiceThenDrain : List (Action Unit Bool) :=
  runCall 0 ++ flushCall 0 (some true) 1 ++ flushCall 0 (some false) 2 ++
    [Action.call 0 .drainAndStop] ++ List.replicate 2 (Action.client 0 3) ++
    List.replicate 4 (Action.worker 3 true) ++ [Action.client 0 3]

theorem flush_twice_then_drain_loses_both :
    ∃ s, exec (step logEverything) initial flushTwiceThenDrain = some s ∧
      s.log.filterMap Event.handed? = [true, false] ∧ s.log.filterMap Event.started? = [] ∧
      Event.drained 0 ∈ s.log ∧ s.running = false ∧ s.pending = [false] ∧
      ¬ CompletionsKept s := by
  refine ⟨_, rfl, rfl, rfl, by decide, rfl, rfl, ?_⟩
  intro kept
  exact absurd (kept.stopped rfl) (by decide)

end Spoor.FlushQueue.DiskFlushQueue
