import Spoor.FlushQueue.Shutdown

/-! # How often a record is written

In log-everything mode every popped record is passed to `Write`.  The number of
attempts left travels inside the record, through the worker's hands and behind
the other records of the deque.  Between two laps it says how many of the
allowed attempts the log has not seen yet, and all attempts seen have failed.
-/

namespace Spoor.FlushQueue.DiskFlushQueue

open Lib.MachineInteger Lib.Transition

variable {β κ : Type}

/-- The answers of `Write` to the attempts at the record with this id, in order. -/
def attempts (log : List (Event β κ)) (id : Nat) : List Bool :=
  log.filterMap fun
    | .wrote other ok => if other = id then some ok else none
    | _ => none

/-- The number of attempts the loop makes at a record that always fails. -/
def Options.allowedAttempts (o : Options) : Nat := max 1 o.maxBufferFlushAttempts.toNat

/-- Events that neither write a record nor let one in or out. -/
def Event.Idle : Event β κ → Prop
  | .enqueued _ _ | .wrote _ _ | .finished _ | .discarded _ | .cleared _ => False
  | _ => True

theorem Event.Control.idle {e : Event β κ} (control : e.Control) : e.Idle := by
  cases e <;> simp_all [Event.Control, Event.Idle]

/-- The way of records through a queue that discards none: what a step does to
    the deque, the worker's hands and the ids, and what it logs about it. -/
inductive Passage (o : Options) (s : State β κ) (a : Action β κ) (s' : State β κ) : Prop where
  | still (events : List (Event β κ)) :
      s'.guarded.queue = s.guarded.queue → s'.worker.held = s.worker.held →
      s'.worker.verdict = s.worker.verdict →
      s'.guarded.nextFlushInfoId = s.guarded.nextFlushInfoId →
      s'.log = s.log ++ events → (∀ e ∈ events, e.Idle) → Passage o s a s'
  | enter (thread : Nat) (record : FlushInfo β) :
      record.id = s.guarded.nextFlushInfoId →
      record.remainingFlushAttempts = o.maxBufferFlushAttempts →
      s'.guarded.queue = s.guarded.queue ++ [record] → s'.worker = s.worker →
      s'.guarded.nextFlushInfoId = s.guarded.nextFlushInfoId + 1 →
      s'.log = s.log ++ [.enqueued thread record] → Passage o s a s'
  | clear :
      s.criticalSection a = some .clear → s'.guarded.queue = [] → s'.worker = s.worker →
      s'.guarded.nextFlushInfoId = s.guarded.nextFlushInfoId →
      s'.log = s.log ++ [.cleared (s.guarded.queue.map FlushInfo.id)] → Passage o s a s'
  | pop (record : FlushInfo β) :
      s.worker.held = none → s.guarded.queue = record :: s'.guarded.queue →
      s'.worker.held = some record → s'.worker.verdict = none →
      s'.guarded.nextFlushInfoId = s.guarded.nextFlushInfoId → s'.log = s.log →
      Passage o s a s'
  | write (record : FlushInfo β) (ok : Bool) :
      s.worker.held = some record → s.worker.verdict = none →
      s'.guarded.queue = s.guarded.queue →
      s'.worker = .settle
        { record with remainingFlushAttempts := decInt32 record.remainingFlushAttempts } ok →
      s'.guarded.nextFlushInfoId = s.guarded.nextFlushInfoId →
      s'.log = s.log ++ [.wrote record.id ok] → Passage o s a s'
  | back (record : FlushInfo β) :
      s.worker = .settle record false → 0 < record.remainingFlushAttempts →
      s'.guarded.queue = s.guarded.queue ++ [record] → s'.worker.held = none →
      s'.worker.verdict = none →
      s'.guarded.nextFlushInfoId = s.guarded.nextFlushInfoId → s'.log = s.log →
      Passage o s a s'
  | finish (record : FlushInfo β) (ok : Bool) :
      s.worker = .settle record ok → (ok = false → record.remainingFlushAttempts ≤ 0) →
      s'.guarded.queue = s.guarded.queue → s'.worker.held = none → s'.worker.verdict = none →
      s'.guarded.nextFlushInfoId = s.guarded.nextFlushInfoId →
      s'.log = s.log ++ [.finished record.id] → Passage o s a s'

@[simp] theorem verdict_endIteration (leaving : Option (FlushInfo β)) :
    (Worker.endIteration leaving : Worker β κ).verdict = none := by
  cases leaving <;> rfl

/-- The worker is neither about to discard a record nor to put it back unwritten. -/
structure State.Keeping (s : State β κ) : Prop where
  discard : ∀ record, s.worker ≠ .discard record
  requeue : ∀ record, s.worker ≠ .requeue record

theorem Keeping.initial : (initial : State β κ).Keeping := by
  constructor <;> simp [DiskFlushQueue.initial]

section

variable {o : Options} {s s' : State β κ} {a : Action β κ}

theorem step_passage (flushAll : o.flushAllEvents = true) (keeping : s.Keeping)
    (taken : step o s a = some s') : Passage o s a s' := by
  cases step_effect taken with
  | silent events guarded load log control =>
      exact .still events (by rw [guarded]) (congrArg Load.held load)
        (congrArg Load.verdict load) (by rw [guarded]) log
        (fun e member => (control e member).idle)
  | bypass callback guarded worker log =>
      exact .still _ (by rw [guarded]) (by rw [worker]) (by rw [worker]) (by rw [guarded]) log
        (by simp [Event.Idle])
  | enqueue thread buffer flushTimestamp record _ built _ guarded worker log =>
      exact .enter thread record (by rw [built]; rfl) (by rw [built]; rfl)
        (by rw [guarded]; rfl) worker (by rw [guarded]; rfl) log
  | flush completion now _ guarded worker log =>
      exact .still _ (by rw [guarded]; rfl) (by rw [worker]) (by rw [worker])
        (by rw [guarded]; rfl) log (by cases completion <;> simp [Event.Idle])
  | clear clears guarded worker log =>
      exact .clear clears (by rw [guarded]; rfl) worker (by rw [guarded]; rfl) log
  | pop record rest position front guarded worker log =>
      exact .pop record (by rw [position]; rfl) (by rw [guarded, front]) (by rw [worker]; rfl)
        (by rw [worker]; rfl) (by rw [guarded]) log
  | test record now position guarded worker log =>
      rcases worker with after | ⟨-, circular, -⟩
      · exact .still _ (by rw [guarded]) (by rw [after, position]; rfl)
          (by rw [after, position]; rfl) (by rw [guarded]) log (by simp [Event.Idle])
      · simp [flushAll] at circular
  | discard record position => exact absurd position (keeping.discard record)
  | write record ok position guarded worker log =>
      exact .write record ok (by rw [position]; rfl) (by rw [position]; rfl) (by rw [guarded])
        worker (by rw [guarded]) log
  | requeue record position _ guarded log =>
      rcases position with ⟨before, -⟩ | ⟨before, left, after⟩
      · exact absurd before (keeping.requeue record)
      · exact .back record before left (by rw [guarded]; rfl) (by rw [after]; rfl)
          (by rw [after]; rfl) (by rw [guarded]; rfl) log
  | finish record ok position spent guarded worker log =>
      exact .finish record ok position spent (by rw [guarded]; rfl) (by rw [worker]; rfl)
        (by rw [worker]; rfl) (by rw [guarded]; rfl) log
  | take completion leaving position _ _ guarded worker log =>
      exact .still [] (by rw [guarded]) (by rw [worker, position]; rfl)
        (by rw [worker, position]; rfl) (by rw [guarded]) (by simp [log]) (by simp)
  | start completion leaving position guarded worker log =>
      exact .still _ (by rw [guarded]) (by rw [worker, position, held_endIteration]; rfl)
        (by rw [worker, position, verdict_endIteration]; rfl) (by rw [guarded]) log
        (by simp [Event.Idle])

theorem step_keeping (flushAll : o.flushAllEvents = true) (keeping : s.Keeping)
    (taken : step o s a = some s') : s'.Keeping := by
  constructor
  · intro record after
    cases step_passage flushAll keeping taken with
    | still _ _ _ verdict =>
        rw [after] at verdict
        cases position : s.worker <;> simp_all [Worker.verdict]
        exact keeping.discard _ position
    | enter _ _ _ _ _ worker => exact keeping.discard record (worker ▸ after)
    | clear _ _ worker => exact keeping.discard record (worker ▸ after)
    | pop _ _ _ _ verdict => simp [after, Worker.verdict] at verdict
    | write _ _ _ _ _ worker => simp [worker] at after
    | back _ _ _ _ _ verdict => simp [after, Worker.verdict] at verdict
    | finish _ _ _ _ _ _ verdict => simp [after, Worker.verdict] at verdict
  · intro record after
    rcases step_flushDecision taken (.inr after) with same | ⟨-, -, -, decision⟩
    · exact keeping.requeue record (same.trans after)
    · simp [after, flushAll] at decision

theorem run_keeping {labels : List (Action β κ)} (flushAll : o.flushAllEvents = true)
    (reached : exec (step o) initial labels = some s) : s.Keeping :=
  invariant_always State.Keeping Keeping.initial
    (fun _ _ _ keeping taken => step_keeping flushAll keeping taken) reached

end

theorem attempts_append (log events : List (Event β κ)) (id : Nat) :
    attempts (log ++ events) id = attempts log id ++ attempts events id :=
  List.filterMap_append

theorem attempts_idle {events : List (Event β κ)} (idle : ∀ e ∈ events, e.Idle) (id : Nat) :
    attempts events id = [] := by
  rw [attempts, List.filterMap_eq_nil_iff]
  intro e member
  cases e with
  | wrote => exact (idle _ member).elim
  | _ => rfl

theorem attempts_extend_idle {log events : List (Event β κ)} (idle : ∀ e ∈ events, e.Idle)
    (id : Nat) : attempts (log ++ events) id = attempts log id := by
  rw [attempts_append, attempts_idle idle, List.append_nil]

theorem attempts_wrote_self (log : List (Event β κ)) (id : Nat) (ok : Bool) :
    attempts (log ++ [.wrote id ok]) id = attempts log id ++ [ok] := by
  simp [attempts]

theorem attempts_wrote_other (log : List (Event β κ)) {id other : Nat} (ok : Bool)
    (different : other ≠ id) : attempts (log ++ [.wrote other ok]) id = attempts log id := by
  simp [attempts, different]

/-- The record was tried `failed` times without success, and the attempts it
    carries are the others. -/
structure Tried (o : Options) (log : List (Event β κ)) (record : FlushInfo β) (failed : Nat) :
    Prop where
  answers : attempts log record.id = List.replicate failed false
  left : record.remainingFlushAttempts = o.maxBufferFlushAttempts - failed
  again : failed < o.allowedAttempts

/-- An attempt has been made after `failed` unsuccessful ones, and the worker
    has taken it off the attempts left. -/
structure Answered (o : Options) (log : List (Event β κ)) (record : FlushInfo β) (ok : Bool)
    (failed : Nat) : Prop where
  answers : attempts log record.id = List.replicate failed false ++ [ok]
  left : record.remainingFlushAttempts = o.maxBufferFlushAttempts - failed - 1
  again : failed < o.allowedAttempts

/-- No attempt followed a success, and there were no more than allowed. -/
def Limited (o : Options) (answers : List Bool) : Prop :=
  ∃ failed, answers = List.replicate failed false ∧ failed ≤ o.allowedAttempts ∨
    answers = List.replicate failed false ++ [true] ∧ failed < o.allowedAttempts

/-- The attempts ended with a success, or all allowed ones failed. -/
def Exhausted (o : Options) (answers : List Bool) : Prop :=
  (∃ failed, answers = List.replicate failed false ++ [true]) ∨
    answers = List.replicate o.allowedAttempts false

/-- How the log, the remaining attempts and the place of each record fit. -/
structure Budgeted (o : Options) (s : State β κ) : Prop where
  queued : ∀ record ∈ s.guarded.queue, ∃ failed, Tried o s.log record failed
  held : ∀ record, s.worker.held = some record → s.worker.verdict = none →
    ∃ failed, Tried o s.log record failed
  settling : ∀ record ok, s.worker.verdict = some (record, some ok) →
    ∃ failed, Answered o s.log record ok failed
  limited : ∀ id, Limited o (attempts s.log id)
  unused : ∀ id, s.guarded.nextFlushInfoId ≤ id → attempts s.log id = []

theorem Budgeted.initial (o : Options) : Budgeted o (initial : State β κ) := by
  constructor
  · simp [DiskFlushQueue.initial]
  · simp [DiskFlushQueue.initial, Worker.held]
  · simp [DiskFlushQueue.initial, Worker.verdict]
  · intro id
    exact ⟨0, .inl ⟨rfl, Nat.zero_le _⟩⟩
  · intro id _
    rfl

section

variable {o : Options} {s s' : State β κ} {a : Action β κ}

theorem Tried.transfer {log log' : List (Event β κ)} {record : FlushInfo β} {failed : Nat}
    (tried : Tried o log record failed)
    (same : attempts log' record.id = attempts log record.id) : Tried o log' record failed :=
  ⟨same.trans tried.answers, tried.left, tried.again⟩

theorem Answered.transfer {log log' : List (Event β κ)} {record : FlushInfo β} {ok : Bool}
    {failed : Nat} (answered : Answered o log record ok failed)
    (same : attempts log' record.id = attempts log record.id) :
    Answered o log' record ok failed :=
  ⟨same.trans answered.answers, answered.left, answered.again⟩

/-- One more attempt at a record, whose counter does not wrap. -/
theorem Tried.write {log : List (Event β κ)} {record : FlushInfo β} {failed : Nat}
    (tried : Tried o log record failed) (low : 0 ≤ o.maxBufferFlushAttempts)
    (high : o.maxBufferFlushAttempts < 2 ^ 31) (ok : Bool) :
    Answered o (log ++ [.wrote record.id ok])
      { record with remainingFlushAttempts := decInt32 record.remainingFlushAttempts }
      ok failed := by
  obtain ⟨answers, left, again⟩ := tried
  refine ⟨?_, ?_, again⟩
  · rw [attempts_wrote_self, answers]
  · rw [Options.allowedAttempts] at again
    rw [left]
    exact decInt32_of_range (by omega) (by omega)

theorem Answered.limited {log : List (Event β κ)} {record : FlushInfo β} {ok : Bool}
    {failed : Nat} (answered : Answered o log record ok failed) :
    Limited o (attempts log record.id) := by
  obtain ⟨answers, -, again⟩ := answered
  cases ok with
  | true => exact ⟨failed, .inr ⟨answers, again⟩⟩
  | false =>
      refine ⟨failed + 1, .inl ⟨?_, again⟩⟩
      rw [answers, List.replicate_succ']

/-- A failed record with attempts left is as before, with one more failure. -/
theorem Answered.retry {log : List (Event β κ)} {record : FlushInfo β} {failed : Nat}
    (answered : Answered o log record false failed)
    (left : 0 < record.remainingFlushAttempts) : Tried o log record (failed + 1) := by
  obtain ⟨answers, remaining, -⟩ := answered
  refine ⟨?_, ?_, ?_⟩
  · rw [answers, List.replicate_succ']
  · omega
  · rw [Options.allowedAttempts]
    omega

theorem Answered.exhausted {log : List (Event β κ)} {record : FlushInfo β} {ok : Bool}
    {failed : Nat} (answered : Answered o log record ok failed)
    (spent : ok = false → record.remainingFlushAttempts ≤ 0) :
    Exhausted o (attempts log record.id) := by
  obtain ⟨answers, remaining, again⟩ := answered
  cases ok with
  | true => exact .inl ⟨failed, answers⟩
  | false =>
      have none := spent rfl
      have all : failed + 1 = o.allowedAttempts := by
        rw [Options.allowedAttempts] at again ⊢
        omega
      refine .inr ?_
      rw [answers, ← all, List.replicate_succ']

/-- A step that logs no attempt keeps what is known about each record. -/
theorem Budgeted.carry (budgeted : Budgeted o s)
    (same : ∀ id, attempts s'.log id = attempts s.log id)
    (queued : ∀ record ∈ s'.guarded.queue, ∃ failed, Tried o s.log record failed)
    (held : ∀ record, s'.worker.held = some record → s'.worker.verdict = none →
      ∃ failed, Tried o s.log record failed)
    (settling : ∀ record ok, s'.worker.verdict = some (record, some ok) →
      s.worker.verdict = some (record, some ok))
    (next : s.guarded.nextFlushInfoId ≤ s'.guarded.nextFlushInfoId) : Budgeted o s' := by
  constructor
  · intro record member
    obtain ⟨failed, tried⟩ := queued record member
    exact ⟨failed, tried.transfer (same _)⟩
  · intro record held' unsettled
    obtain ⟨failed, tried⟩ := held record held' unsettled
    exact ⟨failed, tried.transfer (same _)⟩
  · intro record ok verdict
    obtain ⟨failed, answered⟩ := budgeted.settling record ok (settling record ok verdict)
    exact ⟨failed, answered.transfer (same _)⟩
  · intro id
    rw [same]
    exact budgeted.limited id
  · intro id fresh
    rw [same]
    exact budgeted.unused id (next.trans fresh)

/-- The attempt is counted for the record in the worker's hands and for no other. -/
theorem Budgeted.write (budgeted : Budgeted o s) (tracked : Tracked s)
    (low : 0 ≤ o.maxBufferFlushAttempts) (high : o.maxBufferFlushAttempts < 2 ^ 31)
    {record : FlushInfo β} {ok : Bool} (held : s.worker.held = some record)
    (unsettled : s.worker.verdict = none) (queue : s'.guarded.queue = s.guarded.queue)
    (worker : s'.worker = .settle
      { record with remainingFlushAttempts := decInt32 record.remainingFlushAttempts } ok)
    (next : s'.guarded.nextFlushInfoId = s.guarded.nextFlushInfoId)
    (log : s'.log = s.log ++ [.wrote record.id ok]) : Budgeted o s' := by
  obtain ⟨failed, tried⟩ := budgeted.held record held unsettled
  have answered := tried.write low high ok
  rw [← log] at answered
  have others : ∀ id, record.id ≠ id → attempts s'.log id = attempts s.log id := by
    intro id different
    rw [log, attempts_wrote_other _ _ different]
  constructor
  · intro queued member
    rw [queue] at member
    obtain ⟨failed', tried'⟩ := budgeted.queued queued member
    exact ⟨failed', tried'.transfer (others _ (tracked.held_apart held member))⟩
  · simp [worker, Worker.verdict]
  · intro other answer verdict
    simp only [worker, Worker.verdict, Option.some.injEq, Prod.mk.injEq] at verdict
    obtain ⟨rfl, rfl⟩ := verdict
    exact ⟨failed, answered⟩
  · intro id
    by_cases same : record.id = id
    · rw [← same]
      exact answered.limited
    · rw [others id same]
      exact budgeted.limited id
  · intro id fresh
    have inside : record.stamp ∈ s.records := by simp [State.records, held]
    have inUse := tracked.id_lt inside
    rw [stamp_id] at inUse
    rw [others id (by omega)]
    exact budgeted.unused id (by omega)

theorem step_budgeted (flushAll : o.flushAllEvents = true)
    (low : 0 ≤ o.maxBufferFlushAttempts) (high : o.maxBufferFlushAttempts < 2 ^ 31)
    (budgeted : Budgeted o s) (tracked : Tracked s) (keeping : s.Keeping)
    (taken : step o s a = some s') : Budgeted o s' := by
  cases step_passage flushAll keeping taken with
  | still events queue held verdict next log idle =>
      refine budgeted.carry (fun id => ?_) ?_ ?_ ?_ next.ge
      · rw [log, attempts_extend_idle idle]
      · rw [queue]
        exact budgeted.queued
      · rw [held, verdict]
        exact budgeted.held
      · rw [verdict]
        exact fun _ _ carried => carried
  | enter thread record fresh full queue worker next log =>
      refine budgeted.carry (fun id => ?_) ?_ ?_ ?_ (by omega)
      · simp [log, attempts]
      · intro other member
        rw [queue, List.mem_append, List.mem_singleton] at member
        rcases member with before | rfl
        · exact budgeted.queued other before
        · exact ⟨0, budgeted.unused _ fresh.ge, by simp [full],
            Nat.lt_of_lt_of_le Nat.zero_lt_one (Nat.le_max_left _ _)⟩
      · rw [worker]
        exact budgeted.held
      · rw [worker]
        exact fun _ _ carried => carried
  | clear _ queue worker next log =>
      refine budgeted.carry (fun id => ?_) ?_ ?_ ?_ next.ge
      · simp [log, attempts]
      · simp [queue]
      · rw [worker]
        exact budgeted.held
      · rw [worker]
        exact fun _ _ carried => carried
  | pop record unheld queue held verdict next log =>
      refine budgeted.carry (fun id => by rw [log]) ?_ ?_ (by simp [verdict]) next.ge
      · intro other member
        exact budgeted.queued other (by rw [queue]; exact List.mem_cons_of_mem _ member)
      · intro other held'
        obtain rfl : record = other := by simpa [held] using held'
        exact fun _ => budgeted.queued record (by simp [queue])
  | write record ok held unsettled queue worker next log =>
      exact budgeted.write tracked low high held unsettled queue worker next log
  | back record position left queue unheld unsettled next log =>
      refine budgeted.carry (fun id => by rw [log]) ?_ (by simp [unheld]) (by simp [unsettled])
        next.ge
      intro other member
      rw [queue, List.mem_append, List.mem_singleton] at member
      rcases member with before | rfl
      · exact budgeted.queued other before
      · obtain ⟨failed, answered⟩ := budgeted.settling other false (by rw [position]; rfl)
        exact ⟨failed + 1, answered.retry left⟩
  | finish record ok position spent queue unheld unsettled next log =>
      refine budgeted.carry (fun id => ?_) ?_ (by simp [unheld]) (by simp [unsettled]) next.ge
      · simp [log, attempts]
      · rw [queue]
        exact budgeted.queued

theorem run_budgeted {labels : List (Action β κ)} (flushAll : o.flushAllEvents = true)
    (low : 0 ≤ o.maxBufferFlushAttempts) (high : o.maxBufferFlushAttempts < 2 ^ 31)
    (reached : exec (step o) initial labels = some s) : Budgeted o s := by
  refine (invariant_always (fun t => Tracked t ∧ t.Keeping ∧ Budgeted o t)
    ⟨Tracked.initial, Keeping.initial, Budgeted.initial o⟩ ?_ reached).2.2
  rintro t b u ⟨tracked, keeping, budgeted⟩ taken
  exact ⟨step_tracked tracked taken, step_keeping flushAll keeping taken,
    step_budgeted flushAll low high budgeted tracked keeping taken⟩

end

theorem Limited.bounds {o : Options} {answers : List Bool} (limited : Limited o answers) :
    answers.length ≤ o.allowedAttempts ∧ answers.count true ≤ 1 ∧
      ∀ before after, answers = before ++ true :: after → after = [] := by
  obtain ⟨failed, ⟨rfl, most⟩ | ⟨rfl, most⟩⟩ := limited
  · refine ⟨by simpa using most, by simp [List.count_replicate], ?_⟩
    intro before after split
    have success : true ∈ List.replicate failed false := by simp [split]
    simp at success
  · refine ⟨?_, by simp [List.count_replicate], ?_⟩
    · rw [List.length_append, List.length_replicate]
      exact most
    intro before after split
    rcases List.eq_nil_or_concat after with rfl | ⟨rest, last, rfl⟩
    · rfl
    · rw [List.concat_eq_append, ← List.cons_append, ← List.append_assoc] at split
      have success : true ∈ List.replicate failed false := by
        rw [(List.append_inj' split rfl).1]
        simp
      simp at success

/-- Where no `Clear` runs, a record leaves the queue by the step that settles it. -/
theorem step_leaves {o : Options} {s s' : State β κ} {a : Action β κ} {id : Nat}
    (flushAll : o.flushAllEvents = true) (keeping : s.Keeping) (unclearing : Unclearing s)
    (taken : step o s a = some s') (inside : s.Holds id) (outside : ¬ s'.Holds id) :
    ∃ record ok, s.worker = .settle record ok ∧ record.id = id ∧
      (ok = false → record.remainingFlushAttempts ≤ 0) := by
  have stays : (∀ record ∈ s.guarded.queue, record ∈ s'.guarded.queue ∨
        s'.worker.held = some record) →
      (∀ record, s.worker.held = some record → s'.Holds record.id) → s'.Holds id := by
    intro queued held
    rcases inside with ⟨record, member, rfl⟩ | ⟨record, carried, rfl⟩
    · rcases queued record member with still | popped
      · exact .inl ⟨record, still, rfl⟩
      · exact .inr ⟨record, popped, rfl⟩
    · exact held record carried
  cases step_passage flushAll keeping taken with
  | still events queue held =>
      refine absurd (stays ?_ ?_) outside
      · exact fun record member => .inl (queue ▸ member)
      · exact fun record carried => .inr ⟨record, held ▸ carried, rfl⟩
  | enter thread record _ _ queue worker =>
      refine absurd (stays ?_ ?_) outside
      · exact fun other member => .inl (queue ▸ List.mem_append_left _ member)
      · exact fun other carried => .inr ⟨other, worker ▸ carried, rfl⟩
  | clear clears =>
      obtain ⟨thread, now, -, position⟩ := criticalSection_eq_clear clears
      exact absurd position (unclearing.clients thread)
  | pop record unheld queue held =>
      refine absurd (stays ?_ ?_) outside
      · intro other member
        rw [queue, List.mem_cons] at member
        rcases member with rfl | rest
        · exact .inr held
        · exact .inl rest
      · simp [unheld]
  | write record ok held _ queue worker =>
      refine absurd (stays ?_ ?_) outside
      · exact fun other member => .inl (queue ▸ member)
      · intro other carried
        obtain rfl : record = other := by simpa [held] using carried
        exact .inr (by simp [worker, Worker.held])
  | back record position _ queue =>
      refine absurd (stays ?_ ?_) outside
      · exact fun other member => .inl (queue ▸ List.mem_append_left _ member)
      · intro other carried
        obtain rfl : record = other := by simpa [position, Worker.held] using carried
        exact .inl ⟨record, by simp [queue], rfl⟩
  | finish record ok position spent queue =>
      refine ⟨record, ok, position, ?_, spent⟩
      rcases inside with ⟨other, member, rfl⟩ | ⟨other, carried, rfl⟩
      · exact absurd (.inl ⟨other, queue ▸ member, rfl⟩) outside
      · obtain rfl : record = other := by simpa [position, Worker.held] using carried
        rfl

/-- In log-everything mode each record is written at most as often as allowed,
    and never again after a success.  Without `Clear`, the step by which a
    record leaves the queue is the one right after its last attempt, which
    succeeded or was the last of all allowed ones to fail. -/
theorem retries_bounded (o : Options) (labels : List (Action β κ)) (s : State β κ)
    (flushAll : o.flushAllEvents = true) (low : 0 ≤ o.maxBufferFlushAttempts)
    (high : o.maxBufferFlushAttempts < 2 ^ 31)
    (reached : exec (step o) initial labels = some s) :
    (∀ thread record, .enqueued thread record ∈ s.log →
      (attempts s.log record.id).length ≤ o.allowedAttempts ∧
      (attempts s.log record.id).count true ≤ 1 ∧
      ∀ before after, attempts s.log record.id = before ++ true :: after → after = []) ∧
    ((∀ thread, Action.call thread .clear ∉ labels) → ∀ a s' id, step o s a = some s' →
      s.Holds id → ¬ s'.Holds id →
      ∃ record ok, s.worker = .settle record ok ∧ record.id = id ∧
        Exhausted o (attempts s.log id)) := by
  have budgeted := run_budgeted flushAll low high reached
  constructor
  · intro thread record _
    exact (budgeted.limited record.id).bounds
  · intro unclearing a s' id taken inside outside
    obtain ⟨record, ok, position, rfl, spent⟩ := step_leaves flushAll
      (run_keeping flushAll reached) (run_unclearing unclearing reached) taken inside outside
    obtain ⟨failed, answered⟩ := budgeted.settling record ok (by rw [position]; rfl)
    exact ⟨record, ok, position, rfl, answered.exhausted spent⟩

/-- One record is enqueued, and the only attempt at it fails. -/
def enqueueThenFail : List (Action Unit Unit) :=
  runAndEnqueue ++ List.replicate 5 (Action.worker 1 false)

theorem enqueueThenFail_leaves :
    ∃ s s', exec (step logEverything) initial enqueueThenFail = some s ∧
      .enqueued 0 ⟨(), 1, 0, 0, 1⟩ ∈ s.log ∧
      step logEverything s (.worker 1 false) = some s' ∧ s.Holds 0 ∧ ¬ s'.Holds 0 :=
  ⟨_, _, rfl, by decide, rfl, holds_iff_mem_records.mpr (by decide),
    fun holds => absurd (holds_iff_mem_records.mp holds) (by decide)⟩

theorem retries_bounded_enqueueThenFail :
    ∃ s, exec (step logEverything) initial enqueueThenFail = some s ∧
      (attempts s.log 0).length ≤ logEverything.allowedAttempts ∧
      Exhausted logEverything (attempts s.log 0) := by
  obtain ⟨s, s', reached, logged, taken, inside, outside⟩ := enqueueThenFail_leaves
  obtain ⟨bounded, leaves⟩ :=
    retries_bounded logEverything enqueueThenFail s rfl (by decide) (by decide) reached
  have unclearing : ∀ thread, Action.call thread .clear ∉ enqueueThenFail := by
    simp [enqueueThenFail, runAndEnqueue, runCall, enqueueCall]
  obtain ⟨-, -, -, -, exhausted⟩ := leaves unclearing _ s' 0 taken inside outside
  exact ⟨s, reached, (bounded 0 _ logged).1, exhausted⟩

end Spoor.FlushQueue.DiskFlushQueue
