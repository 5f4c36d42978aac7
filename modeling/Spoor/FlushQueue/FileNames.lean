import Mathlib.Data.Set.Function
import Spoor.FlushQueue.Retention

/-! # The names of trace files

The name of a record's file is made of the session, the thread that enqueued
the record and the record's timestamp.  The session is fixed, so within a run
two names differ when the threads or the timestamps do.  A record's id is not
part of its name: two records that one thread enqueues at one clock reading
share a file, and `TraceFileWriter::Write` truncates the file it opens.
-/

namespace Spoor.FlushQueue.DiskFlushQueue

open Lib.MachineInteger Lib.Transition

variable {β κ : Type}

/-- `kTraceFileExtension`. -/
def traceFileExtension : String := "spoor_trace"

/-- The nanoseconds of a timestamp as the formatter sees them. -/
def FlushInfo.timestampWord (record : FlushInfo β) : BitVec 64 :=
  BitVec.ofInt 64 record.flushTimestamp

/-- `DiskFlushQueue::TraceFilePath`. -/
def traceFilePath (o : Options) (record : FlushInfo β) : String :=
  paddedHex o.sessionId ++ "-" ++ paddedHex record.threadId ++ "-" ++
    paddedHex record.timestampWord ++ "." ++ traceFileExtension

/-- A thread appends a record at a timestamp that no record it appended before has. -/
def StampsApart (s : State β κ) (a : Action β κ) : Prop :=
  ∀ thread now buffer flushTimestamp, a = .client thread now →
    s.clients thread = .enqueueLock buffer flushTimestamp →
    ∀ record, .enqueued thread record ∈ s.log →
      record.timestampWord ≠ BitVec.ofInt 64 flushTimestamp

/-- No two accepted records have the same file name. -/
def NamesApart (o : Options) (log : List (Event β κ)) : Prop :=
  ∀ thread record thread' record', .enqueued thread record ∈ log →
    .enqueued thread' record' ∈ log → record.id ≠ record'.id →
    traceFilePath o record ≠ traceFilePath o record'

theorem traceFilePath_eq_iff {o : Options} {record record' : FlushInfo β} :
    traceFilePath o record = traceFilePath o record' ↔
      record.threadId = record'.threadId ∧ record.timestampWord = record'.timestampWord := by
  constructor
  · intro same
    have text := congrArg String.toList same
    simp only [traceFilePath, String.toList_append, List.append_assoc] at text
    have threads := List.append_cancel_left (List.append_cancel_left text)
    obtain ⟨thread, rest⟩ := List.append_inj threads (by simp)
    have stamps := List.append_cancel_left rest
    obtain ⟨stamp, -⟩ := List.append_inj stamps (by simp)
    exact ⟨paddedHex_injective (String.toList_injective thread),
      paddedHex_injective (String.toList_injective stamp)⟩
  · rintro ⟨thread, stamp⟩
    rw [traceFilePath, traceFilePath, thread, stamp]

/-- The threads whose records were accepted. -/
def enqueuers (log : List (Event β κ)) : Set Nat :=
  {thread | ∃ record, .enqueued thread record ∈ log}

/-- Accepted records of one thread have different timestamps. -/
def StampedApart (log : List (Event β κ)) : Prop :=
  ∀ thread record record', .enqueued thread record ∈ log → .enqueued thread record' ∈ log →
    record.id ≠ record'.id → record.timestampWord ≠ record'.timestampWord

section

variable {o : Options} {s s' : State β κ} {a : Action β κ} {labels : List (Action β κ)}

/-- An accepted record carries the id of the thread that called `Enqueue`. -/
theorem run_threadId (reached : exec (step o) initial labels = some s) :
    ∀ thread record, .enqueued thread record ∈ s.log →
      record.threadId = o.threadIdHash thread := by
  refine invariant_always (fun t => ∀ thread record, .enqueued thread record ∈ t.log →
    record.threadId = o.threadIdHash thread) (by simp [initial]) ?_ reached
  intro t a u known taken thread record logged
  rcases step_enqueued taken logged with before | ⟨_, _, _, -, -, rfl⟩
  · exact known thread record before
  · rfl

theorem step_stampedApart (stamped : StampedApart s.log) (conforms : StampsApart s a)
    (taken : step o s a = some s') : StampedApart s'.log := by
  intro thread record record' first second different
  rcases step_enqueued taken first with first | ⟨now, buffer, time, acts, position, rfl⟩ <;>
    rcases step_enqueued taken second with second | ⟨now', buffer', time', acts', position', rfl⟩
  · exact stamped thread record record' first second different
  · exact conforms thread now' buffer' time' acts' position' record first
  · exact (conforms thread now buffer time acts position record' second).symm
  · exact absurd rfl different

theorem run_stampedApart (conforms : Meets (step o) StampsApart initial labels)
    (reached : exec (step o) initial labels = some s) : StampedApart s.log :=
  invariant StampsApart (fun t => StampedApart t.log) (by simp [StampedApart, initial])
    (fun _ _ _ stamped apart taken => step_stampedApart stamped apart taken) conforms reached

/-- An append of a running thread is logged, and no later step takes it back. -/
theorem exec_enqueueLock {final : State β κ} {thread : Nat} {now : Int} {buffer : β}
    {flushTimestamp : Int}
    (position : s.clients thread = .enqueueLock buffer flushTimestamp)
    (completes : exec (step o) s (.client thread now :: labels) = some final) :
    .enqueued thread (s.guarded.record o thread buffer flushTimestamp) ∈ final.log := by
  cases taken : step o s (.client thread now) with
  | none => simp [taken] at completes
  | some t =>
      obtain ⟨events, log⟩ := exec_log (show exec (step o) t labels = some final by
        simpa [taken] using completes)
      rw [log]
      refine List.mem_append_left _ ?_
      simp only [step, clientStep, position] at taken
      split at taken <;> cases taken
      simp

end

/-- Along a run, the accepted records have different file names if and only if
    no thread ever appends a record at a timestamp of an earlier record of its
    own. -/
theorem file_names_unique_iff (o : Options) (labels : List (Action β κ)) (final : State β κ)
    (completes : exec (step o) initial labels = some final)
    (injective : Set.InjOn o.threadIdHash (enqueuers final.log)) :
    NamesApart o final.log ↔ Meets (step o) StampsApart initial labels := by
  constructor
  · intro apart before a after s split reached thread now buffer flushTimestamp acts position
      record logged same
    subst split acts
    rw [exec_append, reached] at completes
    have appended := exec_enqueueLock position completes
    obtain ⟨events, log⟩ := exec_log (show exec (step o) s (.client thread now :: after) =
      some final from completes)
    have kept : .enqueued thread record ∈ final.log := log ▸ List.mem_append_left events logged
    have older : record.id < s.guarded.nextFlushInfoId :=
      (run_tracked reached).below thread record logged
    refine apart thread record thread _ kept appended (Nat.ne_of_lt older) ?_
    exact traceFilePath_eq_iff.mpr ⟨run_threadId reached thread record logged, same⟩
  · intro conforms thread record thread' record' first second different same
    obtain ⟨threads, stamps⟩ := traceFilePath_eq_iff.mp same
    rw [run_threadId completes thread record first,
      run_threadId completes thread' record' second] at threads
    obtain rfl : thread = thread' := injective ⟨record, first⟩ ⟨record', second⟩ threads
    exact run_stampedApart conforms completes thread record record' first second different stamps

theorem runAndEnqueue_log :
    ∃ final, exec (step logEverything) initial runAndEnqueue = some final ∧
      final.log = [.offered 0, .enqueued 0 ⟨(), 1, 0, 0, 1⟩] :=
  ⟨_, rfl, rfl⟩

theorem file_names_unique_iff_runAndEnqueue :
    ∃ final, exec (step logEverything) initial runAndEnqueue = some final ∧
      (NamesApart logEverything final.log ↔
        Meets (step logEverything) StampsApart initial runAndEnqueue) := by
  obtain ⟨final, completes, log⟩ := runAndEnqueue_log
  refine ⟨final, completes, file_names_unique_iff logEverything runAndEnqueue final completes ?_⟩
  rintro thread ⟨record, logged⟩ thread' ⟨record', logged'⟩ -
  simp [log] at logged logged'
  omega

/-- Two calls of `Enqueue` by one thread while the clock shows the same time. -/
def enqueueTwiceAtOnce : List (Action Unit Unit) := runAndEnqueue ++ enqueueCall 0 () 1

theorem enqueueTwiceAtOnce_log :
    ∃ final, exec (step logEverything) initial enqueueTwiceAtOnce = some final ∧
      final.log = [.offered 0, .enqueued 0 ⟨(), 1, 0, 0, 1⟩, .offered 0,
        .enqueued 0 ⟨(), 1, 0, 1, 1⟩] :=
  ⟨_, rfl, rfl⟩

/-- Both records are accepted, and they have the same file name. -/
theorem same_reading_same_name :
    ∃ final, exec (step logEverything) initial enqueueTwiceAtOnce = some final ∧
      Meets (step logEverything) (fun s a => ∀ now ∈ s.clockReading a, now = 1) initial
        enqueueTwiceAtOnce ∧
      Set.InjOn logEverything.threadIdHash (enqueuers final.log) ∧
      ¬ NamesApart logEverything final.log := by
  obtain ⟨final, completes, log⟩ := enqueueTwiceAtOnce_log
  refine ⟨final, completes, by decide, ?_, ?_⟩
  · rintro thread ⟨record, logged⟩ thread' ⟨record', logged'⟩ -
    simp [log] at logged logged'
    omega
  · intro apart
    exact apart 0 ⟨(), 1, 0, 0, 1⟩ 0 ⟨(), 1, 0, 1, 1⟩ (by simp [log]) (by simp [log]) (by decide)
      rfl

end Spoor.FlushQueue.DiskFlushQueue
