import Spoor.EventLogging.Lossless
import Spoor.Trace.WriteSuccess

/-! # The trace files of a run

The queue, the writer and the disk together: a record that was reported as written
is in a file of its own, and the reader gets the record's events from it however the
run goes on.  Two things can spoil this.  A stream may lose bytes, and two records may
have the same file name; a run in which neither happens loses no written record.
-/

namespace Spoor.FlushQueue.DiskFlushQueue

variable {β κ : Type}

/-- `Write` is called for the record in the worker's hands. -/
theorem step_wrote {o : Options} {s s' : State β κ} {a : Action β κ} {id : Nat} {ok : Bool}
    (taken : step o s a = some s') (logged : .wrote id ok ∈ s'.log) :
    .wrote id ok ∈ s.log ∨ ∃ now record, a = .worker now ok ∧ s.worker = .write record ∧
      record.id = id := by
  cases step_effect taken with
  | silent events _ _ log control =>
      rw [log, List.mem_append] at logged
      exact .inl (logged.resolve_right fun member => (control _ member).elim)
  | write record ok' position _ worker log =>
      rw [log] at logged
      rcases List.mem_append.mp logged with before | now
      · exact .inl before
      · obtain ⟨rfl, rfl⟩ : id = record.id ∧ ok = ok' := by simpa using now
        rcases step_settle taken worker with before | ⟨now, written, acts, -⟩
        · simp [before] at position
        · exact .inr ⟨now, record, acts, position, rfl⟩
  | flush completion now _ _ _ log =>
      rw [log] at logged
      cases completion <;> exact .inl (by simpa using logged)
  | bypass _ _ _ log | enqueue _ _ _ _ _ _ _ _ _ log | clear _ _ _ log | pop _ _ _ _ _ _ log
    | test _ _ _ _ _ log | discard _ _ _ _ log | requeue _ _ _ _ log | finish _ _ _ _ _ _ log
    | take _ _ _ _ _ _ _ log | start _ _ _ _ _ log =>
      rw [log] at logged
      exact .inl (by simpa using logged)

theorem traceFilePath_stamp (o : Options) {record record' : FlushInfo β}
    (same : record.stamp = record'.stamp) : traceFilePath o record = traceFilePath o record' := by
  change traceFilePath o record.stamp = traceFilePath o record'.stamp
  rw [same]

end Spoor.FlushQueue.DiskFlushQueue

namespace Spoor.Trace

open Buffer FlushQueue.DiskFlushQueue Lib.ByteOrder Lib.Transition
open EventLogging (contentsOf contentsOf_eq)

variable {ω κ : Type}

/-- A file that `Write` makes of some events can be read. -/
theorem read_wholeFile {host : Order} {snappy : Snappy} (strategy : CompressionStrategy)
    (header : Header) (events : List Event)
    (lossless : ∀ data, snappy.uncompress (snappy.compress data) = some data)
    (magic : header.magicNumber = kMagicNumber) (version : header.version = kTraceFileVersion)
    (own : header.endianness = endianByte host) (countable : events.length < 2 ^ 31)
    (count : header.eventCount = BitVec.ofNat 32 events.length) :
    ∃ used : CompressionStrategy,
      read host snappy (some (wholeFile host snappy strategy header events)) =
        some (.ok ⟨{ header with compressionStrategy := used.byte }, events⟩) := by
  cases compresses : (makeCompressor snappy strategy).compress (encodeEvents host events) with
  | error error => cases error
  | ok compressed =>
      by_cases larger : (encodeEvents host events).length ≤ compressed.length
      · have back : (makeCompressor snappy .none).uncompress (encodeEvents host events) =
            .ok (encodeEvents host events) := rfl
        refine ⟨.none, ?_⟩
        simp only [wholeFile, streamData, compresses, if_pos larger]
        exact read_own magic version own rfl back countable count
      · refine ⟨strategy, ?_⟩
        simp only [wholeFile, streamData, compresses, if_neg larger, strategy_makeCompressor]
        exact read_own magic version own rfl (uncompress_compress (lossless _) compresses) countable
          count

section

variable {host : Order} {snappy : Snappy} {o : Options} {calls calls' : Nat → WriteCall → Prop}
  {s s' : Storage ω κ} {label : StorageStep ω κ}

/-- What the worker's call of `Write` does if no bytes get lost. -/
theorem write_outcome {record : FlushInfo (TraceBuffer ω)} {now : Int} {answer : Bool}
    (position : s.queue.worker = .write record) (acts : label.action = .worker now answer)
    (persists : PersistsAll s label) (taken : s.step host snappy o label = some s') :
    ∃ ok window, record.buffer.buffer.Holds window ∧
      FlushQueue.DiskFlushQueue.step o s.queue (.worker now ok) = some s'.queue ∧
      s'.writer.compressionStrategy = s.writer.compressionStrategy ∧
      (s'.disk = s.disk ∧ (ok = true → record.buffer.buffer.empty = true) ∨
        ok = true ∧ record.buffer.buffer.empty = false ∧
          s'.disk = Function.update s.disk (traceFilePath o record)
            (some (wholeFile host snappy s.writer.compressionStrategy
              (recordHeader host o record label.call) window))) := by
  obtain ⟨window, holds⟩ := record.buffer.holds
  simp only [Storage.step, acts, position, Option.bind_eq_bind, Option.bind_eq_some_iff,
    Option.some.injEq] at taken
  obtain ⟨written, writes, queue, steps, rfl⟩ := taken
  refine ⟨_, window, holds, steps, ?_⟩
  cases occupied : record.buffer.buffer.empty with
  | true =>
      simp only [TraceFileWriter.writeThrough, occupied, if_true, Option.some.injEq] at writes
      subst writes
      exact ⟨rfl, .inl ⟨rfl, fun _ => rfl⟩⟩
  | false =>
      cases opens : label.call.opens with
      | false =>
          simp only [TraceFileWriter.writeThrough, occupied, opens, Bool.false_eq_true, if_false,
            Bool.not_false, if_true, Option.some.injEq] at writes
          subst writes
          refine ⟨rfl, .inl ⟨rfl, ?_⟩⟩
          intro ok
          cases ok
      | true =>
          rw [opens, writeThrough_open holds occupied,
            persists now answer record acts position opens, Option.some.injEq] at writes
          subst writes
          refine ⟨rfl, .inr ⟨rfl, rfl, ?_⟩⟩
          simp [wholeFile]

theorem recordHeader_stamp (host : Order) (o : Options) (call : WriteCall)
    {record record' : FlushInfo (TraceBuffer ω)} (same : record.stamp = record'.stamp) :
    recordHeader host o record call = recordHeader host o record' call := by
  change recordHeader host o record.stamp call = recordHeader host o record'.stamp call
  rw [same]

/-- A thread appends no record at a timestamp that an earlier one of its records has. -/
def NamesFresh (s : Storage ω κ) (label : StorageStep ω κ) : Prop :=
  StampsApart s.queue label.action

/-- The file of the record holds all of the header and of the payload that this call of
    `Write` makes for it. -/
def Storage.CompleteUnder (host : Order) (snappy : Snappy) (o : Options) (s : Storage ω κ)
    (record : FlushInfo (TraceBuffer ω)) (call : WriteCall) : Prop :=
  ∃ window, record.buffer.buffer.Holds window ∧
    s.disk (traceFilePath o record) = some (wholeFile host snappy s.writer.compressionStrategy
      (recordHeader host o record call) window)

/-- The files are those of the records that were reported as written, each whole and made
    by one of the calls that there were for its record. -/
structure Stored (host : Order) (snappy : Snappy) (o : Options) (calls : Nat → WriteCall → Prop)
    (s : Storage ω κ) : Prop where
  tracked : Tracked s.queue
  threadId : ∀ thread record, .enqueued thread record ∈ s.queue.log →
    record.threadId = o.threadIdHash thread
  stamped : StampedApart s.queue.log
  wrote : ∀ id ok, .wrote id ok ∈ s.queue.log →
    ∃ thread record, .enqueued thread record ∈ s.queue.log ∧ record.id = id
  named : ∀ path file, s.disk path = some file → ∃ thread record,
    .enqueued thread record ∈ s.queue.log ∧ .wrote record.id true ∈ s.queue.log ∧
      record.buffer.buffer.empty = false ∧ path = traceFilePath o record
  complete : Set.InjOn o.threadIdHash (enqueuers s.queue.log) → ∀ thread record,
    .enqueued thread record ∈ s.queue.log → .wrote record.id true ∈ s.queue.log →
      record.buffer.buffer.empty = false →
        ∃ call, calls record.id call ∧ s.CompleteUnder host snappy o record call

theorem Stored.initial (host : Order) (snappy : Snappy) (o : Options)
    (calls : Nat → WriteCall → Prop) (writer : TraceFileWriter) :
    Stored host snappy o calls (Storage.initial writer : Storage ω κ) where
  tracked := .initial
  threadId := by simp [Storage.initial, FlushQueue.DiskFlushQueue.initial]
  stamped := by simp [StampedApart, Storage.initial, FlushQueue.DiskFlushQueue.initial]
  wrote := by simp [Storage.initial, FlushQueue.DiskFlushQueue.initial]
  named := by simp [Storage.initial]
  complete := by simp [Storage.initial, FlushQueue.DiskFlushQueue.initial]

theorem Stored.mono (stored : Stored host snappy o calls s)
    (more : ∀ id call, calls id call → calls' id call) : Stored host snappy o calls' s := by
  refine { stored with complete := ?_ }
  intro injective thread record enqueued written occupied
  obtain ⟨call, made, whole⟩ := stored.complete injective thread record enqueued written occupied
  exact ⟨call, more _ _ made, whole⟩

/-- Two records have different files. -/
theorem Stored.path_ne (stored : Stored host snappy o calls s)
    (injective : Set.InjOn o.threadIdHash (enqueuers s.queue.log)) {thread thread' : Nat}
    {record record' : FlushInfo (TraceBuffer ω)} (first : .enqueued thread record ∈ s.queue.log)
    (second : .enqueued thread' record' ∈ s.queue.log) (different : record.id ≠ record'.id) :
    traceFilePath o record ≠ traceFilePath o record' := by
  intro same
  obtain ⟨threads, stamps⟩ := traceFilePath_eq_iff.mp same
  rw [stored.threadId thread record first, stored.threadId thread' record' second] at threads
  obtain rfl : thread = thread' := injective ⟨record, first⟩ ⟨record', second⟩ threads
  exact stored.stamped thread record record' first second different stamps

/-- What a step of the queue keeps of the bookkeeping. -/
theorem Stored.bookkeeping (stored : Stored host snappy o calls s)
    {a : Action (TraceBuffer ω) κ} (apart : StampsApart s.queue a)
    (steps : FlushQueue.DiskFlushQueue.step o s.queue a = some s'.queue) :
    Tracked s'.queue ∧ (∀ thread record, .enqueued thread record ∈ s'.queue.log →
        record.threadId = o.threadIdHash thread) ∧ StampedApart s'.queue.log ∧
      ∀ id ok, .wrote id ok ∈ s'.queue.log →
        ∃ thread record, .enqueued thread record ∈ s'.queue.log ∧ record.id = id := by
  refine ⟨step_tracked stored.tracked steps, ?_, step_stampedApart stored.stamped apart steps, ?_⟩
  · intro thread record logged
    rcases step_enqueued steps logged with before | ⟨_, _, _, -, -, rfl⟩
    · exact stored.threadId thread record before
    · rfl
  · obtain ⟨events, log⟩ := step_log steps
    intro id ok logged
    rw [log]
    rcases step_wrote steps logged with before | ⟨now, record, -, position, same⟩
    · obtain ⟨thread, record, enqueued, same⟩ := stored.wrote id ok before
      exact ⟨thread, record, List.mem_append_left _ enqueued, same⟩
    · obtain ⟨thread, origin, enqueued, stamp⟩ := stored.tracked.origin record.stamp
        (by simp [State.records, position, Worker.held])
      refine ⟨thread, origin, List.mem_append_left _ enqueued, ?_⟩
      rw [← same, ← stamp_id, stamp, stamp_id]

/-- A step in which nothing is written leaves the files alone. -/
theorem Stored.other (stored : Stored host snappy o calls s) (apart : NamesFresh s label)
    (steps : FlushQueue.DiskFlushQueue.step o s.queue label.action = some s'.queue)
    (writer : s'.writer = s.writer) (disk : s'.disk = s.disk)
    (unwritten : ∀ now ok record, label.action = .worker now ok → s.queue.worker ≠ .write record) :
    Stored host snappy o calls s' := by
  obtain ⟨tracked, threadId, stamped, wrote⟩ := stored.bookkeeping apart steps
  obtain ⟨events, log⟩ := step_log steps
  have known : ∀ {id ok}, .wrote id ok ∈ s'.queue.log → .wrote id ok ∈ s.queue.log := by
    intro id ok logged
    rcases step_wrote steps logged with before | ⟨now, record, acts, position, -⟩
    · exact before
    · exact absurd position (unwritten now ok record acts)
  refine ⟨tracked, threadId, stamped, wrote, ?_, ?_⟩
  · intro path file present
    rw [disk] at present
    obtain ⟨thread, record, enqueued, written, rest⟩ := stored.named path file present
    rw [log]
    exact ⟨thread, record, List.mem_append_left _ enqueued, List.mem_append_left _ written, rest⟩
  · intro injective thread record enqueued written occupied
    have fewer : enqueuers s.queue.log ⊆ enqueuers s'.queue.log := by
      rintro other ⟨record, member⟩
      exact ⟨record, log ▸ List.mem_append_left events member⟩
    rcases step_enqueued steps enqueued with before | ⟨_, _, _, -, -, rfl⟩
    · obtain ⟨call, made, window, holds, file⟩ :=
        stored.complete (injective.mono fewer) thread record before (known written) occupied
      exact ⟨call, made, window, holds, by rw [writer, disk, file]⟩
    · obtain ⟨other, older, member, same⟩ := stored.wrote _ true (known written)
      exact absurd same (Nat.ne_of_lt (stored.tracked.below other older member))

/-- The worker calls `Write`. -/
theorem Stored.write (stored : Stored host snappy o calls s) {record : FlushInfo (TraceBuffer ω)}
    {now : Int} {answer : Bool} (position : s.queue.worker = .write record)
    (acts : label.action = .worker now answer) (persists : PersistsAll s label)
    (taken : s.step host snappy o label = some s')
    (more : ∀ id call, calls id call → calls' id call)
    (last : ∀ id, s'.queue.log = s.queue.log ++ [.wrote id true] → calls' id label.call) :
    Stored host snappy o calls' s' := by
  obtain ⟨ok, window, holds, steps, writer, outcome⟩ :=
    write_outcome position acts persists taken
  have apart : StampsApart s.queue (.worker now ok) := by
    intro thread reading buffer time client
    cases client
  obtain ⟨tracked, threadId, stamped, wrote⟩ := stored.bookkeeping apart steps
  have log : s'.queue.log = s.queue.log ++ [.wrote record.id ok] := by
    simp only [FlushQueue.DiskFlushQueue.step, workerStep, position, Option.some.injEq] at steps
    rw [← steps, emit_log]
  have enqueued_iff : ∀ {thread other}, .enqueued thread other ∈ s'.queue.log ↔
      .enqueued thread other ∈ s.queue.log := by simp [log]
  obtain ⟨thread, origin, enqueued, stamp⟩ := stored.tracked.origin record.stamp
    (by simp [State.records, position, Worker.held])
  have path := traceFilePath_stamp o stamp
  have id : origin.id = record.id := by rw [← stamp_id, stamp, stamp_id]
  have buffer : origin.buffer = record.buffer := by
    change origin.stamp.buffer = record.stamp.buffer
    rw [stamp]
  refine ⟨tracked, threadId, stamped, wrote, ?_, ?_⟩
  · intro other file present
    have before : s.disk other = some file → ∃ thread record,
        .enqueued thread record ∈ s'.queue.log ∧ .wrote record.id true ∈ s'.queue.log ∧
          record.buffer.buffer.empty = false ∧ other = traceFilePath o record := by
      intro earlier
      obtain ⟨thread, record, member, written, rest⟩ := stored.named other file earlier
      rw [log]
      exact ⟨thread, record, List.mem_append_left _ member, List.mem_append_left _ written, rest⟩
    rcases outcome with ⟨disk, -⟩ | ⟨rfl, occupied, disk⟩
    · exact before (by rw [← disk, present])
    · by_cases same : other = traceFilePath o record
      · exact ⟨thread, origin, enqueued_iff.mpr enqueued, by simp [log, id],
          by rw [buffer, occupied], same.trans path.symm⟩
      · exact before (by rw [← present, disk, Function.update_of_ne same])
  · intro injective other entry member written occupied
    have injective' : Set.InjOn o.threadIdHash (enqueuers s.queue.log) := by
      simpa only [enqueuers, enqueued_iff] using injective
    have member' := enqueued_iff.mp member
    by_cases same : entry.id = record.id
    · obtain rfl : entry = origin :=
        stored.tracked.once other entry thread origin member' enqueued (same.trans id.symm)
      rcases outcome with ⟨disk, empty⟩ | ⟨rfl, -, disk⟩
      · have earlier : .wrote entry.id true ∈ s.queue.log := by
          rw [log, List.mem_append, List.mem_singleton] at written
          refine written.resolve_right ?_
          intro now
          simp [buffer, empty ((Event.wrote.injEq ..).mp now).2.symm] at occupied
        obtain ⟨call, made, events, contents, file⟩ :=
          stored.complete injective' other entry member' earlier occupied
        exact ⟨call, more _ _ made, events, contents, by rw [writer, disk, file]⟩
      · refine ⟨label.call, last _ (by rw [log, same]), window, buffer ▸ holds, ?_⟩
        rw [writer, disk, path, Function.update_self, recordHeader_stamp host o label.call stamp]
    · have earlier : .wrote entry.id true ∈ s.queue.log := by
        simpa [log, same] using written
      obtain ⟨call, made, events, contents, file⟩ :=
        stored.complete injective' other entry member' earlier occupied
      refine ⟨call, more _ _ made, events, contents, ?_⟩
      rw [writer, ← file]
      rcases outcome with ⟨disk, -⟩ | ⟨-, -, disk⟩
      · rw [disk]
      · have differ : traceFilePath o entry ≠ traceFilePath o record := by
          rw [← path]
          exact stored.path_ne injective' member' enqueued (id ▸ same)
        rw [disk, Function.update_of_ne differ]

theorem step_stored (stored : Stored host snappy o calls s) (persists : PersistsAll s label)
    (fresh : NamesFresh s label) (taken : s.step host snappy o label = some s')
    (more : ∀ id call, calls id call → calls' id call)
    (last : ∀ id, s'.queue.log = s.queue.log ++ [.wrote id true] → calls' id label.call) :
    Stored host snappy o calls' s' := by
  rcases storage_step taken with
    ⟨now, ok, record, written, acts, position, -⟩ | ⟨steps, writer, disk, unwritten⟩
  · exact stored.write position acts persists taken more last
  · exact (stored.other fresh steps writer disk unwritten).mono more

end

section

variable {σ α : Type*} {step : σ → α → Option σ} {start : σ} {storage : σ → Storage ω κ}
  {callOf : α → Option WriteCall}

/-- A step of the run is the call of `Write` after which the record is reported as
    written, with what the call met: the clocks show the times of that step. -/
def WrittenUnder (step : σ → α → Option σ) (start : σ) (storage : σ → Storage ω κ)
    (callOf : α → Option WriteCall) (labels : List α) (id : Nat) (call : WriteCall) : Prop :=
  ∃ before label after s s', labels = before ++ label :: after ∧
    exec step start before = some s ∧ step s label = some s' ∧ callOf label = some call ∧
    (storage s').queue.log = (storage s).queue.log ++ [.wrote id true]

theorem WrittenUnder.concat {labels : List α} {id : Nat} {call : WriteCall}
    (written : WrittenUnder step start storage callOf labels id call) (label : α) :
    WrittenUnder step start storage callOf (labels ++ [label]) id call := by
  obtain ⟨before, writes, after, s, s', split, rest⟩ := written
  exact ⟨before, writes, after ++ [label], s, s', by simp [split], rest⟩

theorem writtenUnder_last {labels : List α} {label : α} {s s' : σ} {id : Nat} {call : WriteCall}
    (reached : exec step start labels = some s) (taken : step s label = some s')
    (made : callOf label = some call)
    (log : (storage s').queue.log = (storage s).queue.log ++ [.wrote id true]) :
    WrittenUnder step start storage callOf (labels ++ [label]) id call :=
  ⟨labels, label, [], s, s', rfl, reached, taken, made, log⟩

end

/-- The call of `Write` in a run of the queue with its writer and the disk. -/
def Storage.WrittenUnder (host : Order) (snappy : Snappy) (o : Options) (writer : TraceFileWriter)
    (labels : List (StorageStep ω κ)) (id : Nat) (call : WriteCall) : Prop :=
  Trace.WrittenUnder (Storage.step host snappy o) (Storage.initial writer) (fun s => s)
    (fun label => some label.call) labels id call

/-- The file at the path of the record is read as the record's events, under a header
    with the ids of the session, the process and the thread and with the times at which
    one of these calls of `Write` was made for it. -/
def ReadsBack (host : Order) (snappy : Snappy) (o : Options) (calls : Nat → WriteCall → Prop)
    (s : Storage ω κ) (record : FlushInfo (TraceBuffer ω)) : Prop :=
  ∃ (call : WriteCall) (used : CompressionStrategy), calls record.id call ∧
    read host snappy (s.disk (traceFilePath o record)) = some (.ok
      ⟨{ recordHeader host o record call with compressionStrategy := used.byte },
        contentsOf record.buffer.buffer⟩)

theorem run_stored {host : Order} {snappy : Snappy} {o : Options} {writer : TraceFileWriter}
    {labels : List (StorageStep ω κ)} {s : Storage ω κ}
    (persists : Meets (Storage.step host snappy o) PersistsAll (Storage.initial writer) labels)
    (fresh : Meets (Storage.step host snappy o) NamesFresh (Storage.initial writer) labels)
    (reached : exec (Storage.step host snappy o) (Storage.initial writer) labels = some s) :
    Stored host snappy o (Storage.WrittenUnder host snappy o writer labels) s := by
  refine (history_invariant (fun s label => PersistsAll s label ∧ NamesFresh s label)
    (fun labels s => exec (Storage.step host snappy o) (Storage.initial writer) labels = some s ∧
      Stored host snappy o (Storage.WrittenUnder host snappy o writer labels) s)
    ⟨rfl, .initial host snappy o _ writer⟩ ?_ (persists.and fresh) reached).2
  rintro labels s label s' ⟨reached, stored⟩ ⟨persists, fresh⟩ taken
  refine ⟨exec_concat.mpr ⟨s, reached, taken⟩, step_stored stored persists fresh taken ?_ ?_⟩
  · exact fun id call written => written.concat label
  · exact fun id log => writtenUnder_last reached taken rfl log

theorem Stored.readsBack {host : Order} {snappy : Snappy} {o : Options}
    {calls : Nat → WriteCall → Prop} {s : Storage ω κ} (stored : Stored host snappy o calls s)
    (lossless : ∀ data, snappy.uncompress (snappy.compress data) = some data)
    (injective : Set.InjOn o.threadIdHash (enqueuers s.queue.log)) {thread : Nat}
    {record : FlushInfo (TraceBuffer ω)} (enqueued : .enqueued thread record ∈ s.queue.log)
    (written : .wrote record.id true ∈ s.queue.log)
    (occupied : record.buffer.buffer.empty = false)
    (countable : record.buffer.buffer.size < 2 ^ 31) :
    ReadsBack host snappy o calls s record := by
  obtain ⟨call, made, window, holds, file⟩ :=
    stored.complete injective thread record enqueued written occupied
  obtain ⟨used, reads⟩ := read_wholeFile s.writer.compressionStrategy
    (recordHeader host o record call) window lossless rfl rfl rfl (holds.length ▸ countable)
    (by rw [holds.length]; rfl)
  exact ⟨call, used, made, by rw [file, reads, contentsOf_eq holds]⟩

/-- In every run in which no stream loses bytes and no two records of a thread have the
    same timestamp, the records reported as written can all be read back, with the times
    of their writes, and there are no other files. -/
theorem written_records_read_back (host : Order) (snappy : Snappy) (o : Options)
    (writer : TraceFileWriter) (labels : List (StorageStep ω κ)) (s : Storage ω κ)
    (lossless : ∀ data, snappy.uncompress (snappy.compress data) = some data)
    (persists : Meets (Storage.step host snappy o) PersistsAll (Storage.initial writer) labels)
    (fresh : Meets (Storage.step host snappy o) NamesFresh (Storage.initial writer) labels)
    (reached : exec (Storage.step host snappy o) (Storage.initial writer) labels = some s)
    (injective : Set.InjOn o.threadIdHash (enqueuers s.queue.log)) :
    (∀ thread record, .enqueued thread record ∈ s.queue.log →
      .wrote record.id true ∈ s.queue.log → record.buffer.buffer.empty = false →
      record.buffer.buffer.size < 2 ^ 31 →
        ReadsBack host snappy o (Storage.WrittenUnder host snappy o writer labels) s record) ∧
    ∀ path file, s.disk path = some file → ∃ thread record,
      .enqueued thread record ∈ s.queue.log ∧ .wrote record.id true ∈ s.queue.log ∧
        path = traceFilePath o record := by
  have stored := run_stored persists fresh reached
  constructor
  · intro thread record enqueued written occupied countable
    exact stored.readsBack lossless injective enqueued written occupied countable
  · intro path file present
    obtain ⟨thread, record, enqueued, written, -, same⟩ := stored.named path file present
    exact ⟨thread, record, enqueued, written, same⟩

/-- No record was appended yet, or the worker moves. -/
def unaccepted (s : Storage Unit Unit) (label : StorageStep Unit Unit) : Bool :=
  (s.queue.log.all fun | .enqueued _ _ => false | _ => true) ||
    match label.action with
    | .worker _ _ => true
    | _ => false

theorem namesFresh_of_unaccepted {s : Storage Unit Unit} {label : StorageStep Unit Unit}
    (first : unaccepted s label = true) : NamesFresh s label := by
  intro thread now buffer time acts _ record logged
  simp only [unaccepted, acts, Bool.or_false, List.all_eq_true] at first
  cases first _ logged

theorem namesFresh_writeOne :
    Meets (Storage.step .little literalSnappy logEverything) NamesFresh
      (Storage.initial ⟨.none, [], false⟩) (writeOne ⟨0, 0⟩) := by
  have first : Meets (Storage.step .little literalSnappy logEverything)
      (fun s label => unaccepted s label = true) (Storage.initial ⟨.none, [], false⟩)
      (writeOne ⟨0, 0⟩) := by decide +kernel
  intro before label after t split reached
  exact namesFresh_of_unaccepted (first before label after t split reached)

theorem written_records_read_back_writeOne :
    ∃ s : Storage Unit Unit, exec (Storage.step .little literalSnappy logEverything)
        (Storage.initial ⟨.none, [], false⟩) (writeOne ⟨0, 0⟩) = some s ∧
      ReadsBack .little literalSnappy logEverything
        (Storage.WrittenUnder .little literalSnappy logEverything ⟨.none, [], false⟩
          (writeOne ⟨0, 0⟩)) s ⟨traceBufferOfOne, 1, 0, 0, 1⟩ := by
  obtain ⟨s, reached, log⟩ : ∃ s : Storage Unit Unit,
      exec (Storage.step .little literalSnappy logEverything)
        (Storage.initial ⟨.none, [], false⟩) (writeOne ⟨0, 0⟩) = some s ∧
      s.queue.log = [.offered 0, .enqueued 0 ⟨traceBufferOfOne, 1, 0, 0, 1⟩, .tested 0 1,
        .wrote 0 true] := ⟨_, rfl, rfl⟩
  have injective : Set.InjOn logEverything.threadIdHash (enqueuers s.queue.log) := by
    rintro thread ⟨record, logged⟩ thread' ⟨record', logged'⟩ -
    simp [log] at logged logged'
    omega
  refine ⟨s, reached, ?_⟩
  have readable := (written_records_read_back .little literalSnappy logEverything
    ⟨.none, [], false⟩ (writeOne ⟨0, 0⟩) s (fun data => rfl) persistsAll_writeOne
    namesFresh_writeOne reached injective).1
  exact readable 0 _ (by simp [log]) (by simp [log]) rfl (by decide)

end Spoor.Trace
