import Spoor.Runtime.TraceDeletion
import Spoor.Tools.SpoorTool
import Spoor.Trace.LocalFileReader
import Spoor.Trace.Persistence

/-! # Deleting trace files while the queue writes them

Each call of `DeleteFlushedTraceFilesOlderThan` goes through the directory in a thread of
its own, beside the flush queue and other such calls.  For a file it reads the header
and, a while later, removes the file.  So the file must not have become another one in
between: a record that was written is not written again, and no other record has its
name.
-/

namespace Spoor.FlushQueue.DiskFlushQueue

variable {β κ : Type}

/-- A record that was written is in no hands but those of the worker that has just
    written it. -/
def Spent (s : State β κ) : Prop :=
  ∀ record ∈ s.records, .wrote record.id true ∈ s.log →
    ∃ written, s.worker = .settle written true ∧ written.id = record.id

theorem Spent.initial : Spent (initial : State β κ) := by
  intro record listed wrote
  cases wrote

/-- The records in the system were there before, or one was accepted. -/
theorem records_before {o : Options} {s s' : State β κ} {a : Action β κ}
    (taken : step o s a = some s') {record : FlushInfo β} (listed : record ∈ s'.records) :
    record ∈ s.records ∨ record.id = s.guarded.nextFlushInfoId := by
  cases step_records taken with
  | same events same next log passing => exact .inl (same.mem_iff.mp listed)
  | enter thread entered appends same id next log =>
      rcases List.mem_cons.mp (same.mem_iff.mp listed) with rfl | before
      · exact .inr id
      · exact .inl before
  | leave left event same next kind log =>
      exact .inl (same.mem_iff.mpr (List.mem_cons_of_mem _ listed))
  | clear same next log => exact .inl (same ▸ List.mem_append_right _ listed)

/-- What settles a written record lets it go. -/
theorem settled_leaves {o : Options} {s s' : State β κ} {now : Int} {ok : Bool}
    {written : FlushInfo β} (position : s.worker = .settle written true)
    (moves : workerStep o s now ok = some s') :
    s.records = s'.records ++ [written.stamp] := by
  simp only [workerStep, position, Bool.not_true, Bool.false_and, Bool.false_eq_true, if_false,
    Option.some.injEq] at moves
  subst moves
  simp [State.records, position, Worker.held, State.emit, Guarded.leave]

theorem step_spent {o : Options} {s s' : State β κ} {a : Action β κ} (spent : Spent s)
    (tracked : Tracked s) (wrote : ∀ id ok, .wrote id ok ∈ s.log →
      ∃ thread record, .enqueued thread record ∈ s.log ∧ record.id = id)
    (taken : step o s a = some s') : Spent s' := by
  intro record listed logged
  rcases step_wrote taken logged with before | ⟨now, held, rfl, position, same⟩
  · have old : record ∈ s.records := by
      refine (records_before taken listed).resolve_right fun next => ?_
      obtain ⟨thread, older, enqueued, id⟩ := wrote _ _ before
      exact absurd (id.trans next) (Nat.ne_of_lt (tracked.below thread older enqueued))
    obtain ⟨written, position, same⟩ := spent record old before
    rcases step_worker taken with
      worker | ⟨absent, -⟩ | ⟨finished, -⟩ | ⟨now, ok, rfl, moves⟩
    · exact ⟨written, worker.trans position, same⟩
    · rw [position] at absent
      cases absent
    · rw [position] at finished
      cases finished
    · have distinct := tracked.distinct
      rw [settled_leaves position moves, List.map_append, List.nodup_append] at distinct
      exact absurd same.symm (distinct.2.2 _ (List.mem_map_of_mem listed) _ (by simp))
  · simp only [step, workerStep, position, Option.some.injEq] at taken
    subst taken
    exact ⟨_, rfl, same⟩

end Spoor.FlushQueue.DiskFlushQueue

namespace Spoor.Runtime

open Buffer FlushQueue.DiskFlushQueue Lib.ByteOrder Lib.MachineInteger Lib.Transition Trace
open EventLogging (contentsOf)

/-! ## The queue and the calls that delete -/

/-- A file that was removed.  No step reads it. -/
structure Removal where
  call : Nat
  path : String
  content : List Byte

/-- The queue with its files, and the calls that delete files: each of them may be about
    to remove a file, and counts those it has removed. -/
structure Shared (ω κ : Type) where
  storage : Storage ω κ
  chosen : Nat → Option String
  info : Nat → DeletedFilesInfo
  removals : List Removal

/-- A call looks at a path of the directory, which may be a regular file, or removes the
    file that it has chosen.  It may not get the size of a file, or not remove it. -/
inductive SharedStep (ω κ : Type) where
  | store (label : StorageStep ω κ)
  | visit (call : Nat) (path : String) (isRegularFile : Bool)
  | remove (call : Nat) (sized removed : Bool)

variable {ω κ : Type}

/-- The time point of a call, in nanoseconds. -/
def systemTimestamp (systemTimestampSeconds : Int) : Int := systemTimestampSeconds * 1000000000

/-- `TraceFileReader::MatchesTraceFileConvention`. -/
def matchesTraceFileConvention (isRegularFile : Bool) (path : String) : Bool :=
  isRegularFile && Tools.extension path.toList = '.' :: Tools.kTraceFileExtension

section Step

variable (host : Order) (snappy : Snappy) (o : Options) (pastEnd : Option Byte)
  (seconds : Nat → Int)

/-- The header is older than the time point of the call, or the file is left alone.  There
    is no answer where the reader of the header has none. -/
def Shared.visit (s : Shared ω κ) (call : Nat) (path : String) (isRegularFile : Bool) :
    Option (Shared ω κ) :=
  if !matchesTraceFileConvention isRegularFile path then some s
  else
    (readLocalHeader host pastEnd (s.storage.disk path)).map fun
      | .error _ => s
      | .ok header =>
          if systemTimestamp (seconds call) ≤ headerSystemClockTimestamp header then s
          else { s with chosen := Function.update s.chosen call (some path) }

/-- The chosen file is removed and counted, unless that fails.  It fails if another call
    has removed the file. -/
def Shared.remove (s : Shared ω κ) (call : Nat) (path : String) (sized removed : Bool) :
    Option (Shared ω κ) :=
  let done := { s with chosen := Function.update s.chosen call none }
  match removed, s.storage.disk path with
  | false, _ => some done
  | true, none => none
  | true, some content => some { done with
      storage := { s.storage with disk := Function.update s.storage.disk path none }
      info := Function.update s.info call
        ⟨incInt32 (s.info call).deletedFiles,
          addInt64 (s.info call).deletedBytes (if sized then content.length else 0)⟩
      removals := s.removals ++ [⟨call, path, content⟩] }

def Shared.step (s : Shared ω κ) : SharedStep ω κ → Option (Shared ω κ)
  | .store label =>
      (s.storage.step host snappy o label).map fun storage => { s with storage := storage }
  | .visit call path isRegularFile =>
      match s.chosen call with
      | none => s.visit host pastEnd seconds call path isRegularFile
      | some _ => none
  | .remove call sized removed =>
      (s.chosen call).bind fun path => s.remove call path sized removed

end Step

def Shared.initial (writer : TraceFileWriter) : Shared ω κ where
  storage := .initial writer
  chosen := fun _ => none
  info := fun _ => ⟨0, 0⟩
  removals := []

/-- What a call of `Write` in the step meets. -/
def SharedStep.call? : SharedStep ω κ → Option WriteCall
  | .store label => some label.call
  | _ => none

/-- The call of `Write` in a run beside the calls that delete. -/
def Shared.WrittenUnder (host : Order) (snappy : Snappy) (o : Options) (pastEnd : Option Byte)
    (seconds : Nat → Int) (writer : TraceFileWriter) (labels : List (SharedStep ω κ)) (id : Nat)
    (call : WriteCall) : Prop :=
  Trace.WrittenUnder (Shared.step host snappy o pastEnd seconds) (Shared.initial writer)
    Shared.storage SharedStep.call? labels id call

/-- What a step of the queue is asked for. -/
def SharedStep.Stores (condition : Storage ω κ → StorageStep ω κ → Prop) (s : Shared ω κ)
    (label : SharedStep ω κ) : Prop :=
  ∀ stored, label = .store stored → condition s.storage stored

/-! ## The files as they would be without the calls -/

section Beside

variable {host : Order} {snappy : Snappy} {o : Options} {pastEnd : Option Byte}
  {seconds : Nat → Int} {calls calls' : Nat → WriteCall → Prop} {s s' : Shared ω κ}
  {whole : String → Option (List Byte)}

/-- The header of the file is before the time point of the call. -/
def Old (host : Order) (pastEnd : Option Byte) (seconds : Nat → Int) (call : Nat)
    (content : List Byte) : Prop :=
  ∃ header, readLocalHeader host pastEnd (some content) = some (.ok header) ∧
    headerSystemClockTimestamp header < systemTimestamp (seconds call)

/-- A file is missing only if a call has removed it, and the calls remove and choose
    files that are old. -/
structure Follows (host : Order) (pastEnd : Option Byte) (seconds : Nat → Int) (s : Shared ω κ)
    (whole : String → Option (List Byte)) : Prop where
  files : ∀ path, s.storage.disk path = whole path ∨ s.storage.disk path = none ∧
    ∃ removal ∈ s.removals, removal.path = path ∧ whole path = some removal.content
  chosen : ∀ call path, s.chosen call = some path →
    ∃ content, whole path = some content ∧ Old host pastEnd seconds call content
  removals : ∀ removal ∈ s.removals, Old host pastEnd seconds removal.call removal.content

/-- The queue works as on a disk on which no file is removed. -/
structure Beside (host : Order) (snappy : Snappy) (o : Options) (pastEnd : Option Byte)
    (seconds : Nat → Int) (calls : Nat → WriteCall → Prop) (s : Shared ω κ)
    (whole : String → Option (List Byte)) : Prop where
  stored : Stored host snappy o calls { s.storage with disk := whole }
  spent : Spent s.storage.queue
  follows : Set.InjOn o.threadIdHash (enqueuers s.storage.queue.log) →
    Follows host pastEnd seconds s whole

theorem step_unwritten {t : Storage ω κ} {label : StorageStep ω κ}
    (other : ∀ now ok record, label.action = .worker now ok → t.queue.worker ≠ .write record) :
    t.step host snappy o label = (FlushQueue.DiskFlushQueue.step o t.queue label.action).map
      fun queue => { t with queue := queue } := by
  rw [Storage.step]
  split
  · rename_i now ok record acts position
    exact absurd position (other now ok record acts)
  · rfl

/-- A step of the queue does not read the disk.  It writes at most the file of the record
    in the worker's hands. -/
theorem step_on {t t' : Storage ω κ} {label : StorageStep ω κ}
    (taken : t.step host snappy o label = some t') (whole : String → Option (List Byte)) :
    (t'.disk = t.disk ∧ { t with disk := whole }.step host snappy o label =
        some { t' with disk := whole }) ∨
      ∃ record file, t.queue.worker = .write record ∧
        t'.disk = Function.update t.disk (traceFilePath o record) (some file) ∧
        { t with disk := whole }.step host snappy o label =
          some { t' with disk := Function.update whole (traceFilePath o record) (some file) } := by
  by_cases writes : ∃ now ok record, label.action = .worker now ok ∧ t.queue.worker = .write record
  · obtain ⟨now, ok, record, acts, position⟩ := writes
    simp only [Storage.step, acts, position, Option.bind_eq_bind, Option.bind_eq_some_iff,
      Option.some.injEq] at taken ⊢
    obtain ⟨written, writes, queue, steps, rfl⟩ := taken
    cases made : written.file with
    | none => exact .inl ⟨by simp, written, writes, queue, steps, by simp [made]⟩
    | some file =>
        exact .inr ⟨record, file, rfl, by simp, written, writes, queue, steps, by simp [made]⟩
  · have other : ∀ now ok record, label.action = .worker now ok → t.queue.worker ≠ .write record :=
      fun now ok record acts position => writes ⟨now, ok, record, acts, position⟩
    rw [step_unwritten other] at taken
    obtain ⟨queue, steps, rfl⟩ := Option.map_eq_some_iff.mp taken
    rw [step_unwritten (t := { t with disk := whole }) other]
    exact .inl ⟨rfl, Option.map_eq_some_iff.mpr ⟨queue, steps, rfl⟩⟩

/-- There is no file yet under the name of a record that is about to be written. -/
theorem Beside.unwritten (beside : Beside host snappy o pastEnd seconds calls s whole)
    (injective : Set.InjOn o.threadIdHash (enqueuers s.storage.queue.log))
    {record : FlushInfo (TraceBuffer ω)} (position : s.storage.queue.worker = .write record) :
    whole (traceFilePath o record) = none := by
  by_contra present
  obtain ⟨file, present⟩ := Option.ne_none_iff_exists'.mp present
  obtain ⟨thread, other, enqueued, wrote, -, path⟩ := beside.stored.named _ file present
  have held : record.stamp ∈ s.storage.queue.records := by
    simp [State.records, position, Worker.held]
  obtain ⟨thread', origin, accepted, stamp⟩ := beside.stored.tracked.origin _ held
  have same : other.id = record.id := by
    by_contra different
    refine beside.stored.path_ne injective enqueued accepted ?_
      (path.symm.trans (traceFilePath_stamp o stamp).symm)
    rwa [← stamp_id origin, stamp, stamp_id]
  obtain ⟨written, settles, -⟩ := beside.spent _ held (same ▸ wrote)
  rw [position] at settles
  cases settles

theorem enqueuers_mono {t t' : Storage ω κ} {label : StorageStep ω κ}
    (taken : t.step host snappy o label = some t') :
    enqueuers t.queue.log ⊆ enqueuers t'.queue.log := by
  obtain ⟨action, steps⟩ : ∃ action, step o t.queue action = some t'.queue := by
    rcases storage_step taken with ⟨_, _, _, _, -, -, -, steps, -⟩ | ⟨steps, -⟩
    · exact ⟨_, steps⟩
    · exact ⟨_, steps⟩
  obtain ⟨events, log⟩ := step_log steps
  rintro thread ⟨record, logged⟩
  exact ⟨record, log ▸ List.mem_append_left events logged⟩

theorem Beside.mono (beside : Beside host snappy o pastEnd seconds calls s whole)
    (more : ∀ id call, calls id call → calls' id call) :
    Beside host snappy o pastEnd seconds calls' s whole :=
  ⟨beside.stored.mono more, beside.spent, beside.follows⟩

theorem Beside.store (beside : Beside host snappy o pastEnd seconds calls s whole)
    {label : StorageStep ω κ} {storage : Storage ω κ} (persists : PersistsAll s.storage label)
    (fresh : NamesFresh s.storage label) (taken : s.storage.step host snappy o label = some storage)
    (more : ∀ id call, calls id call → calls' id call)
    (last : ∀ id, storage.queue.log = s.storage.queue.log ++ [.wrote id true] →
      calls' id label.call) :
    ∃ whole', Beside host snappy o pastEnd seconds calls' { s with storage := storage } whole' := by
  have spent : Spent storage.queue := by
    rcases storage_step taken with ⟨_, _, _, _, -, -, -, steps, -⟩ | ⟨steps, -⟩
    · exact step_spent beside.spent beside.stored.tracked beside.stored.wrote steps
    · exact step_spent beside.spent beside.stored.tracked beside.stored.wrote steps
  have earlier := fun injective : Set.InjOn o.threadIdHash (enqueuers storage.queue.log) =>
    injective.mono (enqueuers_mono taken)
  rcases step_on taken whole with ⟨disk, steps⟩ | ⟨record, file, position, disk, steps⟩
  · refine ⟨whole, step_stored beside.stored persists fresh steps more last, spent,
      fun injective => ?_⟩
    have follows := beside.follows (earlier injective)
    exact ⟨by simpa only [disk] using follows.files, follows.chosen, follows.removals⟩
  · refine ⟨_, step_stored beside.stored persists fresh steps more last, spent,
      fun injective => ?_⟩
    have follows := beside.follows (earlier injective)
    have new := beside.unwritten (earlier injective) position
    refine ⟨fun path => ?_, fun call path chosen => ?_, follows.removals⟩
    · by_cases same : path = traceFilePath o record
      · subst same
        exact .inl (by rw [disk, Function.update_self, Function.update_self])
      · rw [disk, Function.update_of_ne same, Function.update_of_ne same]
        exact follows.files path
    · obtain ⟨content, present, old⟩ := follows.chosen call path chosen
      refine ⟨content, ?_, old⟩
      rw [Function.update_of_ne ?_, present]
      rintro rfl
      rw [new] at present
      cases present

/-- What is read from a file that is there is what the whole disk has. -/
theorem Follows.present (follows : Follows host pastEnd seconds s whole) {path : String}
    {content : List Byte} (found : s.storage.disk path = some content) :
    whole path = some content := by
  rcases follows.files path with same | ⟨missing, -⟩
  · rw [← same, found]
  · rw [missing] at found
    cases found

theorem Beside.visit (beside : Beside host snappy o pastEnd seconds calls s whole) {call : Nat}
    {path : String} {isRegularFile : Bool}
    (taken : s.visit host pastEnd seconds call path isRegularFile = some s') :
    Beside host snappy o pastEnd seconds calls s' whole := by
  rw [Shared.visit] at taken
  split at taken
  · exact Option.some.inj taken ▸ beside
  · obtain ⟨answer, reads, rfl⟩ := Option.map_eq_some_iff.mp taken
    cases answer with
    | error error => exact beside
    | ok header =>
        by_cases young : systemTimestamp (seconds call) ≤ headerSystemClockTimestamp header
        · simpa only [if_pos young] using beside
        · simp only [if_neg young]
          refine ⟨beside.stored, beside.spent, fun injective => ?_⟩
          have follows := beside.follows injective
          refine ⟨follows.files, fun other path' chosen => ?_, follows.removals⟩
          by_cases same : other = call
          · subst same
            obtain rfl : path = path' := by simpa using chosen
            cases found : s.storage.disk path with
            | none =>
                rw [found] at reads
                simp [readLocalHeader, readHeader] at reads
            | some content =>
                rw [found] at reads
                exact ⟨content, follows.present found, header, reads, Int.not_le.mp young⟩
          · have kept : s.chosen other = some path' := by
              simpa [Function.update_of_ne same] using chosen
            exact follows.chosen other path' kept

theorem Beside.remove (beside : Beside host snappy o pastEnd seconds calls s whole) {call : Nat}
    {path : String} {sized removed : Bool} (chosen : s.chosen call = some path)
    (taken : s.remove call path sized removed = some s') :
    Beside host snappy o pastEnd seconds calls s' whole := by
  have fewer : ∀ {other path'}, Function.update s.chosen call none other = some path' →
      s.chosen other = some path' := by
    intro other path' found
    by_cases same : other = call
    · subst same
      simp at found
    · rwa [Function.update_of_ne same] at found
  simp only [Shared.remove] at taken
  split at taken
  · obtain rfl := Option.some.inj taken
    refine ⟨beside.stored, beside.spent, fun injective => ?_⟩
    have follows := beside.follows injective
    exact ⟨follows.files, fun other path' found => follows.chosen other path' (fewer found),
      follows.removals⟩
  · cases taken
  · rename_i content found
    obtain rfl := Option.some.inj taken
    refine ⟨beside.stored, beside.spent, fun injective => ?_⟩
    have follows := beside.follows injective
    obtain ⟨content', present, old⟩ := follows.chosen call path chosen
    obtain rfl : content = content' :=
      Option.some.inj ((follows.present found).symm.trans present)
    refine ⟨fun path' => ?_, fun other path' found => follows.chosen other path' (fewer found), ?_⟩
    · by_cases same : path' = path
      · subst same
        exact .inr ⟨Function.update_self .., _, List.mem_append_right _ (List.mem_singleton_self _),
          rfl, present⟩
      · have kept : Function.update s.storage.disk path none path' = s.storage.disk path' :=
          Function.update_of_ne same ..
        rcases follows.files path' with equal | ⟨missing, removal, listed, rest⟩
        · exact .inl (kept.trans equal)
        · exact .inr ⟨kept.trans missing, removal, List.mem_append_left _ listed, rest⟩
    · intro removal listed
      rcases List.mem_append.mp listed with before | last
      · exact follows.removals removal before
      · exact List.mem_singleton.mp last ▸ old

theorem Beside.initial (writer : TraceFileWriter) :
    Beside host snappy o pastEnd seconds calls (Shared.initial writer : Shared ω κ)
      fun _ => none where
  stored := .initial host snappy o calls writer
  spent := .initial
  follows := fun _ => ⟨fun _ => .inl rfl, by simp [Shared.initial], by simp [Shared.initial]⟩

end Beside

/-! ## What the calls leave -/

end Spoor.Runtime
