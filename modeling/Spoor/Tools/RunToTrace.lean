import Spoor.Lib.Path
import Spoor.Tools.SearchOrder
import Spoor.Trace.Persistence

/-! # From a run to its trace

The files that the flush queue leaves in a directory are what the tool finds there.  If
no bytes got lost and no two records have the same name, the trace is made of exactly
the records that were reported as written, each once, in the order of the times at which
they were written.
-/

namespace Spoor.FlushQueue.DiskFlushQueue

open Lib.MachineInteger Lib.Transition

variable {β κ : Type}

def Event.accepted? : Event β κ → Option (FlushInfo β)
  | .enqueued _ record => some record
  | _ => none

/-- The records that were accepted, in order. -/
def State.accepted (s : State β κ) : List (FlushInfo β) := s.log.filterMap Event.accepted?

theorem mem_accepted {s : State β κ} {record : FlushInfo β} :
    record ∈ s.accepted ↔ ∃ thread, .enqueued thread record ∈ s.log := by
  rw [State.accepted, List.mem_filterMap]
  constructor
  · rintro ⟨event, logged, same⟩
    cases event <;> cases same
    exact ⟨_, logged⟩
  · rintro ⟨thread, logged⟩
    exact ⟨_, logged, rfl⟩

theorem Event.Passing.accepted? {e : Event β κ} (passing : e.Passing) : e.accepted? = none := by
  cases e <;> simp_all [Event.Passing, Event.accepted?]

/-- The ids of the accepted records count them. -/
theorem step_accepted {o : Options} {s s' : State β κ} {a : Action β κ}
    (counted : s.accepted.map FlushInfo.id = List.range s.guarded.nextFlushInfoId)
    (taken : step o s a = some s') :
    s'.accepted.map FlushInfo.id = List.range s'.guarded.nextFlushInfoId := by
  have kept : ∀ events : List (Event β κ), s'.log = s.log ++ events →
      (∀ e ∈ events, e.accepted? = none) →
      s'.guarded.nextFlushInfoId = s.guarded.nextFlushInfoId →
      s'.accepted.map FlushInfo.id = List.range s'.guarded.nextFlushInfoId := by
    intro events log none next
    rw [State.accepted, log, List.filterMap_append, List.filterMap_eq_nil_iff.mpr none,
      List.append_nil, next]
    exact counted
  cases step_records taken with
  | same events _ next log passing =>
      exact kept events log (fun e member => (passing e member).accepted?) next
  | leave record event _ next kind log =>
      refine kept [event] log ?_ next
      intro e member
      obtain rfl := List.mem_singleton.mp member
      rcases kind with rfl | rfl <;> rfl
  | clear _ next log =>
      refine kept _ log ?_ next
      intro e member
      obtain rfl := List.mem_singleton.mp member
      rfl
  | enter thread record _ _ id next log =>
      rw [State.accepted, log, List.filterMap_append, List.map_append, next, List.range_succ, ← id]
      exact congrArg₂ _ (id ▸ counted) rfl

theorem run_accepted {host : Lib.ByteOrder.Order} {snappy : Trace.Snappy} {ω : Type} {o : Options}
    {writer : Trace.TraceFileWriter} {labels : List (Trace.StorageStep ω κ)}
    {s : Trace.Storage ω κ}
    (reached : exec (Trace.Storage.step host snappy o) (Trace.Storage.initial writer) labels =
      some s) :
    s.queue.accepted.map FlushInfo.id = List.range s.queue.guarded.nextFlushInfoId := by
  refine invariant_always (fun s : Trace.Storage ω κ =>
    s.queue.accepted.map FlushInfo.id = List.range s.queue.guarded.nextFlushInfoId) rfl ?_ reached
  intro s label s' counted taken
  rcases Trace.storage_step taken with ⟨_, _, _, _, -, -, -, steps, -⟩ | ⟨steps, -⟩
  · exact step_accepted counted steps
  · exact step_accepted counted steps

/-! ## The names of the files -/

theorem mem_hexDigits {width v : Nat} {c : Char} (member : c ∈ hexDigits width v) :
    c ≠ '/' ∧ c ≠ '.' := by
  have digits : ∀ digit < 16, Nat.digitChar digit ≠ '/' ∧ Nat.digitChar digit ≠ '.' := by decide
  induction width generalizing v with
  | zero => cases member
  | succ width ih =>
      rw [hexDigits, List.mem_append, List.mem_singleton] at member
      rcases member with before | rfl
      · exact ih before
      · exact digits _ (Nat.mod_lt _ (by decide))

/-- The name of a trace file is a stem without a dot, and the extension. -/
theorem traceFilePath_split (o : Options) (record : FlushInfo β) :
    ∃ stem, stem ≠ [] ∧ '/' ∉ stem ∧
      (traceFilePath o record).toList = stem ++ '.' :: traceFileExtension.toList := by
  refine ⟨(paddedHex o.sessionId).toList ++ ['-'] ++ (paddedHex record.threadId).toList ++ ['-'] ++
    (paddedHex record.timestampWord).toList, by simp, ?_, ?_⟩
  · simp only [paddedHex, String.toList_ofList, List.mem_append, List.mem_singleton, not_or]
    exact ⟨⟨⟨⟨fun member => (mem_hexDigits member).1 rfl, by decide⟩,
      fun member => (mem_hexDigits member).1 rfl⟩, by decide⟩,
      fun member => (mem_hexDigits member).1 rfl⟩
  · simp [traceFilePath, String.toList_append]

end Spoor.FlushQueue.DiskFlushQueue

namespace Spoor.Tools

open Buffer FlushQueue.DiskFlushQueue Lib.ByteOrder Lib.Path Lib.Transition Symbols Trace
open EventLogging (contentsOf)

section Names

theorem filename_append {front name : Symbols.Text}
    (ends : front = [] ∨ front.getLast? = some separator) (single : '/' ∉ name) :
    filename (front ++ name) = name := by
  have all : ∀ c ∈ name.reverse, decide (c ≠ '/') = true := by
    intro c member
    exact decide_eq_true fun slash => single (slash ▸ List.mem_reverse.mp member)
  have stop : front.reverse.takeWhile (· ≠ '/') = [] := by
    rcases ends with rfl | last
    · rfl
    · rw [← List.head?_reverse] at last
      cases reversed : front.reverse with
      | nil => rfl
      | cons c rest =>
          rw [reversed, List.head?_cons, Option.some.injEq] at last
          subst last
          rfl
  rw [filename, List.reverse_append, List.takeWhile_append_of_pos all, stop, List.append_nil,
    List.reverse_reverse]

theorem extension_append {path stem rest : Symbols.Text}
    (name : filename path = stem ++ '.' :: rest)
    (some : stem ≠ []) (more : rest ≠ []) (last : '.' ∉ rest) : extension path = '.' :: rest := by
  have all : ∀ c ∈ rest.reverse, decide (c ≠ '.') = true := by
    intro c member
    exact decide_eq_true fun dot => last (dot ▸ List.mem_reverse.mp member)
  have reversed : (filename path).reverse = rest.reverse ++ '.' :: stem.reverse := by
    rw [name, List.reverse_append, List.reverse_cons, List.append_assoc, List.singleton_append]
  obtain ⟨c, others, cons⟩ := List.exists_cons_of_ne_nil (List.reverse_ne_nil_iff.mpr some)
  have plain : ¬(filename path = ['.'] ∨ filename path = ['.', '.']) := by
    have := List.length_pos_iff.mpr some
    have := List.length_pos_iff.mpr more
    rintro (short | short) <;>
      have length := congrArg List.length (name.symm.trans short) <;>
      simp at length <;>
      omega
  rw [extension]
  simp only [if_neg plain, reversed, List.dropWhile_append_of_pos all,
    List.takeWhile_append_of_pos all, cons]
  simp

/-- What stands before the name of an entry of the directory. -/
def front (directory : Symbols.Text) : Symbols.Text :=
  if directory = [] ∨ directory.getLast? = some separator then directory
  else directory ++ [separator]

theorem front_ends (directory : Symbols.Text) :
    front directory = [] ∨ (front directory).getLast? = some separator := by
  rw [front]
  split
  · assumption
  · exact .inr (by simp)

theorem join_eq {directory name : Symbols.Text} (single : '/' ∉ name) :
    join directory name = front directory ++ name := by
  have relative : ¬ IsAbsolute name := fun absolute => single (List.mem_of_head? absolute)
  rw [join, if_neg relative, front]
  split <;> simp

variable {β : Type} {o : Options} {directory : Symbols.Text}

/-- Where a record's file is if its name is appended to the path of the directory. -/
def pathOf (o : Options) (directory : Symbols.Text) (record : FlushInfo β) : Symbols.Text :=
  join directory (traceFilePath o record).toList

theorem traceFilePath_single (record : FlushInfo β) : '/' ∉ (traceFilePath o record).toList := by
  obtain ⟨stem, -, single, name⟩ := traceFilePath_split o record
  rw [name, List.mem_append, List.mem_cons]
  rintro (inside | same | inside)
  · exact single inside
  · cases same
  · exact absurd inside (by decide)

theorem extension_pathOf (record : FlushInfo β) :
    extension (pathOf o directory record) = '.' :: kTraceFileExtension := by
  obtain ⟨stem, some, -, name⟩ := traceFilePath_split o record
  have last : filename (pathOf o directory record) = stem ++ '.' :: traceFileExtension.toList := by
    rw [pathOf, join_eq (traceFilePath_single record), ← name]
    exact filename_append (front_ends directory) (traceFilePath_single record)
  exact extension_append last some (by decide) (by decide)

theorem pathOf_inj {record record' : FlushInfo β}
    (same : pathOf o directory record = pathOf o directory record') :
    traceFilePath o record = traceFilePath o record' := by
  rw [pathOf, pathOf, join_eq (traceFilePath_single record),
    join_eq (traceFilePath_single record')] at same
  exact String.toList_injective (List.append_cancel_left same)

end Names

/-! ## The tool on the directory of a run -/

variable {ω κ : Type}

/-- The directory has the files of a run and nothing else. -/
structure Shows (disk : Disk) (directory : Symbols.Text) (files : String → Option (List Byte)) :
    Prop where
  isDirectory : disk.isDirectory directory = true
  entries : ∃ paths, disk.recursiveEntries directory = some paths ∧ ∀ path, path ∈ paths ↔
    ∃ name content, files name = some content ∧ path = join directory name.toList
  regular : ∀ name content, files name = some content →
    disk.isRegularFile (join directory name.toList) = true
  content : ∀ name content, files name = some content →
    disk.content (join directory name.toList) = some content

/-- The log says that the record was written, and there was something to write. -/
def isWritten (s : Storage ω κ) (record : FlushInfo (TraceBuffer ω)) : Bool :=
  !record.buffer.buffer.empty && s.queue.log.any fun
    | .wrote id true => id = record.id
    | _ => false

/-- The records that were reported as written, in the order in which they were accepted. -/
def writtenRecords (s : Storage ω κ) : List (FlushInfo (TraceBuffer ω)) :=
  s.queue.accepted.filter (isWritten s)

/-- The file has the events of the record, under its ids and the times of one of these
    calls of `Write` for it. -/
structure FileOf (host : Order) (o : FlushQueue.DiskFlushQueue.Options)
    (calls : Nat → WriteCall → Prop) (record : FlushInfo (TraceBuffer ω)) (file : TraceFile) :
    Prop where
  header : ∃ (call : WriteCall) (used : CompressionStrategy), calls record.id call ∧ file.header =
    { recordHeader host o record call with compressionStrategy := used.byte }
  events : file.events = contentsOf record.buffer.buffer

section Directory

variable {env : Environment} {disk : Disk} {directory : Symbols.Text}
  {o : FlushQueue.DiskFlushQueue.Options} {calls : Nat → WriteCall → Prop} {s : Storage ω κ}
  {record : FlushInfo (TraceBuffer ω)}

theorem mem_writtenRecords : record ∈ writtenRecords s ↔
    (∃ thread, .enqueued thread record ∈ s.queue.log) ∧ .wrote record.id true ∈ s.queue.log ∧
      record.buffer.buffer.empty = false := by
  rw [writtenRecords, List.mem_filter, mem_accepted, isWritten, Bool.and_eq_true, List.any_eq_true,
    Bool.not_eq_true', and_comm (a := record.buffer.buffer.empty = false)]
  refine and_congr_right fun _ => and_congr_left fun _ => ?_
  constructor
  · rintro ⟨event, logged, wrote⟩
    cases event with
    | wrote id ok =>
        cases ok with
        | false => cases wrote
        | true => exact of_decide_eq_true wrote ▸ logged
    | _ => cases wrote
  · intro logged
    exact ⟨_, logged, decide_eq_true rfl⟩

theorem writtenRecords_nodup
    (counted : s.queue.accepted.map FlushInfo.id = List.range s.queue.guarded.nextFlushInfoId) :
    (writtenRecords s).Nodup := by
  refine List.Nodup.filter _ (List.Nodup.of_map FlushInfo.id ?_)
  rw [counted]
  exact List.nodup_range

/-- The paths of the records are different. -/
theorem paths_nodup (stored : Stored env.host env.snappy o calls s)
    (counted : s.queue.accepted.map FlushInfo.id = List.range s.queue.guarded.nextFlushInfoId)
    (injective : Set.InjOn o.threadIdHash (enqueuers s.queue.log)) :
    ((writtenRecords s).map (pathOf o directory)).Nodup := by
  refine (writtenRecords_nodup counted).map_on ?_
  intro record member record' member' same
  obtain ⟨⟨thread, accepted⟩, -⟩ := mem_writtenRecords.mp member
  obtain ⟨⟨thread', accepted'⟩, -⟩ := mem_writtenRecords.mp member'
  by_contra different
  refine stored.path_ne injective accepted accepted' ?_ (pathOf_inj same)
  exact fun ids =>
    different (stored.tracked.once thread record thread' record' accepted accepted' ids)

/-- The disk of the run has a file for each record that was written. -/
theorem file_exists (stored : Stored env.host env.snappy o calls s)
    (injective : Set.InjOn o.threadIdHash (enqueuers s.queue.log))
    (member : record ∈ writtenRecords s) :
    ∃ content, s.disk (traceFilePath o record) = some content := by
  obtain ⟨⟨thread, accepted⟩, wrote, occupied⟩ := mem_writtenRecords.mp member
  obtain ⟨call, -, window, -, file⟩ :=
    stored.complete injective thread record accepted wrote occupied
  exact ⟨_, file⟩

/-- What the tool reads at the path of a record. -/
theorem file_at (stored : Stored env.host env.snappy o calls s)
    (lossless : ∀ data, env.snappy.uncompress (env.snappy.compress data) = some data)
    (injective : Set.InjOn o.threadIdHash (enqueuers s.queue.log))
    (shows : Shows disk directory s.disk) (member : record ∈ writtenRecords s)
    (countable : record.buffer.buffer.size < 2 ^ 31) :
    ∃ file, read env.host env.snappy (disk.content (pathOf o directory record)) =
      some (.ok file) ∧ FileOf env.host o calls record file := by
  obtain ⟨content, present⟩ := file_exists stored injective member
  obtain ⟨⟨thread, accepted⟩, wrote, occupied⟩ := mem_writtenRecords.mp member
  obtain ⟨call, used, made, reads⟩ :=
    stored.readsBack lossless injective accepted wrote occupied countable
  refine ⟨⟨{ recordHeader env.host o record call with compressionStrategy := used.byte },
    contentsOf record.buffer.buffer⟩, ?_, ⟨call, used, made, rfl⟩, rfl⟩
  rw [pathOf, shows.content _ content present, ← present]
  exact reads

/-- The tool finds the files of the records. -/
theorem found_traces (stored : Stored env.host env.snappy o calls s)
    (counted : s.queue.accepted.map FlushInfo.id = List.range s.queue.guarded.nextFlushInfoId)
    (injective : Set.InjOn o.threadIdHash (enqueuers s.queue.log))
    (shows : Shows disk directory s.disk) {paths : List Symbols.Text}
    (lists : disk.recursiveEntries directory = some paths) {symbolsPath : Symbols.Text}
    (symbols : extension symbolsPath = '.' :: kSymbolsFileExtension) :
    ((paths ++ [symbolsPath]).eraseDups.filter (disk.isTraceFile .perfettoProto)).Perm
      ((writtenRecords s).map (pathOf o directory)) := by
  obtain ⟨listed, lists', entries⟩ := shows.entries
  obtain rfl := Option.some.inj (lists.symm.trans lists')
  rw [List.perm_ext_iff_of_nodup ((nodup_eraseDups _).filter _)
    (paths_nodup stored counted injective)]
  intro path
  rw [List.mem_filter, List.mem_eraseDups, List.mem_append, List.mem_singleton, List.mem_map,
    Disk.isTraceFile]
  constructor
  · rintro ⟨here | rfl, trace⟩
    · obtain ⟨name, content, present, rfl⟩ := (entries path).mp here
      obtain ⟨thread, record, accepted, wrote, occupied, rfl⟩ := stored.named name content present
      exact ⟨record, mem_writtenRecords.mpr ⟨⟨thread, accepted⟩, wrote, occupied⟩, rfl⟩
    · simp only [Bool.and_eq_true, decide_eq_true_eq, symbols] at trace
      exact absurd trace.2 (by decide)
  · rintro ⟨record, member, rfl⟩
    obtain ⟨content, present⟩ := file_exists stored injective member
    refine ⟨.inl ((entries _).mpr ⟨_, content, present, rfl⟩), ?_⟩
    have regular := shows.regular _ content present
    rw [← pathOf] at regular
    simp [regular, extension_pathOf]

/-- The only symbols file is the one that is given. -/
theorem found_symbols (stored : Stored env.host env.snappy o calls s)
    (shows : Shows disk directory s.disk) {paths : List Symbols.Text}
    (lists : disk.recursiveEntries directory = some paths) {symbolsPath : Symbols.Text}
    (regular : disk.isRegularFile symbolsPath = true)
    (symbols : extension symbolsPath = '.' :: kSymbolsFileExtension) :
    (paths ++ [symbolsPath]).eraseDups.filter disk.isSymbolsFile = [symbolsPath] := by
  obtain ⟨listed, lists', entries⟩ := shows.entries
  obtain rfl := Option.some.inj (lists.symm.trans lists')
  rw [← List.perm_singleton, List.perm_ext_iff_of_nodup ((nodup_eraseDups _).filter _)
    (List.nodup_singleton _)]
  intro path
  rw [List.mem_filter, List.mem_eraseDups, List.mem_append, List.mem_singleton, Disk.isSymbolsFile]
  constructor
  · rintro ⟨here | same, isSymbols⟩
    · obtain ⟨name, content, present, rfl⟩ := (entries path).mp here
      obtain ⟨thread, record, -, -, -, rfl⟩ := stored.named name content present
      rw [← pathOf, extension_pathOf, Bool.and_eq_true, decide_eq_true_eq] at isSymbols
      exact absurd isSymbols.2 (by decide)
    · exact same
  · rintro rfl
    exact ⟨.inr rfl, by simp [regular, symbols]⟩

end Directory

theorem forall₂_filterMap {α β : Type} {relates : α → β → Prop} {f : α → Option β} {list : List α}
    (each : ∀ a ∈ list, ∃ b, f a = some b ∧ relates a b) :
    List.Forall₂ relates list (list.filterMap f) := by
  induction list with
  | nil => exact .nil
  | cons a list ih =>
      obtain ⟨b, maps, related⟩ := each a (by simp)
      rw [List.filterMap_cons_some maps]
      exact .cons related (ih fun b member => each b (List.mem_cons_of_mem _ member))

/-- Every run in which no stream loses bytes and no two records of a thread have the same
    timestamp leaves a directory of which the tool makes a trace without an error: the
    trace of the files of exactly the records that were reported as written, by the times
    of the steady clock at their writes, with the symbols that were given. -/
theorem run_becomes_trace (env : Environment) (o : FlushQueue.DiskFlushQueue.Options)
    (writer : TraceFileWriter) (labels : List (StorageStep ω κ)) (s : Storage ω κ)
    (lossless : ∀ data, env.snappy.uncompress (env.snappy.compress data) = some data)
    (persists : Meets (Storage.step env.host env.snappy o) PersistsAll (Storage.initial writer)
      labels)
    (fresh : Meets (Storage.step env.host env.snappy o) NamesFresh (Storage.initial writer) labels)
    (reached : exec (Storage.step env.host env.snappy o) (Storage.initial writer) labels = some s)
    (injective : Set.InjOn o.threadIdHash (enqueuers s.queue.log))
    (countable : ∀ record ∈ writtenRecords s, record.buffer.buffer.size < 2 ^ 31)
    (config : Config) (disk : Disk) (directory symbolsPath : Symbols.Text) (symbols : SymbolsTable)
    (format : outputFormatFromConfig config = .ok .perfettoProto)
    (opens : env.openOutput config.outputFile = some disk)
    (shows : Shows disk directory s.disk) (regular : disk.isRegularFile symbolsPath = true)
    (file : disk.isDirectory symbolsPath = false)
    (named : extension symbolsPath = '.' :: kSymbolsFileExtension)
    (parses : symbolsAt env disk symbolsPath = some symbols) :
    ∃ whole files, List.Forall₂
        (FileOf env.host o (Storage.WrittenUnder env.host env.snappy o writer labels))
        (writtenRecords s) whole ∧
      files.Perm whole ∧ files.Pairwise EarlierOrSame ∧
      ∃ output, output = .trace (Perfetto.spoorTraceToPerfettoTrace env.trackUuid files
          (perfettoTable (mergedSymbols env disk [symbolsPath]))) ∧
        main env config [directory, symbolsPath] = some ⟨env.saves output, [], some output⟩ := by
  have stored := run_stored persists fresh reached
  have counted := run_accepted reached
  obtain ⟨paths, lists, -⟩ := shows.entries
  have expands : expansion disk [directory, symbolsPath] = some (paths ++ [symbolsPath]) := by
    simp [expansion, shows.isDirectory, lists, file]
  have traces := found_traces stored counted injective shows lists named
  have each : ∀ record ∈ writtenRecords s, ∃ file, read env.host env.snappy
      (disk.content (pathOf o directory record)) = some (.ok file) ∧
        FileOf env.host o (Storage.WrittenUnder env.host env.snappy o writer labels) record file :=
    fun record member =>
      file_at stored lossless injective shows member (countable record member)
  have readable : ∀ path ∈ (paths ++ [symbolsPath]).eraseDups.filter
      (disk.isTraceFile .perfettoProto), ∃ file,
        read env.host env.snappy (disk.content path) = some (.ok file) := by
    intro path found
    obtain ⟨record, member, rfl⟩ := List.mem_map.mp (traces.mem_iff.mp found)
    obtain ⟨file, reads, -⟩ := each record member
    exact ⟨file, reads⟩
  have silent : ∀ path ∈ (paths ++ [symbolsPath]).eraseDups.filter
      (disk.isTraceFile .perfettoProto), traceErrorsAt env disk path = [] := by
    intro path found
    obtain ⟨file, reads⟩ := readable path found
    rw [traceErrorsAt, reads]
  have silentSymbols : symbolsErrors env disk symbolsPath = [] := by
    rw [symbolsAt] at parses
    cases reads : readSymbols env disk symbolsPath with
    | error error => simp [reads, Except.toOption] at parses
    | ok table => rw [symbolsErrors, reads]
  refine ⟨(writtenRecords s).filterMap fun record =>
      traceFileAt env disk (pathOf o directory record),
    env.sorting.sort (((paths ++ [symbolsPath]).eraseDups.filter
      (disk.isTraceFile .perfettoProto)).filterMap (traceFileAt env disk)), ?_, ?_,
    env.sorting.sorted _, _, rfl, ?_⟩
  · refine forall₂_filterMap fun record member => ?_
    obtain ⟨file, reads, same⟩ := each record member
    exact ⟨file, by rw [traceFileAt, reads]; rfl, same⟩
  · have order := traces.filterMap (traceFileAt env disk)
    rw [List.filterMap_map] at order
    exact (env.sorting.perm _).trans order
  · rw [main, if_neg (List.cons_ne_nil _ _), opens]
    simp only [format, searchSources_eq, expands, Option.map_some, Option.bind_some, process,
      readTraceFiles_eq, found_symbols stored shows lists regular named]
    rw [if_pos fun path found => Option.isSome_of_eq_some (readable path found).choose_spec,
      List.flatMap_eq_nil_iff.mpr silent]
    simp [silentSymbols, serialize, mergedSymbols]

def tracesDirectory : Symbols.Text := "traces".toList

def symbolsFile : Symbols.Text := "names.spoor_symbols".toList

/-- A directory with one trace, and a symbols file without functions beside it. -/
def oneTrace (name : String) (content : List Byte) : Disk where
  isRegularFile path := path = join tracesDirectory name.toList ∨ path = symbolsFile
  isDirectory path := path = tracesDirectory
  recursiveEntries path :=
    if path = tracesDirectory then some [join tracesDirectory name.toList] else none
  content path :=
    if path = join tracesDirectory name.toList then some content
    else if path = symbolsFile then some []
    else none

theorem shows_oneTrace (name : String) (content : List Byte) :
    Shows (oneTrace name content) tracesDirectory
      (Function.update (fun _ => none) name (some content)) := by
  have only : ∀ {other : String} {found : List Byte},
      Function.update (fun _ => none) name (some content) other = some found →
      other = name ∧ found = content := by
    intro other found present
    by_cases same : other = name
    · subst same
      simpa [eq_comm] using present
    · simp [Function.update_of_ne same] at present
  refine ⟨by simp [oneTrace],
    ⟨[join tracesDirectory name.toList], by simp [oneTrace], fun path => ?_⟩,
    ?_, ?_⟩
  · rw [List.mem_singleton]
    constructor
    · rintro rfl
      exact ⟨name, content, by simp, rfl⟩
    · rintro ⟨other, found, present, rfl⟩
      rw [(only present).1]
  · intro other found present
    simp [(only present).1, oneTrace]
  · intro other found present
    simp [only present, oneTrace]

def oneTraceEnvironment (disk : Disk) : Environment :=
  { threeFilesEnvironment with openOutput := fun _ => some disk }

/-- The record that the run writes. -/
def recordOfOne : FlushInfo (TraceBuffer Unit) := ⟨traceBufferOfOne, 1, 0, 0, 1⟩

theorem run_becomes_trace_writeOne :
    ∃ s : Storage Unit Unit, exec (Storage.step .little literalSnappy logEverything)
        (Storage.initial ⟨.none, [], false⟩) (writeOne ⟨0, 0⟩) = some s ∧
      writtenRecords s = [recordOfOne] ∧ ∃ disk whole files,
        List.Forall₂ (FileOf .little logEverything (Storage.WrittenUnder .little literalSnappy
            logEverything ⟨.none, [], false⟩ (writeOne ⟨0, 0⟩))) (writtenRecords s) whole ∧
        files.Perm whole ∧
        ∃ output, output = .trace (Perfetto.spoorTraceToPerfettoTrace (· + ·) files
          (perfettoTable (mergedSymbols (oneTraceEnvironment disk) disk [symbolsFile]))) ∧
        main (oneTraceEnvironment disk) ⟨[], .perfettoProto⟩ [tracesDirectory, symbolsFile] =
          some ⟨true, [], some output⟩ := by
  obtain ⟨s, content, reached, log, files⟩ : ∃ (s : Storage Unit Unit) (content : List Byte),
      exec (Storage.step .little literalSnappy logEverything)
        (Storage.initial ⟨.none, [], false⟩) (writeOne ⟨0, 0⟩) = some s ∧
      s.queue.log = [.offered 0, .enqueued 0 recordOfOne, .tested 0 1, .wrote 0 true] ∧
      s.disk = Function.update (fun _ => none) (traceFilePath logEverything recordOfOne)
        (some content) := ⟨_, _, rfl, rfl, rfl⟩
  have written : writtenRecords s = [recordOfOne] := by
    unfold writtenRecords isWritten State.accepted
    rw [log]
    rfl
  have injective : Set.InjOn logEverything.threadIdHash (enqueuers s.queue.log) := by
    rintro thread ⟨record, logged⟩ thread' ⟨record', logged'⟩ -
    simp [log] at logged logged'
    omega
  have countable : ∀ record ∈ writtenRecords s, record.buffer.buffer.size < 2 ^ 31 := by
    intro record member
    rw [written, List.mem_singleton] at member
    subst member
    decide
  have shows := shows_oneTrace (traceFilePath logEverything recordOfOne) content
  rw [← files] at shows
  have single := traceFilePath_single (o := logEverything) recordOfOne
  generalize traceFilePath logEverything recordOfOne = name at shows single
  have regular : (oneTrace name content).isRegularFile symbolsFile = true := by simp [oneTrace]
  have plain : (oneTrace name content).isDirectory symbolsFile = false := by
    simp only [oneTrace]
    decide
  have parses : symbolsAt (oneTraceEnvironment (oneTrace name content)) (oneTrace name content)
      symbolsFile = some ∅ := by
    have apart : symbolsFile ≠ join tracesDirectory name.toList := by
      rw [join_eq single]
      intro same
      have first : some 'n' = some 't' := congrArg List.head? same
      cases first
    have found : (oneTrace name content).content symbolsFile = some [] := by
      simp only [oneTrace, if_neg apart, if_true]
    rw [symbolsAt, readSymbols, found]
    rfl
  obtain ⟨whole, sorted, relates, order, -, output, made, done⟩ := run_becomes_trace
    (oneTraceEnvironment (oneTrace name content)) logEverything ⟨.none, [], false⟩
    (writeOne ⟨0, 0⟩) s (fun data => rfl) persistsAll_writeOne namesFresh_writeOne reached injective
    countable ⟨[], .perfettoProto⟩ (oneTrace name content) tracesDirectory symbolsFile ∅ rfl rfl
    shows regular plain (by decide) parses
  exact ⟨s, reached, written, oneTrace name content, whole, sorted, relates, order, output, made,
    done⟩

end Spoor.Tools
