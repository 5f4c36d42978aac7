import Spoor.Perfetto.InternedData
import Spoor.Tools.SpoorTool
import Spoor.Trace.RoundTrip

/-! # The order of the search paths

Files are found by going through the search paths and the directories below them, in
whatever order the file system lists these.  A path is visited once, however often it
is come by.  So what the tool writes depends on which files there are below the search
paths, and not on the order in which they are found, as long as the times of the traces
and the functions of the symbols files tell the files apart.
-/

namespace Spoor.Tools

open Lib Lib.ByteOrder Symbols Trace

/-! ## Which files are found -/

/-- The paths that the search comes by. -/
def expansion (disk : Disk) : List Text → Option (List Text)
  | [] => some []
  | source :: sources =>
      (if disk.isDirectory source then disk.recursiveEntries source else some [source]).bind
        fun paths => (expansion disk sources).map (paths ++ ·)

def Disk.isTraceFile (disk : Disk) (format : OutputFormat) (path : Text) : Bool :=
  disk.isRegularFile path && format = .perfettoProto && extension path = '.' :: kTraceFileExtension

def Disk.isSymbolsFile (disk : Disk) (path : Text) : Bool :=
  disk.isRegularFile path && extension path = '.' :: kSymbolsFileExtension

section Search

variable {disk : Disk} {format : OutputFormat}

theorem foldlM_visitSource (sources : List Text) (search : Search) :
    sources.foldlM (visitSource disk format) search =
      (expansion disk sources).map fun paths => paths.foldl (visitFile disk format) search := by
  induction sources generalizing search with
  | nil => rfl
  | cons source sources ih =>
      rw [List.foldlM_cons, expansion, visitSource]
      by_cases directory : disk.isDirectory source = true
      · rw [if_pos directory, if_pos directory]
        cases disk.recursiveEntries source with
        | none => rfl
        | some entries => simp [ih, Function.comp_def]
      · rw [if_neg directory, if_neg directory]
        simp [ih, Function.comp_def]

/-- The paths that were not visited before, each once. -/
def fresh (search : Search) (paths : List Text) : List Text :=
  (paths.filter fun path => !search.visited.contains path).eraseDups

theorem visitFile_known {search : Search} {path : Text} (known : path ∈ search.visited) :
    visitFile disk format search path = search := by
  rw [visitFile, if_pos (List.contains_iff_mem.mpr known)]

theorem visitFile_fresh {search : Search} {path : Text} (unknown : path ∉ search.visited) :
    visitFile disk format search path =
      ⟨path :: search.visited,
        search.traceFilePaths ++ [path].filter (disk.isTraceFile format),
        search.symbolsFilePaths ++ [path].filter disk.isSymbolsFile⟩ := by
  rw [visitFile, if_neg (unknown ∘ List.contains_iff_mem.mp)]
  cases regular : disk.isRegularFile path with
  | false => simp [Disk.isTraceFile, Disk.isSymbolsFile, regular]
  | true =>
      simp only [Bool.not_true, Bool.false_eq_true, if_false]
      congr 1
      · by_cases trace : format = .perfettoProto ∧ extension path = '.' :: kTraceFileExtension
        · simp [Disk.isTraceFile, regular, trace]
        · rw [if_neg trace, List.filter_cons_of_neg, List.filter_nil, List.append_nil]
          simpa [Disk.isTraceFile, regular] using trace
      · by_cases symbols : extension path = '.' :: kSymbolsFileExtension
        · simp [Disk.isSymbolsFile, regular, symbols]
        · simp [Disk.isSymbolsFile, regular, symbols]

theorem fresh_cons {search : Search} {path : Text} (unknown : path ∉ search.visited)
    (paths : List Text) :
    fresh search (path :: paths) = path :: fresh (visitFile disk format search path) paths := by
  rw [fresh, List.filter_cons_of_pos (by simpa using unknown), List.eraseDups_cons,
    List.filter_filter, fresh, visitFile_fresh unknown]
  congr 2
  refine List.filter_congr fun other _ => ?_
  by_cases same : other = path <;> simp [same]

theorem foldl_visitFile (paths : List Text) (search : Search) :
    paths.foldl (visitFile disk format) search =
      ⟨(fresh search paths).reverse ++ search.visited,
        search.traceFilePaths ++ (fresh search paths).filter (disk.isTraceFile format),
        search.symbolsFilePaths ++ (fresh search paths).filter disk.isSymbolsFile⟩ := by
  induction paths generalizing search with
  | nil => simp [fresh]
  | cons path paths ih =>
      rw [List.foldl_cons]
      by_cases known : path ∈ search.visited
      · have same : fresh search (path :: paths) = fresh search paths := by simp [fresh, known]
        rw [visitFile_known known, same]
        exact ih search
      · have split : ∀ (test : Text → Bool) (later : List Text),
            (path :: later).filter test = [path].filter test ++ later.filter test := by
          intro test later
          rw [← List.filter_append, List.singleton_append]
        rw [ih, @fresh_cons disk format search path known]
        generalize fresh (visitFile disk format search path) paths = later
        rw [visitFile_fresh known, split (disk.isTraceFile format) later,
          split disk.isSymbolsFile later]
        simp only [List.reverse_cons, List.append_assoc, List.singleton_append]

/-- The files that are found: each is visited at its first place. -/
theorem searchSources_eq (sources : List Text) :
    searchSources disk format sources = (expansion disk sources).map fun paths =>
      ⟨paths.eraseDups.reverse, paths.eraseDups.filter (disk.isTraceFile format),
        paths.eraseDups.filter disk.isSymbolsFile⟩ := by
  rw [searchSources, foldlM_visitSource]
  congr 1
  funext paths
  rw [foldl_visitFile]
  simp [fresh, Search.start]

theorem nodup_eraseDups (paths : List Text) : paths.eraseDups.Nodup := by
  induction size : paths.length using Nat.strongRecOn generalizing paths with
  | ind size ih =>
      cases paths with
      | nil => simp
      | cons path paths =>
          rw [List.eraseDups_cons, List.nodup_cons]
          constructor
          · simp
          · refine ih _ ?_ _ rfl
            rw [← size, List.length_cons]
            exact Nat.lt_succ_of_le (List.length_filter_le _ _)

/-- The same files are found in another order if the paths come by are the same. -/
theorem found_perm {paths paths' : List Text} (same : ∀ path, path ∈ paths ↔ path ∈ paths') :
    paths.eraseDups.Perm paths'.eraseDups := by
  rw [List.perm_ext_iff_of_nodup (nodup_eraseDups paths) (nodup_eraseDups paths')]
  intro path
  rw [List.mem_eraseDups, List.mem_eraseDups, same]

end Search

/-! ## What is read -/

section Reading

variable {env : Environment} {disk : Disk}

/-- The trace file at a path, if there is one that can be read. -/
def traceFileAt (env : Environment) (disk : Disk) (path : Text) : Option TraceFile :=
  (read env.host env.snappy (disk.content path)).bind Except.toOption

def traceErrorsAt (env : Environment) (disk : Disk) (path : Text) : List Text :=
  match read env.host env.snappy (disk.content path) with
  | some (.error error) => traceFileErrors path error
  | _ => []

theorem foldlM_readTraceFile (paths : List Text) (progress : List TraceFile × List Text) :
    paths.foldlM (readTraceFile env disk) progress =
      if ∀ path ∈ paths, (read env.host env.snappy (disk.content path)).isSome = true then
        some (progress.1 ++ paths.filterMap (traceFileAt env disk),
          progress.2 ++ paths.flatMap (traceErrorsAt env disk))
      else none := by
  induction paths generalizing progress with
  | nil => simp
  | cons path paths ih =>
      rw [List.foldlM_cons, readTraceFile]
      cases reads : read env.host env.snappy (disk.content path) with
      | none => simp [reads]
      | some result =>
          cases result with
          | ok file => simp [ih, reads, traceFileAt, traceErrorsAt, Except.toOption]
          | error error => simp [ih, reads, traceFileAt, traceErrorsAt, Except.toOption]

theorem readTraceFiles_eq (paths : List Text) :
    readTraceFiles env disk paths =
      if ∀ path ∈ paths, (read env.host env.snappy (disk.content path)).isSome = true then
        some (paths.filterMap (traceFileAt env disk), paths.flatMap (traceErrorsAt env disk))
      else none := by
  simpa [readTraceFiles] using foldlM_readTraceFile paths ([], [])

/-- The traces of different files were begun at different times. -/
def TimesApart (env : Environment) (disk : Disk) (paths : List Text) : Prop :=
  ∀ path ∈ paths, ∀ path' ∈ paths, ∀ file file', traceFileAt env disk path = some file →
    traceFileAt env disk path' = some file' →
    file.header.steadyClockTimestamp = file'.header.steadyClockTimestamp → path = path'

/-- There is only one way to sort files with different times. -/
theorem sort_eq_of_perm {paths paths' : List Text} (order : paths.Perm paths')
    (apart : TimesApart env disk paths) :
    env.sorting.sort (paths.filterMap (traceFileAt env disk)) =
      env.sorting.sort (paths'.filterMap (traceFileAt env disk)) := by
  have perm := order.filterMap (traceFileAt env disk)
  have first := env.sorting.perm (paths.filterMap (traceFileAt env disk))
  have second := env.sorting.perm (paths'.filterMap (traceFileAt env disk))
  refine ((first.trans perm).trans second.symm).eq_of_pairwise ?_ (env.sorting.sorted _)
    (env.sorting.sorted _)
  intro file file' listed listed' before after
  obtain ⟨path, found, reads⟩ := List.mem_filterMap.mp (first.mem_iff.mp listed)
  obtain ⟨path', found', reads'⟩ := List.mem_filterMap.mp (second.mem_iff.mp listed')
  obtain rfl := apart path found path' (order.mem_iff.mpr found') file file' reads reads'
    (BitVec.toInt_inj.mp (Int.le_antisymm before after))
  exact Option.some.inj (reads.symm.trans reads')

/-! ## Which symbols there are -/

/-- The symbols at a path, if there are any that can be read. -/
def symbolsAt (env : Environment) (disk : Disk) (path : Text) : Option SymbolsTable :=
  (readSymbols env disk path).toOption

/-- No function is known from two files. -/
def FunctionsApart (env : Environment) (disk : Disk) (paths : List Text) : Prop :=
  ∀ path ∈ paths, ∀ path' ∈ paths, ∀ table table', symbolsAt env disk path = some table →
    symbolsAt env disk path' = some table' → ∀ id, table.values id ≠ [] → table'.values id ≠ [] →
      path = path'

/-- The order of the parts does not matter if all but one are empty. -/
theorem flatMap_eq_of_perm {α β : Type} {list list' : List α} (order : list.Perm list')
    (f : α → List β) (one : ∀ a ∈ list, ∀ b ∈ list, f a ≠ [] → f b ≠ [] → a = b) :
    list.flatMap f = list'.flatMap f := by
  induction order with
  | nil => rfl
  | cons a order ih =>
      rw [List.flatMap_cons, List.flatMap_cons, ih]
      intro b inside c inside'
      exact one b (List.mem_cons_of_mem _ inside) c (List.mem_cons_of_mem _ inside')
  | swap a b list =>
      simp only [List.flatMap_cons]
      by_cases first : f a = []
      · simp [first]
      · by_cases second : f b = []
        · simp [second]
        · rw [one a (by simp) b (by simp) first second]
  | trans order _ ih ih' =>
      refine (ih one).trans (ih' ?_)
      intro a inside b inside'
      exact one a (order.mem_iff.mpr inside) b (order.mem_iff.mpr inside')

/-- The symbols of the files at some paths, merged. -/
def mergedSymbols (env : Environment) (disk : Disk) (paths : List Text) : SymbolsTable :=
  loadSymbols (paths.map (readSymbols env disk))

theorem mergedSymbols_merged (paths : List Text) :
    Merged (paths.filterMap (symbolsAt env disk)) ∅
      (reduceAll (paths.filterMap (symbolsAt env disk)) ∅) ∧
      mergedSymbols env disk paths = (reduceAll (paths.filterMap (symbolsAt env disk)) ∅).2 := by
  refine ⟨merged_reduceAll _ _, ?_⟩
  rw [mergedSymbols, loadSymbols_eq, List.filterMap_map]
  rfl

theorem values_mergedSymbols (paths : List Text) (id : FunctionId) :
    (mergedSymbols env disk paths).values id =
      paths.flatMap fun path => (symbolsAt env disk path).elim [] fun table => table.values id := by
  obtain ⟨merged, same⟩ := @mergedSymbols_merged env disk paths
  rw [same, merged.infos]
  have none : (∅ : SymbolsTable).values id = [] := rfl
  rw [none, List.nil_append]
  clear merged same none
  induction paths with
  | nil => rfl
  | cons path paths ih =>
      cases reads : symbolsAt env disk path <;> simp [reads, ih]

theorem mem_mergedSymbols (paths : List Text) (id : FunctionId) :
    id ∈ mergedSymbols env disk paths ↔
      ∃ path ∈ paths, ∃ table, symbolsAt env disk path = some table ∧ id ∈ table := by
  obtain ⟨merged, same⟩ := @mergedSymbols_merged env disk paths
  rw [same, merged.ids]
  simp only [AList.notMem_empty, false_or, List.mem_filterMap]
  constructor
  · rintro ⟨table, ⟨path, found, reads⟩, inside⟩
    exact ⟨path, found, table, reads, inside⟩
  · rintro ⟨path, found, table, reads, inside⟩
    exact ⟨table, ⟨path, found, reads⟩, inside⟩

/-- A map is given by its keys and their lists. -/
theorem entries_perm {table table' : SymbolsTable}
    (values : ∀ id, table.values id = table'.values id) (ids : ∀ id, id ∈ table ↔ id ∈ table') :
    table.entries.Perm table'.entries := by
  have lookups : ∀ id, table.lookup id = table'.lookup id := by
    intro id
    have value := values id
    by_cases present : id ∈ table
    · obtain ⟨infos, found⟩ := Option.isSome_iff_exists.mp (AList.lookup_isSome.mpr present)
      obtain ⟨infos', found'⟩ :=
        Option.isSome_iff_exists.mp (AList.lookup_isSome.mpr ((ids id).mp present))
      rw [MultiMap.values, MultiMap.values, found, found'] at value
      rw [found, found']
      exact congrArg some value
    · rw [AList.lookup_eq_none.mpr present,
        AList.lookup_eq_none.mpr fun present' => present ((ids id).mpr present')]
  refine List.lookup_ext table.nodupKeys table'.nodupKeys ?_
  intro id infos
  have same : table.entries.dlookup id = table'.entries.dlookup id := lookups id
  rw [same]

theorem mergedSymbols_perm {paths paths' : List Text} (order : paths.Perm paths')
    (apart : FunctionsApart env disk paths) :
    (mergedSymbols env disk paths).entries.Perm (mergedSymbols env disk paths').entries := by
  apply entries_perm
  · intro id
    rw [values_mergedSymbols, values_mergedSymbols]
    apply flatMap_eq_of_perm order
    intro path found path' found' some some'
    cases reads : symbolsAt env disk path with
    | none => simp [reads] at some
    | some table =>
        cases reads' : symbolsAt env disk path' with
        | none => simp [reads'] at some'
        | some table' =>
            exact apart path found path' found' table table' reads reads' id
              (by simpa [reads] using some) (by simpa [reads'] using some')
  · intro id
    rw [mem_mergedSymbols, mem_mergedSymbols]
    simp only [order.mem_iff]

end Reading

/-! ## What is written -/

/-- The packets are the same but for the order of the names. -/
structure SamePacket (packet packet' : Perfetto.TracePacket) : Prop where
  rest : { packet with internedData := none } = { packet' with internedData := none }
  names : (packet.internedData.elim [] (·.eventNames)).Perm
    (packet'.internedData.elim [] (·.eventNames))
  locations : (packet.internedData.elim [] (·.sourceLocations)).Perm
    (packet'.internedData.elim [] (·.sourceLocations))

/-- The outputs are the same but for the order in which a map is gone through. -/
inductive SameOutput : Output → Output → Prop where
  | trace {trace trace' : Perfetto.PerfettoTrace} :
      List.Forall₂ SamePacket trace.packet trace'.packet → SameOutput (.trace trace) (.trace trace')
  | symbols {table table' : SymbolsTable} :
      table.entries.Perm table'.entries → SameOutput (.symbols table) (.symbols table')
  | csv (text : Text) : SameOutput (.csv text) (.csv text)

/-- The outputs are the same, and so are the errors but for their order. -/
structure SameOutcome (outcome outcome' : Outcome) : Prop where
  errors : outcome.errors.Perm outcome'.errors
  output : Option.Rel SameOutput outcome.output outcome'.output

section Writing

variable {env : Environment}

theorem SamePacket.refl (packet : Perfetto.TracePacket) : SamePacket packet packet :=
  ⟨rfl, .refl _, .refl _⟩

theorem head_same (files : List TraceFile) {table table' : Perfetto.SymbolsTable}
    (order : table.entries.Perm table'.entries) :
    SamePacket (Perfetto.makeHeadPacket files table) (Perfetto.makeHeadPacket files table') := by
  have called : (Perfetto.calledEntries files table).Perm (Perfetto.calledEntries files table') :=
    order.filter _
  simp only [Perfetto.makeHeadPacket, Perfetto.makeInternedData_eq]
  exact ⟨rfl, called.map _, called.map _⟩

theorem trace_same (files : List TraceFile) {table table' : Perfetto.SymbolsTable}
    (order : table.entries.Perm table'.entries) :
    List.Forall₂ SamePacket
      (Perfetto.spoorTraceToPerfettoTrace env.trackUuid files table).packet
      (Perfetto.spoorTraceToPerfettoTrace env.trackUuid files table').packet := by
  by_cases counted : 1 ≤ Perfetto.eventCount files
  · rw [Perfetto.packet_of_count table counted, Perfetto.packet_of_count table' counted]
    exact .cons (head_same files order) (List.forall₂_same.mpr fun packet _ => .refl packet)
  · rw [Perfetto.packet_eq_nil.mpr (Int.not_le.mp counted),
      Perfetto.packet_eq_nil.mpr (Int.not_le.mp counted)]
    exact .nil

/-- The rows of the export are sorted. -/
theorem csv_same {table table' : SymbolsTable} (order : table.entries.Perm table'.entries) :
    csv env.timeFormat table = csv env.timeFormat table' := by
  have keys : table.keys.Perm table'.keys := order.map _
  have ids : functionIds table = functionIds table' := by
    have first := List.perm_insertionSort (· ≤ ·) table.keys
    have second := List.perm_insertionSort (· ≤ ·) table'.keys
    exact ((first.trans keys).trans second.symm).eq_of_pairwise' (List.pairwise_insertionSort _ _)
      (List.pairwise_insertionSort _ _)
  have values : ∀ id, table.values id = table'.values id := by
    intro id
    have same := List.perm_dlookup id table.nodupKeys order
    exact congrArg (·.getD []) same
  rw [csv_eq, csv_eq, csvLines, csvLines, orderedInfos, orderedInfos, ids]
  simp only [values]

theorem serialize_same (files : List TraceFile) {table table' : SymbolsTable}
    (order : table.entries.Perm table'.entries) (format : OutputFormat) :
    SameOutput (serialize env files table format) (serialize env files table' format) := by
  cases format with
  | perfettoProto => exact .trace (trace_same files (order.map _))
  | spoorSymbolsProto => exact .symbols order
  | spoorSymbolsCsv =>
      rw [serialize, serialize, csv_same order]
      exact .csv _

theorem process_same {disk : Disk} {format : OutputFormat} {search search' : Search}
    (traces : search.traceFilePaths.Perm search'.traceFilePaths)
    (symbols : search.symbolsFilePaths.Perm search'.symbolsFilePaths)
    (times : TimesApart env disk search.traceFilePaths)
    (functions : FunctionsApart env disk search.symbolsFilePaths) :
    Option.Rel SameOutcome (process env disk format search) (process env disk format search') := by
  have readable : (∀ path ∈ search.traceFilePaths,
      (read env.host env.snappy (disk.content path)).isSome = true) ↔
      ∀ path ∈ search'.traceFilePaths,
        (read env.host env.snappy (disk.content path)).isSome = true := by
    simp only [traces.mem_iff]
  rw [process, process, readTraceFiles_eq, readTraceFiles_eq]
  by_cases reads : ∀ path ∈ search.traceFilePaths,
      (read env.host env.snappy (disk.content path)).isSome = true
  · rw [if_pos reads, if_pos (readable.mp reads)]
    refine .some ⟨?_, .some ?_⟩
    · exact (traces.flatMap_right _).append (symbols.flatMap_right _)
    · have sorted := sort_eq_of_perm traces times
      simp only [sorted]
      exact serialize_same _ (mergedSymbols_perm symbols functions) format
  · rw [if_neg reads, if_neg fun reads' => reads (readable.mpr reads')]
    exact .none

end Writing

/-- The tool does the same for all search paths below which there are the same files, if
    the traces were begun at different times and no function is in two symbols files. -/
theorem main_order_irrelevant (env : Environment) (config : Config) (disk : Disk)
    (opens : env.openOutput config.outputFile = some disk)
    (sources sources' paths paths' : List Text) (given : sources ≠ []) (given' : sources' ≠ [])
    (expands : expansion disk sources = some paths)
    (expands' : expansion disk sources' = some paths')
    (same : ∀ path, path ∈ paths ↔ path ∈ paths')
    (times : TimesApart env disk (paths.filter (disk.isTraceFile .perfettoProto)))
    (functions : FunctionsApart env disk (paths.filter disk.isSymbolsFile)) :
    Option.Rel SameOutcome (main env config sources) (main env config sources') := by
  rw [main, main, if_neg given, if_neg given', opens]
  cases outputFormatFromConfig config with
  | error error =>
      cases error
      exact .some ⟨.refl _, .none⟩
  | ok format =>
      have order := found_perm same
      simp only [searchSources_eq, expands, expands', Option.map_some, Option.bind_some]
      refine process_same (order.filter _) (order.filter _) ?_ ?_
      · intro path found path' found' file file' reads reads' at_once
        have listed : ∀ {path}, path ∈ paths.eraseDups.filter (disk.isTraceFile format) →
            path ∈ paths.filter (disk.isTraceFile .perfettoProto) := by
          intro path member
          simp only [List.mem_filter, List.mem_eraseDups, Disk.isTraceFile, Bool.and_eq_true,
            decide_eq_true_eq] at member ⊢
          exact ⟨member.1, ⟨member.2.1.1, trivial⟩, member.2.2⟩
        exact times path (listed found) path' (listed found') file file' reads reads' at_once
      · intro path found path' found'
        have listed : ∀ {path}, path ∈ paths.eraseDups.filter disk.isSymbolsFile →
            path ∈ paths.filter disk.isSymbolsFile := by
          intro path member
          simpa only [List.mem_filter, List.mem_eraseDups] using member
        exact functions path (listed found) path' (listed found')

def begunBy (file file' : TraceFile) : Bool :=
  file.header.steadyClockTimestamp.toInt ≤ file'.header.steadyClockTimestamp.toInt

def mergeSorting : Sorting where
  sort files := files.mergeSort begunBy
  perm files := List.mergeSort_perm files begunBy
  sorted files := by
    have order : (files.mergeSort begunBy).Pairwise fun file file' =>
        begunBy file file' = true := by
      apply List.pairwise_mergeSort
      · intro first second third before after
        exact decide_eq_true
          (Int.le_trans (of_decide_eq_true before) (of_decide_eq_true after))
      · intro first second
        simpa [begunBy] using Int.le_total _ _
    exact order.imp of_decide_eq_true

/-- A trace with one event that was begun at this time. -/
def traceBegunAt (time : BitVec 64) : TraceFile where
  header := {
    magicNumber := kMagicNumber
    endianness := endianByte .little
    compressionStrategy := CompressionStrategy.none.byte
    version := kTraceFileVersion
    sessionId := 1
    processId := 2
    threadId := 3
    systemClockTimestamp := 0
    steadyClockTimestamp := time
    eventCount := 1
    padding := .replicate 4 0 }
  events := [distinctBytes]

def fileOf (file : TraceFile) : List Byte :=
  encodeHeader .little file.header ++ encodeEvents .little file.events

/-- A directory with a trace and a symbols file without functions, and another trace. -/
def threeFiles : Disk where
  isRegularFile := ["d/a.spoor_trace".toList, "d/b.spoor_symbols".toList,
    "c.spoor_trace".toList].contains
  isDirectory path := path = "d".toList
  recursiveEntries path :=
    if path = "d".toList then some ["d/b.spoor_symbols".toList, "d/a.spoor_trace".toList] else none
  content path :=
    if path = "d/a.spoor_trace".toList then some (fileOf (traceBegunAt 9))
    else if path = "c.spoor_trace".toList then some (fileOf (traceBegunAt 5))
    else if path = "d/b.spoor_symbols".toList then some []
    else none

def threeFilesEnvironment : Environment where
  host := .little
  snappy := literalSnappy
  parseSymbols content := if content = [] then some ∅ else none
  trackUuid processId threadId := processId + threadId
  timeFormat := epochFormat
  sorting := mergeSorting
  openOutput _ := some threeFiles
  saves _ := true

theorem read_traceBegunAt (time : BitVec 64) :
    read .little literalSnappy (some (fileOf (traceBegunAt time))) =
      some (.ok (traceBegunAt time)) := by
  have back : (makeCompressor literalSnappy .none).uncompress
      (encodeEvents .little [distinctBytes]) = .ok (encodeEvents .little [distinctBytes]) := rfl
  exact read_own rfl rfl rfl rfl back (by decide) rfl

theorem traceFileAt_threeFiles {path : Text} {time : BitVec 64}
    (content : threeFiles.content path = some (fileOf (traceBegunAt time))) :
    traceFileAt threeFilesEnvironment threeFiles path = some (traceBegunAt time) := by
  have reads := read_traceBegunAt time
  rw [← content] at reads
  exact congrArg (·.bind Except.toOption) reads

theorem main_order_irrelevant_threeFiles :
    Option.Rel SameOutcome
      (main threeFilesEnvironment ⟨"out.perfetto".toList, .automatic⟩
        ["d".toList, "c.spoor_trace".toList])
      (main threeFilesEnvironment ⟨"out.perfetto".toList, .automatic⟩
        ["c.spoor_trace".toList, "d/a.spoor_trace".toList, "d".toList]) := by
  have first := traceFileAt_threeFiles
    (show threeFiles.content "d/a.spoor_trace".toList = some (fileOf (traceBegunAt 9)) from rfl)
  have second := traceFileAt_threeFiles
    (show threeFiles.content "c.spoor_trace".toList = some (fileOf (traceBegunAt 5)) from rfl)
  refine main_order_irrelevant _ _ threeFiles rfl _ _
    ["d/b.spoor_symbols".toList, "d/a.spoor_trace".toList, "c.spoor_trace".toList]
    ["c.spoor_trace".toList, "d/a.spoor_trace".toList, "d/b.spoor_symbols".toList,
      "d/a.spoor_trace".toList] (List.cons_ne_nil _ _) (List.cons_ne_nil _ _) (by decide)
    (by decide) (fun path => by simp only [List.mem_cons]; tauto) ?_ ?_
  · have traces : ["d/b.spoor_symbols".toList, "d/a.spoor_trace".toList,
        "c.spoor_trace".toList].filter (threeFiles.isTraceFile .perfettoProto) =
          ["d/a.spoor_trace".toList, "c.spoor_trace".toList] := by decide
    rw [traces]
    intro path found path' found' file file' read read' at_once
    simp only [List.mem_cons, List.not_mem_nil, or_false] at found found'
    rcases found with rfl | rfl <;> rcases found' with rfl | rfl
    · rfl
    · obtain rfl := Option.some.inj (first.symm.trans read)
      obtain rfl := Option.some.inj (second.symm.trans read')
      exact absurd at_once (by decide)
    · obtain rfl := Option.some.inj (second.symm.trans read)
      obtain rfl := Option.some.inj (first.symm.trans read')
      exact absurd at_once (by decide)
    · rfl
  · have symbols : ["d/b.spoor_symbols".toList, "d/a.spoor_trace".toList,
        "c.spoor_trace".toList].filter threeFiles.isSymbolsFile = ["d/b.spoor_symbols".toList] := by
      decide
    rw [symbols]
    intro path found path' found' _ _ _ _ _ _ _
    rw [List.mem_singleton.mp found, List.mem_singleton.mp found']

end Spoor.Tools
