import Spoor.Instrumentation.Bracketing
import Spoor.Tools.SearchOrder

/-! # The table of the instrumented functions

The pass writes a symbols file for each module that it goes through.  The tool merges the
files it finds and writes them as comma-separated values.  In that table every function of
every module that has a body has one row, under the id that its calls are logged with, and
there are no other rows.
-/

namespace Spoor.Tools

open Lib Lib.ByteOrder Lib.Transition Symbols
open Instrumentation (InstrumentModuleResult describe describe_eq_some functionIdAt
  instrumentModule instrumentNext makeFunctionId instrumentNext_cases instrumentModule_passed
  SymbolsWriterError sampleEnvironment sampleMain sampleModule sampleOptions)

variable {ι : Type}

/-! ## What the pass records -/

/-- The message that the symbols file has for a record. -/
def message (info : Instrumentation.FunctionInfo) : FunctionInfo where
  moduleId := some info.moduleId.toList
  linkageName := some info.linkageName.toList
  demangledName := some info.demangledName.toList
  fileName := info.fileName.map String.toList
  directory := info.directory.map String.toList
  line := info.line
  irInstructionCount := some info.irInstructionCount
  instrumented := some info.instrumented
  instrumentedReason := info.instrumentedReason.map String.toList
  createdAt := some ⟨info.createdAt.seconds, info.createdAt.nanos⟩

/-- A module that the pass has gone through. -/
structure Build (ι : Type) where
  environment : Instrumentation.Environment
  options : Instrumentation.Options
  decision : Instrumentation.Filters.FunctionInfo →
    Option Instrumentation.Filters.InstrumentFunctionResult
  source : Instrumentation.Module ι
  result : InstrumentModuleResult ι
  returned : instrumentModule environment options decision source = some result

/-- The path of its symbols file. -/
def Build.path (build : Build ι) : Text := build.options.symbolsFilePath.toList

/-- The functions with a body, each with the number of those before it. -/
def numbered (functions : List (Instrumentation.Function ι)) (first : Nat) :
    List (Instrumentation.Function ι × Nat) :=
  (functions.filter fun f => !f.isDeclaration).zipIdx first

/-- The id and the message of a function that has so many others with a body before it. -/
def Build.RecordOf (build : Build ι) (body : Instrumentation.Function ι × Nat)
    (entry : FunctionId × FunctionInfo) : Prop :=
  entry.1 = makeFunctionId build.environment.moduleHash (BitVec.ofNat 64 body.2) ∧
    (describe build.environment build.decision build.source.identifier (BitVec.ofNat 64 body.2)
      body.1).map message = some entry.2

theorem Build.RecordOf.linkageName {build : Build ι} {body : Instrumentation.Function ι × Nat}
    {entry : FunctionId × FunctionInfo} (isRecord : build.RecordOf body entry) :
    entry.2.linkageName = some body.1.name.toList := by
  obtain ⟨info, described, same⟩ := Option.map_eq_some_iff.mp isRecord.2
  rw [← same, ← (describe_eq_some described).1]
  rfl

/-- The messages of an id for a table of the pass. -/
def messagesOf (symbols : Instrumentation.SymbolsTable) (id : FunctionId) : List FunctionInfo :=
  ((symbols.lookup id).getD []).map message

section Pass

theorem messagesOf_cons (other key : FunctionId) (infos : List Instrumentation.FunctionInfo)
    (symbols : Instrumentation.SymbolsTable) :
    messagesOf ((other, infos) :: symbols) key =
      if key = other then infos.map message else messagesOf symbols key := by
  rw [messagesOf, List.lookup_cons]
  by_cases same : key = other
  · simp [same]
  · have apart : (key == other) = false := by simpa using same
    rw [apart, if_neg same, messagesOf]

theorem messagesOf_addFunctionInfo (id key : FunctionId) (info : Instrumentation.FunctionInfo)
    (symbols : Instrumentation.SymbolsTable) :
    messagesOf (Instrumentation.addFunctionInfo id info symbols) key =
      messagesOf symbols key ++ if key = id then [message info] else [] := by
  induction symbols with
  | nil =>
      rw [Instrumentation.addFunctionInfo, messagesOf_cons]
      rfl
  | cons entry symbols ih =>
      obtain ⟨other, infos⟩ := entry
      rw [Instrumentation.addFunctionInfo, messagesOf_cons]
      by_cases here : other = id
      · subst here
        rw [if_pos rfl, messagesOf_cons]
        by_cases same : key = other
        · simp [same]
        · simp [same]
      · rw [if_neg here, messagesOf_cons, ih]
        by_cases same : key = other
        · simp [same, here]
        · simp [same]

theorem numbered_cons (f : Instrumentation.Function ι)
    (functions : List (Instrumentation.Function ι)) (first : Nat) :
    numbered (f :: functions) first =
      if f.isDeclaration then numbered functions first
      else (f, first) :: numbered functions (first + 1) := by
  cases declaration : f.isDeclaration <;> simp [numbered, declaration, List.zipIdx_cons]

/-- The loop adds the record of each function that it passes and that has a body. -/
theorem exec_records (build : Build ι) {functions : List (Instrumentation.Function ι)}
    {progress final : Instrumentation.Progress ι} {first : Nat}
    (counter : progress.counter = BitVec.ofNat 64 first)
    (reached : exec (instrumentNext build.environment build.options build.decision
      build.source.identifier) progress functions = some final) :
    ∃ entries, List.Forall₂ build.RecordOf (numbered functions first) entries ∧
      ∀ id, messagesOf final.symbols id =
        messagesOf progress.symbols id ++ MultiMap.valuesOf entries id := by
  induction functions generalizing progress first with
  | nil =>
      obtain rfl : progress = final := Option.some.inj reached
      exact ⟨[], .nil, fun id => (List.append_nil _).symm⟩
  | cons f functions ih =>
      rw [exec_cons] at reached
      obtain ⟨next, taken, rest⟩ := Option.bind_eq_some_iff.mp reached
      rw [numbered_cons]
      obtain ⟨declaration, rfl⟩ | ⟨body, info, described, rfl⟩ := instrumentNext_cases taken
      · rw [if_pos declaration]
        exact @ih { progress with functions := progress.functions ++ [f.original] } first counter
          rest
      · have counted : progress.counter + 1 = BitVec.ofNat 64 (first + 1) := by
          rw [counter, BitVec.ofNat_add]
          rfl
        obtain ⟨entries, related, records⟩ := ih counted rest
        rw [counter] at described
        refine ⟨(makeFunctionId build.environment.moduleHash (BitVec.ofNat 64 first),
          message info) :: entries, ?_, fun id => ?_⟩
        · rw [body, if_neg Bool.false_ne_true]
          exact .cons ⟨rfl, congrArg (Option.map message) described⟩ related
        · rw [records, counter, messagesOf_addFunctionInfo, List.append_assoc,
            MultiMap.valuesOf_cons]

/-- The symbols of a module are the records of its functions with a body. -/
theorem Build.records (build : Build ι) :
    ∃ entries, List.Forall₂ build.RecordOf (numbered build.source.functions 0) entries ∧
      ∀ id, messagesOf build.result.symbols id = MultiMap.valuesOf entries id := by
  obtain ⟨declarations, progress, each, reached, -, symbols, -⟩ :=
    instrumentModule_passed build.returned
  obtain ⟨entries, related, records⟩ := exec_records build rfl reached
  have none : declarations.filter (fun f => !f.isDeclaration) = [] := by
    rw [List.filter_eq_nil_iff]
    intro f listed
    simp [each f listed]
  refine ⟨entries, ?_, fun id => ?_⟩
  · rwa [numbered, List.filter_append, none, List.append_nil, ← numbered] at related
  · rw [symbols, records]
    rfl

/-- The number of a function with a body is the one its id is made from. -/
theorem mem_numbered {functions : List (Instrumentation.Function ι)}
    {f : Instrumentation.Function ι} {position : Nat} (found : functions[position]? = some f)
    (body : f.isDeclaration = false) :
    (f, Instrumentation.definedBefore functions position) ∈ numbered functions 0 := by
  have split := List.take_append_drop position functions
  have rest : functions.drop position = f :: functions.drop (position + 1) := by
    rw [List.drop_eq_getElem?_toList_append, found]
    rfl
  rw [rest] at split
  rw [numbered, List.mem_zipIdx_iff_getElem?]
  nth_rewrite 1 [← split]
  rw [List.filter_append, Instrumentation.definedBefore, List.countP_eq_length_filter,
    List.getElem?_append_right (Nat.le_refl _), Nat.sub_self,
    List.filter_cons_of_pos (by simp [body]), List.getElem?_cons_zero]

theorem exists_of_mem_left {α β : Type} {R : α → β → Prop} {as : List α} {bs : List β}
    (related : List.Forall₂ R as bs) {a : α} (listed : a ∈ as) : ∃ b ∈ bs, R a b := by
  induction related with
  | nil => cases listed
  | @cons _ b _ _ holds _ ih =>
      cases listed with
      | head => exact ⟨b, List.mem_cons_self, holds⟩
      | tail _ later =>
          obtain ⟨b, inside, holds⟩ := ih later
          exact ⟨b, List.mem_cons_of_mem _ inside, holds⟩

end Pass

/-! ## What the pass writes -/

abbrev Files := Text → Option (List Byte)

/-- Which files can be opened, and what the stream of a file takes of a message, with
    whether that is all of it. -/
structure SymbolsFileWriter where
  isOpen : Text → Bool
  serializeToOstream : Text → Instrumentation.SymbolsTable → List Byte × Bool

/-- `SymbolsFileWriter::Write`, with the files that it leaves. -/
def SymbolsFileWriter.write (writer : SymbolsFileWriter) (files : Files) (filePath : String)
    (symbols : Instrumentation.SymbolsTable) : Files × Except SymbolsWriterError Unit :=
  if !writer.isOpen filePath.toList then (files, .error .failedToOpenFile)
  else
    let serialized := writer.serializeToOstream filePath.toList symbols
    (Function.update files filePath.toList (some serialized.1),
      if serialized.2 then .ok () else .error .serializationError)

/-- The files after the pass, which ends the compilation if it cannot write the symbols. -/
def SymbolsFileWriter.writeBuild (writer : SymbolsFileWriter) (files : Files) (build : Build ι) :
    Option Files :=
  let written := writer.write files build.options.symbolsFilePath build.result.symbols
  written.2.toOption.map fun _ => written.1

/-- The parser gets the records of the pass back from what the writer made of them. -/
def SymbolsFileWriter.Keeps (writer : SymbolsFileWriter) (env : Environment) (path : Text)
    (symbols : Instrumentation.SymbolsTable) : Prop :=
  ∀ bytes, writer.serializeToOstream path symbols = (bytes, true) →
    ∃ table, env.parseSymbols bytes = some table ∧
      ∀ id, table.lookup id = (symbols.lookup id).map (·.map message)

section Writer

variable {writer : SymbolsFileWriter}

/-- A run of the pass that injects and does not end the compilation is a build. -/
theorem run_builds {env : Instrumentation.Environment} {options : Instrumentation.Options}
    {regexMatch : String → String → Option Bool}
    {read : String → Except String (List Instrumentation.Filters.Filter)} {files : Files}
    {m : Instrumentation.Module ι} {all : Bool}
    {functions : List (Instrumentation.Function (ι ⊕ Instrumentation.RuntimeCall))}
    (injects : options.injectInstrumentation = true)
    (finished : Instrumentation.run env options regexMatch read
      (fun path symbols => (writer.write files path symbols).2) m =
        some (.preserved all functions)) :
    ∃ build : Build ι, build.environment = env ∧ build.options = options ∧ build.source = m ∧
      build.result.functions = functions ∧
      ∃ files', writer.writeBuild files build = some files' := by
  simp only [Instrumentation.run, injects, Bool.not_true, Bool.false_eq_true, if_false] at finished
  cases listed : Instrumentation.fileFilters options read with
  | error message => simp [listed] at finished
  | ok filters =>
      simp only [listed, Option.map_eq_some_iff] at finished
      obtain ⟨result, returned, outcome⟩ := finished
      refine ⟨⟨env, options, _, m, result, returned⟩, rfl, rfl, rfl, ?_⟩
      cases writes : (writer.write files options.symbolsFilePath result.symbols).2 with
      | error error => simp [writes] at outcome
      | ok done =>
          simp only [writes, Instrumentation.RunResult.preserved.injEq] at outcome
          refine ⟨outcome.2, (writer.write files options.symbolsFilePath result.symbols).1, ?_⟩
          rw [SymbolsFileWriter.writeBuild, writes]
          rfl

theorem writeBuild_cases {files files' : Files} {build : Build ι}
    (written : writer.writeBuild files build = some files') :
    ∃ bytes, writer.serializeToOstream build.path build.result.symbols = (bytes, true) ∧
      files' = Function.update files build.path (some bytes) := by
  rw [SymbolsFileWriter.writeBuild, SymbolsFileWriter.write] at written
  by_cases opens : writer.isOpen build.options.symbolsFilePath.toList = true
  · simp only [opens, Bool.not_true, Bool.false_eq_true, if_false] at written
    cases all : (writer.serializeToOstream build.path build.result.symbols).2 with
    | false =>
        rw [Build.path] at all
        simp [all, Except.toOption] at written
    | true =>
        refine ⟨_, Prod.ext rfl all, ?_⟩
        rw [Build.path] at all ⊢
        simpa [all, Except.toOption, eq_comm] using written
  · simp [opens, Except.toOption] at written

/-- Builds with paths of their own leave each other's files alone. -/
theorem exec_writeBuild {builds : List (Build ι)} {files files' : Files}
    (apart : (builds.map Build.path).Nodup)
    (written : exec writer.writeBuild files builds = some files') :
    (∀ path, path ∉ builds.map Build.path → files' path = files path) ∧
      ∀ build ∈ builds, ∃ bytes, files' build.path = some bytes ∧
        writer.serializeToOstream build.path build.result.symbols = (bytes, true) := by
  induction builds generalizing files with
  | nil =>
      obtain rfl : files = files' := Option.some.inj written
      exact ⟨fun _ _ => rfl, fun _ listed => absurd listed List.not_mem_nil⟩
  | cons build builds ih =>
      rw [exec_cons] at written
      obtain ⟨next, taken, rest⟩ := Option.bind_eq_some_iff.mp written
      obtain ⟨bytes, serialized, rfl⟩ := writeBuild_cases taken
      obtain ⟨own, apart⟩ := List.nodup_cons.mp apart
      obtain ⟨kept, later⟩ := ih apart rest
      constructor
      · intro path other
        rw [List.map_cons, List.mem_cons, not_or] at other
        obtain ⟨differs, other⟩ := other
        rw [kept path other, Function.update_of_ne differs]
      · intro build' listed
        cases listed with
        | head => exact ⟨bytes, by rw [kept _ own, Function.update_self], serialized⟩
        | tail _ listed => exact later build' listed

end Writer

/-! ## What the tool reads -/

/-- The symbols file of the module is there with what the pass recorded. -/
def Build.KeptIn (build : Build ι) (env : Environment) (disk : Disk) : Prop :=
  ∃ table, symbolsAt env disk build.path = some table ∧
    ∀ id, table.lookup id = (build.result.symbols.lookup id).map (·.map message)

section Tool

variable {env : Environment} {disk : Disk}

/-- What was written is there to be read. -/
theorem keptIn_of_written {writer : SymbolsFileWriter} {builds : List (Build ι)}
    {files files' : Files} (apart : (builds.map Build.path).Nodup)
    (written : exec writer.writeBuild files builds = some files')
    (content : ∀ build ∈ builds, disk.content build.path = files' build.path)
    (keeps : ∀ build ∈ builds, writer.Keeps env build.path build.result.symbols) :
    ∀ build ∈ builds, build.KeptIn env disk := by
  intro build listed
  obtain ⟨bytes, there, serialized⟩ := (exec_writeBuild apart written).2 build listed
  obtain ⟨table, parses, lookups⟩ := keeps build listed bytes serialized
  refine ⟨table, ?_, lookups⟩
  rw [symbolsAt, readSymbols, content build listed, there]
  simp only [parses]
  rfl

theorem Build.KeptIn.values {build : Build ι} (kept : build.KeptIn env disk) (id : FunctionId) :
    ((symbolsAt env disk build.path).elim [] fun table => table.values id) =
      messagesOf build.result.symbols id := by
  obtain ⟨table, reads, lookups⟩ := kept
  rw [reads, Option.elim_some, MultiMap.values, lookups, messagesOf]
  cases build.result.symbols.lookup id <;> rfl

theorem Build.KeptIn.symbolsErrors {build : Build ι} (kept : build.KeptIn env disk) :
    symbolsErrors env disk build.path = [] := by
  obtain ⟨table, reads, -⟩ := kept
  rw [Tools.symbolsErrors]
  rw [symbolsAt] at reads
  cases result : readSymbols env disk build.path with
  | ok symbols => rfl
  | error error =>
      rw [result] at reads
      cases reads

/-- The files that are found are merged to the records of all modules. -/
theorem orderedInfos_mergedSymbols {files : List Text} {builds : List (Build ι)}
    (found : files.Perm (builds.map Build.path))
    (kept : ∀ build ∈ builds, build.KeptIn env disk)
    {records : Build ι → List (FunctionId × FunctionInfo)}
    (recorded : ∀ build id, messagesOf build.result.symbols id =
      MultiMap.valuesOf (records build) id) :
    (orderedInfos (mergedSymbols env disk files)).Perm (builds.flatMap records) := by
  apply MultiMap.perm_of_valuesOf
  intro id
  have complete := (orderedInfos_inOrder (mergedSymbols env disk files)).complete id
  rw [MultiMap.valuesOf, complete, values_mergedSymbols, MultiMap.valuesOf_flatMap]
  refine (found.flatMap_right _).trans (List.Perm.of_eq ?_)
  rw [List.flatMap_map]
  apply List.flatMap_congr
  intro build listed
  rw [(kept build listed).values, recorded]

/-- With readable symbols files the tool writes the table of the merged symbols. -/
theorem main_csv {config : Config} (format : outputFormatFromConfig config = .ok .spoorSymbolsCsv)
    (opens : env.openOutput config.outputFile = some disk) {sources paths : List Text}
    (given : sources ≠ []) (expands : expansion disk sources = some paths)
    (readable : ∀ path ∈ paths.eraseDups.filter disk.isSymbolsFile,
      symbolsErrors env disk path = []) :
    let table := csv env.timeFormat
      (mergedSymbols env disk (paths.eraseDups.filter disk.isSymbolsFile))
    main env config sources = some ⟨env.saves (.csv table), [], some (.csv table)⟩ := by
  have traces : paths.eraseDups.filter (disk.isTraceFile .spoorSymbolsCsv) = [] := by
    rw [List.filter_eq_nil_iff]
    intro path _
    simp [Disk.isTraceFile]
  have errors := List.flatMap_eq_nil_iff.mpr readable
  rw [main, if_neg given, opens]
  simp only [format, searchSources_eq, expands, Option.map_some, Option.bind_some, process, traces,
    readTraceFiles, List.foldlM_nil, errors]
  rfl

end Tool

/-! ## From the modules to the rows -/

/-- When the tool finds the symbols files that were written for the modules and no others,
    it writes one row for each of their functions with a body, in the order of the ids.
    The id that the calls of a function are logged with has a row with its name. -/
theorem build_becomes_csv (env : Environment) (config : Config) (disk : Disk)
    (format : outputFormatFromConfig config = .ok .spoorSymbolsCsv)
    (opens : env.openOutput config.outputFile = some disk) (sources paths : List Text)
    (given : sources ≠ []) (expands : expansion disk sources = some paths)
    (writer : SymbolsFileWriter) (files files' : Files) (builds : List (Build ι))
    (apart : (builds.map Build.path).Nodup)
    (written : exec writer.writeBuild files builds = some files')
    (keeps : ∀ build ∈ builds, writer.Keeps env build.path build.result.symbols)
    (content : ∀ build ∈ builds, disk.content build.path = files' build.path)
    (found : ∀ path, path ∈ paths ∧ disk.isSymbolsFile path = true ↔ path ∈ builds.map Build.path)
    (plain : ∀ build ∈ builds, ∀ body ∈ numbered build.source.functions 0, ∀ entry,
      build.RecordOf body entry → PlainTexts entry.2) :
    ∃ (text : Text) (infos : List (FunctionId × FunctionInfo))
      (records : Build ι → List (FunctionId × FunctionInfo)),
      main env config sources = some ⟨env.saves (.csv text), [], some (.csv text)⟩ ∧
      (text.splitOn '\n').map (·.splitOn kCsvDelimiter) =
        kSpoorSymbolsColumns :: infos.map (fun entry => csvRow env.timeFormat entry.1 entry.2) ∧
      infos.Pairwise (fun left right => left.1 ≤ right.1) ∧
      infos.Perm (builds.flatMap records) ∧
      (∀ build ∈ builds,
        List.Forall₂ build.RecordOf (numbered build.source.functions 0) (records build)) ∧
      ∀ build ∈ builds, ∀ position f, build.source.functions[position]? = some f →
        f.isDeclaration = false → ∃ info,
          (functionIdAt build.environment.moduleHash build.source.functions position, info) ∈
            infos ∧ info.linkageName = some f.name.toList := by
  choose records related recorded using fun build : Build ι => build.records
  have kept := keptIn_of_written apart written content keeps
  have listing : (paths.eraseDups.filter disk.isSymbolsFile).Perm (builds.map Build.path) := by
    rw [List.perm_ext_iff_of_nodup ((nodup_eraseDups paths).filter _) apart]
    intro path
    rw [List.mem_filter, List.mem_eraseDups, found]
  have merged := orderedInfos_mergedSymbols listing kept recorded
  have plainRows : ∀ entry ∈ orderedInfos (mergedSymbols env disk
      (paths.eraseDups.filter disk.isSymbolsFile)), PlainTexts entry.2 := by
    intro entry listed
    obtain ⟨build, inBuilds, inRecords⟩ := List.mem_flatMap.mp (merged.mem_iff.mp listed)
    obtain ⟨body, inBodies, isRecord⟩ := exists_of_mem_left (related build).flip inRecords
    exact plain build inBuilds body inBodies entry isRecord
  have named : ∀ build ∈ builds, ∀ position f, build.source.functions[position]? = some f →
      f.isDeclaration = false → ∃ info,
        (functionIdAt build.environment.moduleHash build.source.functions position, info) ∈
          orderedInfos (mergedSymbols env disk (paths.eraseDups.filter disk.isSymbolsFile)) ∧
        info.linkageName = some f.name.toList := by
    intro build inBuilds position f placed body
    obtain ⟨entry, inRecords, isRecord⟩ :=
      exists_of_mem_left (related build) (mem_numbered placed body)
    have inInfos := merged.mem_iff.mpr (List.mem_flatMap.mpr ⟨build, inBuilds, inRecords⟩)
    refine ⟨entry.2, ?_, isRecord.linkageName⟩
    rwa [functionIdAt, ← isRecord.1]
  refine ⟨_, _, records, ?_, splitOn_rows plainRows, (orderedInfos_inOrder _).ascending, merged,
    fun build _ => related build, named⟩
  refine main_csv format opens given expands ?_
  intro path listed
  obtain ⟨build, inBuilds, rfl⟩ := List.mem_map.mp (listing.mem_iff.mp listed)
  exact (kept build inBuilds).symbolsErrors

def sampleSymbolsOptions : Instrumentation.Options :=
  { sampleOptions with symbolsFilePath := "d/sample.spoor_symbols" }

def sampleBuild : Build String where
  environment := sampleEnvironment
  options := sampleSymbolsOptions
  decision _ := some ⟨true, none⟩
  source := sampleModule
  result := (instrumentModule sampleEnvironment sampleSymbolsOptions (fun _ => some ⟨true, none⟩)
    sampleModule).get rfl
  returned := (Option.some_get _).symm

/-- The id of its function `main`. -/
def sampleId : FunctionId := 0x89ABCDEF00000000

/-- The record of this function. -/
def sampleInfo : Instrumentation.FunctionInfo where
  moduleId := "sample.ll"
  linkageName := "main"
  demangledName := "main"
  fileName := none
  directory := none
  line := none
  irInstructionCount := 5
  instrumented := true
  instrumentedReason := none
  createdAt := ⟨0, 0⟩

/-- A directory with the symbols file of the module. -/
def sampleDisk : Disk where
  isRegularFile path := path = "d/sample.spoor_symbols".toList
  isDirectory path := path = "d".toList
  recursiveEntries path :=
    if path = "d".toList then some ["d/sample.spoor_symbols".toList] else none
  content path := if path = "d/sample.spoor_symbols".toList then some [1] else none

def sampleTable : SymbolsTable := AList.singleton sampleId [message sampleInfo]

def sampleToolEnvironment : Environment :=
  { threeFilesEnvironment with
    parseSymbols := fun content => if content = [1] then some sampleTable else none
    openOutput := fun _ => some sampleDisk }

/-- All files can be opened, and all symbols are written as one byte. -/
def sampleWriter : SymbolsFileWriter := ⟨fun _ => true, fun _ _ => ([1], true)⟩

theorem sampleWriter_keeps :
    sampleWriter.Keeps sampleToolEnvironment sampleBuild.path sampleBuild.result.symbols := by
  intro bytes serialized
  obtain rfl : [1] = bytes := congrArg Prod.fst serialized
  refine ⟨sampleTable, rfl, fun id => ?_⟩
  have recorded : sampleBuild.result.symbols = [(sampleId, [sampleInfo])] := by decide +kernel
  rw [recorded]
  by_cases same : id = sampleId
  · subst same
    rfl
  · rw [sampleTable, AList.lookup_eq_none.mpr]
    · have apart : (id == sampleId) = false := by simpa using same
      simp [List.lookup_cons, apart]
    · rwa [AList.mem_keys, AList.keys_singleton, List.mem_singleton]

theorem plainTexts_sampleInfo : PlainTexts (message sampleInfo) := by
  simp only [PlainTexts, textColumns, List.forall_mem_cons]
  decide

theorem build_becomes_csv_sampleBuild :
    ∃ (text : Text) (infos : List (FunctionId × FunctionInfo))
      (records : Build String → List (FunctionId × FunctionInfo)),
      main sampleToolEnvironment ⟨"out.csv".toList, .automatic⟩ ["d".toList] =
        some ⟨true, [], some (.csv text)⟩ ∧
      (text.splitOn '\n').map (·.splitOn kCsvDelimiter) = kSpoorSymbolsColumns ::
        infos.map (fun entry => csvRow epochFormat entry.1 entry.2) ∧
      infos.Pairwise (fun left right => left.1 ≤ right.1) ∧
      infos.Perm ([sampleBuild].flatMap records) ∧
      (∀ build ∈ [sampleBuild],
        List.Forall₂ build.RecordOf (numbered build.source.functions 0) (records build)) ∧
      ∀ build ∈ [sampleBuild], ∀ position f, build.source.functions[position]? = some f →
        f.isDeclaration = false → ∃ info,
          (functionIdAt build.environment.moduleHash build.source.functions position, info) ∈
            infos ∧ info.linkageName = some f.name.toList := by
  refine build_becomes_csv sampleToolEnvironment _ sampleDisk (by decide) rfl _
    ["d/sample.spoor_symbols".toList] (List.cons_ne_nil _ _) (by decide) sampleWriter
    (fun _ => none) _ [sampleBuild] (List.nodup_singleton _) rfl ?_ ?_ ?_ ?_
  · intro build listed
    obtain rfl := List.mem_singleton.mp listed
    exact sampleWriter_keeps
  · intro build listed
    obtain rfl := List.mem_singleton.mp listed
    rfl
  · intro path
    have listed : [sampleBuild].map Build.path = ["d/sample.spoor_symbols".toList] := rfl
    rw [listed, List.mem_singleton, and_iff_left_iff_imp]
    rintro rfl
    decide
  · intro build listed body inBodies entry isRecord
    obtain rfl := List.mem_singleton.mp listed
    have bodies : numbered sampleBuild.source.functions 0 = [(sampleMain, 0)] := rfl
    rw [bodies, List.mem_singleton] at inBodies
    subst inBodies
    have described : describe sampleEnvironment sampleBuild.decision "sample.ll" (BitVec.ofNat 64 0)
        sampleMain = some sampleInfo := by decide +kernel
    have same : some (message sampleInfo) = some entry.2 :=
      (congrArg (Option.map message) described).symm.trans isRecord.2
    rw [← Option.some.inj same]
    exact plainTexts_sampleInfo

end Spoor.Tools
