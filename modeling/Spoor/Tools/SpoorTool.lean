import Mathlib.Data.List.Perm.Basic
import Spoor.Perfetto.Packets
import Spoor.Symbols.Csv
import Spoor.Trace.TraceFile

/-! # The command line tool

`spoor` searches the paths it is given for trace files and symbols files, reads what
it finds and writes one trace, or the merged symbols, to the output file.  A file that
cannot be read is reported and left out.

What comes from outside the repository enters as `Environment`: the files, the parser
of the symbols messages and the order in which `std::sort` leaves equal elements.  An
exception ends the program, which then has no outcome.  Texts hold one character for
each byte.
-/

namespace Spoor.Tools

open Lib.ByteOrder Symbols Trace

/-! ## The output format -/

namespace Config

/-- The option `--output_format`. -/
inductive OutputFormat where
  | automatic
  | perfettoProto
  | spoorSymbolsProto
  | spoorSymbolsCsv
  deriving Repr, DecidableEq

end Config

structure Config where
  outputFile : Text
  outputFormat : Config.OutputFormat
  deriving Repr, DecidableEq

inductive OutputFormat where
  | perfettoProto
  | spoorSymbolsProto
  | spoorSymbolsCsv
  deriving Repr, DecidableEq

inductive OutputFormatFromConfigError where
  | unknownFileExtension
  deriving Repr, DecidableEq

def kTraceFileExtension : Text := "spoor_trace".toList

def kSymbolsFileExtension : Text := "spoor_symbols".toList

def kPerfettoFileExtension : Text := "perfetto".toList

def kCsvFileExtension : Text := "csv".toList

/-- `std::filesystem::path::filename`. -/
def filename (path : Text) : Text := (path.reverse.takeWhile (· ≠ '/')).reverse

/-- `std::filesystem::path::extension`: the filename from its last dot on, unless that
    is its first character. -/
def extension (path : Text) : Text :=
  let name := filename path
  if name = ['.'] ∨ name = ['.', '.'] then []
  else
    match name.reverse.dropWhile (· ≠ '.') with
    | _ :: _ :: _ => '.' :: (name.reverse.takeWhile (· ≠ '.')).reverse
    | _ => []

def outputFormatFromConfig (config : Config) : Except OutputFormatFromConfigError OutputFormat :=
  match config.outputFormat with
  | .automatic =>
      if extension config.outputFile = '.' :: kPerfettoFileExtension then .ok .perfettoProto
      else if extension config.outputFile = '.' :: kSymbolsFileExtension then .ok .spoorSymbolsProto
      else if extension config.outputFile = '.' :: kCsvFileExtension then .ok .spoorSymbolsCsv
      else .error .unknownFileExtension
  | .perfettoProto => .ok .perfettoProto
  | .spoorSymbolsProto => .ok .spoorSymbolsProto
  | .spoorSymbolsCsv => .ok .spoorSymbolsCsv

/-! ## The environment -/

/-- What the program finds under a path.  A test that fails with an error counts as
    false; going through a directory has no result if it throws. -/
structure Disk where
  isRegularFile : Text → Bool
  isDirectory : Text → Bool
  recursiveEntries : Text → Option (List Text)
  content : Text → Option (List Byte)

/-- `lhs.header.steady_clock_timestamp < rhs.header.steady_clock_timestamp`, of signed
    timestamps, does not hold the other way round. -/
def EarlierOrSame (lhs rhs : TraceFile) : Prop :=
  lhs.header.steadyClockTimestamp.toInt ≤ rhs.header.steadyClockTimestamp.toInt

/-- `std::sort` by the time of the steady clock. -/
structure Sorting where
  sort : List TraceFile → List TraceFile
  perm : ∀ files, (sort files).Perm files
  sorted : ∀ files, (sort files).Pairwise EarlierOrSame

/-- The messages the tool writes, each to an empty stream. -/
inductive Output where
  | trace (trace : Perfetto.PerfettoTrace)
  | symbols (table : SymbolsTable)
  | csv (text : Text)

/-- `openOutput` is about opening the output file, which makes an empty file of it: the
    files after it, or nothing if it fails.  `saves` says whether the stream takes what
    is written to it. -/
structure Environment where
  host : Order
  snappy : Snappy
  parseSymbols : List Byte → Option SymbolsTable
  trackUuid : BitVec 64 → BitVec 64 → BitVec 64
  timeFormat : TimeFormat
  sorting : Sorting
  openOutput : Text → Option Disk
  saves : Output → Bool

/-! ## Searching -/

/-- The search as it stands between two paths. -/
structure Search where
  visited : List Text
  traceFilePaths : List Text
  symbolsFilePaths : List Text
  deriving Repr, DecidableEq

def Search.start : Search := ⟨[], [], []⟩

/-- The lambda `visit_file`. -/
def visitFile (disk : Disk) (format : OutputFormat) (search : Search) (path : Text) : Search :=
  if search.visited.contains path then search
  else if !disk.isRegularFile path then { search with visited := path :: search.visited }
  else
    { visited := path :: search.visited
      traceFilePaths :=
        if format = .perfettoProto ∧ extension path = '.' :: kTraceFileExtension then
          search.traceFilePaths ++ [path]
        else search.traceFilePaths
      symbolsFilePaths :=
        if extension path = '.' :: kSymbolsFileExtension then search.symbolsFilePaths ++ [path]
        else search.symbolsFilePaths }

/-- One round of the loop over the input sources. -/
def visitSource (disk : Disk) (format : OutputFormat) (search : Search) (path : Text) :
    Option Search :=
  if disk.isDirectory path then
    (disk.recursiveEntries path).map fun entries => entries.foldl (visitFile disk format) search
  else some (visitFile disk format search path)

def searchSources (disk : Disk) (format : OutputFormat) (sources : List Text) : Option Search :=
  sources.foldlM (visitSource disk format) .start

/-! ## Reading -/

/-- A path on the way to a stream, which quotes it. -/
def quoted (path : Text) : Text :=
  '"' :: path.flatMap (fun c => if c = '"' ∨ c = '\\' then ['\\', c] else [c]) ++ ['"']

/-- The cases of the switch have no `break`, so each one goes on to those behind it. -/
def traceFileErrors (path : Text) (error : ReadError) : List Text :=
  let opening := "error:: Failed to open the trace file ".toList ++ quoted path ++ ".\n".toList
  let version := "error: Failed to parse the trace file ".toList ++ quoted path ++
    ". Unknown version.\n".toList
  let corrupt := "error: Failed to parse the trace file ".toList ++ quoted path ++
    ". The file is corrupt.\n".toList
  match error with
  | .failedToOpenFile => [opening, version, corrupt]
  | .unknownVersion => [version, corrupt]
  | .corruptData => [corrupt]

inductive SymbolsReadError where
  | failedToOpenFile
  | corruptData
  deriving Repr, DecidableEq

def symbolsFileErrors (path : Text) (error : SymbolsReadError) : List Text :=
  let opening := "error: Failed to open the trace symbols file ".toList ++ quoted path ++
    ".\n".toList
  let corrupt := "error: Failed to parse the symbols file ".toList ++ quoted path ++
    ". The file is corrupt.\n".toList
  match error with
  | .failedToOpenFile => [opening, corrupt]
  | .corruptData => [corrupt]

section Main

variable (env : Environment)

/-- One round of the loop over the trace files, with the errors written so far. -/
def readTraceFile (disk : Disk) (progress : List TraceFile × List Text) (path : Text) :
    Option (List TraceFile × List Text) :=
  (read env.host env.snappy (disk.content path)).map fun
    | .ok file => (progress.1 ++ [file], progress.2)
    | .error error => (progress.1, progress.2 ++ traceFileErrors path error)

def readTraceFiles (disk : Disk) (paths : List Text) : Option (List TraceFile × List Text) :=
  paths.foldlM (readTraceFile env disk) ([], [])

/-- `SymbolsFileReader::Read`. -/
def readSymbols (disk : Disk) (path : Text) : Except SymbolsReadError SymbolsTable :=
  match disk.content path with
  | none => .error .failedToOpenFile
  | some content =>
      match env.parseSymbols content with
      | some symbols => .ok symbols
      | none => .error .corruptData

def symbolsErrors (disk : Disk) (path : Text) : List Text :=
  match readSymbols env disk path with
  | .ok _ => []
  | .error error => symbolsFileErrors path error

/-! ## The program -/

/-- What the adapter reads of the symbols. -/
def spoorFunctionInfo (info : FunctionInfo) : Perfetto.SpoorFunctionInfo where
  linkageName := info.linkageName.map String.ofList
  demangledName := info.demangledName.map String.ofList
  fileName := info.fileName.map String.ofList
  directory := info.directory.map String.ofList
  line := info.line

def perfettoTable (symbols : SymbolsTable) : Perfetto.SymbolsTable where
  entries := symbols.entries.map fun entry => (entry.1, entry.2.map spoorFunctionInfo)
  distinct := by
    rw [List.map_map]
    exact symbols.nodupKeys

/-- What `SerializeToOstream` writes. -/
def serialize (files : List TraceFile) (symbols : SymbolsTable) : OutputFormat → Output
  | .perfettoProto =>
      .trace (Perfetto.spoorTraceToPerfettoTrace env.trackUuid files (perfettoTable symbols))
  | .spoorSymbolsProto => .symbols symbols
  | .spoorSymbolsCsv => .csv (csv env.timeFormat symbols)

structure Outcome where
  success : Bool
  errors : List Text
  output : Option Output

def usage : Text := "error: Expected at least one input source.\n\n".toList

def cannotOpenOutput (path : Text) : Text :=
  "error: Failed to open the output file \"".toList ++ path ++ "\".\n".toList

def cannotInferFormat : Text :=
  "error: Cannot infer the output format from the output file's extension.\n".toList

/-- The paths that were found, read and written in the format. -/
def process (disk : Disk) (format : OutputFormat) (search : Search) : Option Outcome :=
  (readTraceFiles env disk search.traceFilePaths).map fun progress =>
    let symbols := loadSymbols (search.symbolsFilePaths.map (readSymbols env disk))
    let output := serialize env (env.sorting.sort progress.1) symbols format
    ⟨env.saves output, progress.2 ++ search.symbolsFilePaths.flatMap (symbolsErrors env disk),
      some output⟩

/-- `main`, from the parsed options and input sources on. -/
def main (config : Config) (sources : List Text) : Option Outcome :=
  if sources = [] then some ⟨false, [usage], none⟩
  else
    match env.openOutput config.outputFile with
    | none => some ⟨false, [cannotOpenOutput config.outputFile], none⟩
    | some disk =>
        match outputFormatFromConfig config with
        | .error .unknownFileExtension => some ⟨false, [cannotInferFormat], none⟩
        | .ok format => (searchSources disk format sources).bind (process env disk format)

end Main

end Spoor.Tools
