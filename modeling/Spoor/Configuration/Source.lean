import Mathlib.Algebra.Order.Ring.Int
import Mathlib.Data.List.DropRight
import Spoor.Configuration.PathExpansion
import Spoor.Lib.Toml
import Spoor.Trace.Trace

/-! # Sources of the runtime's configuration

The configuration comes from the environment and from a file.  A source is read
at a time, as well as it goes: a value that is missing or cannot be parsed leaves
its field without value, and the others are read all the same.  A file that
cannot be opened or is malformed leaves all of them as they were.
-/

namespace Spoor.Configuration

open Lib.Path Lib.Toml Trace

/-- The number parsers, each with the outcome it has on a text. -/
structure NumberParsers where
  simpleAtoi : (low high : Int) → Text → Option Int
  simpleAtob : Text → Option Bool

inductive ReadErrorType where
  | failedToOpenFile
  | malformedFile
  | unknownKey
  | unknownValue
  deriving Repr, DecidableEq

structure ReadError where
  type : ReadErrorType
  message : String
  deriving Repr, DecidableEq

/-- The values a source has for the fields of the configuration. -/
structure Values where
  traceFilePath : Option Text
  compressionStrategy : Option CompressionStrategy
  sessionId : Option Int
  threadEventBufferCapacity : Option Int
  maxReservedEventBufferSliceCapacity : Option Int
  maxDynamicEventBufferSliceCapacity : Option Int
  reservedEventPoolCapacity : Option Int
  dynamicEventPoolCapacity : Option Int
  dynamicEventSliceBorrowCasAttempts : Option Int
  eventBufferRetentionDurationNanoseconds : Option Int
  maxFlushBufferToFileAttempts : Option Int
  flushAllEvents : Option Bool

def Values.missing : Values :=
  ⟨none, none, none, none, none, none, none, none, none, none, none, none⟩

/-! ## Parsing -/

def isAsciiSpace (c : Char) : Bool :=
  c = ' ' || c = '\t' || c = '\n' || c = '\x0b' || c = '\x0c' || c = '\r'

/-- `absl::StripAsciiWhitespace`. -/
def stripAsciiWhitespace (text : Text) : Text :=
  (text.dropWhile isAsciiSpace).rdropWhile isAsciiSpace

/-- `absl::AsciiStrToLower`. -/
def asciiStrToLower (text : Text) : Text := text.map Char.toLower

def kStrategyMap : List (Text × CompressionStrategy) :=
  [("none".toList, .none), ("snappy".toList, .snappy)]

def uint64Max : Int := 2 ^ 64 - 1
def int64Min : Int := -2 ^ 63
def int64Max : Int := 2 ^ 63 - 1
def int32Min : Int := -2 ^ 31
def int32Max : Int := 2 ^ 31 - 1

section Environment

variable (parsers : NumberParsers)

/-- `GetEnv` of a number. -/
def getEnvInteger (low high : Int) (key : Text) (env : Environment) : Option (Except Unit Int) :=
  (env key).map fun userValue =>
    match parsers.simpleAtoi low high userValue with
    | some value => .ok value
    | none => .error ()

/-- `GetEnv` of a truth value. -/
def getEnvBoolean (key : Text) (env : Environment) : Option (Except Unit Bool) :=
  (env key).map fun userValue =>
    match parsers.simpleAtob (asciiStrToLower (stripAsciiWhitespace userValue)) with
    | some value => .ok value
    | none => .error ()

/-- `GetEnv` of a key of a map. -/
def getEnvMapped {α : Type} (valueMap : List (Text × α)) (normalize : Bool) (key : Text)
    (env : Environment) : Option (Except Unit α) :=
  (env key).map fun userKey =>
    let normalizedKey :=
      if normalize then asciiStrToLower (stripAsciiWhitespace userKey) else userKey
    match valueMap.lookup normalizedKey with
    | some value => .ok value
    | none => .error ()

def cannotParse (key : String) : ReadError :=
  ⟨.unknownValue, "Cannot parse value for key \"" ++ key ++ "\"."⟩

/-- `ReadConfig` of the environment, with the errors it adds. -/
def readEnvConfig {α : Type} (key : String) (env : Environment)
    (getEnv : Text → Environment → Option (Except Unit α)) : Option α × List ReadError :=
  match getEnv key.toList env with
  | none => (none, [])
  | some (.error _) => (none, [cannotParse key])
  | some (.ok value) => (some value, [])

def kTraceFilePathEnvKey : String := "SPOOR_RUNTIME_TRACE_FILE_PATH"
def kCompressionStrategyEnvKey : String := "SPOOR_RUNTIME_COMPRESSION_STRATEGY"
def kSessionIdEnvKey : String := "SPOOR_RUNTIME_SESSION_ID"
def kThreadEventBufferCapacityEnvKey : String := "SPOOR_RUNTIME_THEAD_EVENT_BUFFER_CAPACITY"
def kMaxReservedEventBufferSliceCapacityEnvKey : String :=
  "SPOOR_RUNTIME_MAX_RESERVED_EVENT_BUFFER_SLICE_CAPACITY"
def kMaxDynamicEventBufferSliceCapacityEnvKey : String :=
  "SPOOR_RUNTIME_MAX_DYNAMIC_EVENT_BUFFER_SLICE_CAPACITY"
def kReservedEventPoolCapacityEnvKey : String := "SPOOR_RUNTIME_RESERVED_EVENT_POOL_CAPACITY"
def kDynamicEventPoolCapacityEnvKey : String := "SPOOR_RUNTIME_DYNAMIC_EVENT_POOL_CAPACITY"
def kDynamicEventSliceBorrowCasAttemptsEnvKey : String :=
  "SPOOR_RUNTIME_DYNAMIC_EVENT_SLICE_BORROW_CAS_ATTEMPTS"
def kEventBufferRetentionDurationNanosecondsEnvKey : String :=
  "SPOOR_RUNTIME_EVENT_BUFFER_RETENTION_DURATION_NANOSECONDS"
def kMaxFlushBufferToFileAttemptsEnvKey : String :=
  "SPOOR_RUNTIME_MAX_FLUSH_BUFFER_TO_FILE_ATTEMPTS"
def kFlushAllEventsEnvKey : String := "SPOOR_RUNTIME_FLUSH_ALL_EVENTS"

/-- `EnvSource::Read`. -/
def readEnv (env : Environment) : Values × List ReadError :=
  let traceFilePath := readEnvConfig kTraceFilePathEnvKey env fun key => getEnv key true
  let compressionStrategy :=
    readEnvConfig kCompressionStrategyEnvKey env (getEnvMapped kStrategyMap true)
  let sessionId := readEnvConfig kSessionIdEnvKey env (getEnvInteger parsers 0 uint64Max)
  let threadEventBufferCapacity :=
    readEnvConfig kThreadEventBufferCapacityEnvKey env (getEnvInteger parsers 0 uint64Max)
  let maxReservedEventBufferSliceCapacity :=
    readEnvConfig kMaxReservedEventBufferSliceCapacityEnvKey env
      (getEnvInteger parsers 0 uint64Max)
  let maxDynamicEventBufferSliceCapacity :=
    readEnvConfig kMaxDynamicEventBufferSliceCapacityEnvKey env
      (getEnvInteger parsers 0 uint64Max)
  let reservedEventPoolCapacity :=
    readEnvConfig kReservedEventPoolCapacityEnvKey env (getEnvInteger parsers 0 uint64Max)
  let dynamicEventPoolCapacity :=
    readEnvConfig kDynamicEventPoolCapacityEnvKey env (getEnvInteger parsers 0 uint64Max)
  let dynamicEventSliceBorrowCasAttempts :=
    readEnvConfig kDynamicEventSliceBorrowCasAttemptsEnvKey env
      (getEnvInteger parsers 0 uint64Max)
  let eventBufferRetentionDurationNanoseconds :=
    readEnvConfig kEventBufferRetentionDurationNanosecondsEnvKey env
      (getEnvInteger parsers int64Min int64Max)
  let maxFlushBufferToFileAttempts :=
    readEnvConfig kMaxFlushBufferToFileAttemptsEnvKey env
      (getEnvInteger parsers int32Min int32Max)
  let flushAllEvents := readEnvConfig kFlushAllEventsEnvKey env (getEnvBoolean parsers)
  ({ traceFilePath := traceFilePath.1
     compressionStrategy := compressionStrategy.1
     sessionId := sessionId.1
     threadEventBufferCapacity := threadEventBufferCapacity.1
     maxReservedEventBufferSliceCapacity := maxReservedEventBufferSliceCapacity.1
     maxDynamicEventBufferSliceCapacity := maxDynamicEventBufferSliceCapacity.1
     reservedEventPoolCapacity := reservedEventPoolCapacity.1
     dynamicEventPoolCapacity := dynamicEventPoolCapacity.1
     dynamicEventSliceBorrowCasAttempts := dynamicEventSliceBorrowCasAttempts.1
     eventBufferRetentionDurationNanoseconds := eventBufferRetentionDurationNanoseconds.1
     maxFlushBufferToFileAttempts := maxFlushBufferToFileAttempts.1
     flushAllEvents := flushAllEvents.1 },
    traceFilePath.2 ++ compressionStrategy.2 ++ sessionId.2 ++ threadEventBufferCapacity.2 ++
      maxReservedEventBufferSliceCapacity.2 ++ maxDynamicEventBufferSliceCapacity.2 ++
      reservedEventPoolCapacity.2 ++ dynamicEventPoolCapacity.2 ++
      dynamicEventSliceBorrowCasAttempts.2 ++ eventBufferRetentionDurationNanoseconds.2 ++
      maxFlushBufferToFileAttempts.2 ++ flushAllEvents.2)

end Environment

section ConfigFile

variable {β : Type} (conversions : Conversions β)

/-- `ReadConfig` of a table, with the errors it adds. -/
def readFileConfig {α : Type} (table : Table β) (key : String) (value : Node β → Option α) :
    Option α × List ReadError :=
  match table.get key with
  | none => (none, [])
  | some node =>
      match value node with
      | none => (none, [cannotParse key])
      | some value => (some value, [])

def kTraceFilePathFileKey : String := "trace_file_path"
def kCompressionStrategyFileKey : String := "compression_strategy"
def kSessionIdFileKey : String := "session_id"
def kThreadEventBufferCapacityFileKey : String := "thread_event_buffer_capacity"
def kMaxReservedEventBufferSliceCapacityFileKey : String :=
  "max_reserved_event_buffer_slice_capacity"
def kMaxDynamicEventBufferSliceCapacityFileKey : String :=
  "max_dynamic_event_buffer_slice_capacity"
def kReservedEventPoolCapacityFileKey : String := "reserved_event_pool_capacity"
def kDynamicEventPoolCapacityFileKey : String := "dynamic_event_pool_capacity"
def kDynamicEventSliceBorrowCasAttemptsFileKey : String :=
  "dynamic_event_slice_borrow_cas_attempts"
def kEventBufferRetentionDurationNanosecondsFileKey : String :=
  "event_buffer_retention_duration_nanoseconds"
def kMaxFlushBufferToFileAttemptsFileKey : String := "max_flush_buffer_to_file_attempts"
def kFlushAllEventsFileKey : String := "flush_all_events"

def kFileConfigKeys : List String :=
  [kTraceFilePathFileKey, kCompressionStrategyFileKey, kSessionIdFileKey,
    kThreadEventBufferCapacityFileKey, kMaxReservedEventBufferSliceCapacityFileKey,
    kMaxDynamicEventBufferSliceCapacityFileKey, kReservedEventPoolCapacityFileKey,
    kDynamicEventPoolCapacityFileKey, kDynamicEventSliceBorrowCasAttemptsFileKey,
    kEventBufferRetentionDurationNanosecondsFileKey, kMaxFlushBufferToFileAttemptsFileKey,
    kFlushAllEventsFileKey]

def unknownKeys (table : Table β) : List ReadError :=
  (table.filter fun entry => entry.1 ∉ kFileConfigKeys).map fun entry =>
    ⟨.unknownKey, "Unknown key \"" ++ entry.1 ++ "\"."⟩

def readCompressionStrategy (table : Table β) : Option CompressionStrategy × List ReadError :=
  let userValue := readFileConfig table kCompressionStrategyFileKey (·.value conversions.text)
  match userValue.1 with
  | none => (none, userValue.2)
  | some value =>
      match kStrategyMap.lookup (asciiStrToLower (stripAsciiWhitespace value.toList)) with
      | some strategy => (some strategy, userValue.2)
      | none =>
          (none,
            userValue.2 ++ [⟨.unknownValue, "Unknown compression strategy \"" ++ value ++ "\"."⟩])

/-- `FileSource::Read`, once the table is parsed. -/
def readTable (table : Table β) : Values × List ReadError :=
  let size := Node.integerValue conversions 0 uint64Max
  let traceFilePath := readFileConfig table kTraceFilePathFileKey (·.value conversions.text)
  let compressionStrategy := readCompressionStrategy conversions table
  let sessionId := readFileConfig table kSessionIdFileKey size
  let threadEventBufferCapacity := readFileConfig table kThreadEventBufferCapacityFileKey size
  let maxReservedEventBufferSliceCapacity :=
    readFileConfig table kMaxReservedEventBufferSliceCapacityFileKey size
  let maxDynamicEventBufferSliceCapacity :=
    readFileConfig table kMaxDynamicEventBufferSliceCapacityFileKey size
  let reservedEventPoolCapacity := readFileConfig table kReservedEventPoolCapacityFileKey size
  let dynamicEventPoolCapacity := readFileConfig table kDynamicEventPoolCapacityFileKey size
  let dynamicEventSliceBorrowCasAttempts :=
    readFileConfig table kDynamicEventSliceBorrowCasAttemptsFileKey size
  let eventBufferRetentionDurationNanoseconds :=
    readFileConfig table kEventBufferRetentionDurationNanosecondsFileKey
      (Node.integerValue conversions int64Min int64Max)
  let maxFlushBufferToFileAttempts :=
    readFileConfig table kMaxFlushBufferToFileAttemptsFileKey
      (Node.integerValue conversions int32Min int32Max)
  let flushAllEvents := readFileConfig table kFlushAllEventsFileKey (·.value conversions.boolean)
  ({ traceFilePath := traceFilePath.1.map String.toList
     compressionStrategy := compressionStrategy.1
     sessionId := sessionId.1
     threadEventBufferCapacity := threadEventBufferCapacity.1
     maxReservedEventBufferSliceCapacity := maxReservedEventBufferSliceCapacity.1
     maxDynamicEventBufferSliceCapacity := maxDynamicEventBufferSliceCapacity.1
     reservedEventPoolCapacity := reservedEventPoolCapacity.1
     dynamicEventPoolCapacity := dynamicEventPoolCapacity.1
     dynamicEventSliceBorrowCasAttempts := dynamicEventSliceBorrowCasAttempts.1
     eventBufferRetentionDurationNanoseconds := eventBufferRetentionDurationNanoseconds.1
     maxFlushBufferToFileAttempts := maxFlushBufferToFileAttempts.1
     flushAllEvents := flushAllEvents.1 },
    unknownKeys table ++ traceFilePath.2 ++ compressionStrategy.2 ++ sessionId.2 ++
      threadEventBufferCapacity.2 ++ maxReservedEventBufferSliceCapacity.2 ++
      maxDynamicEventBufferSliceCapacity.2 ++ reservedEventPoolCapacity.2 ++
      dynamicEventPoolCapacity.2 ++ dynamicEventSliceBorrowCasAttempts.2 ++
      eventBufferRetentionDurationNanoseconds.2 ++ maxFlushBufferToFileAttempts.2 ++
      flushAllEvents.2)

end ConfigFile

/-! ## Sources -/

/-- What a source is read from. -/
inductive Origin (β : Type) where
  | env (getEnv : Environment)
  | file (filePath : String) (file : Lib.Toml.File β)

/-- `reads` counts the calls of `Read`. -/
structure Source (β : Type) where
  origin : Origin β
  isRead : Bool
  values : Values
  reads : Nat

/-- A source as it is constructed. -/
def Source.unread {β : Type} (origin : Origin β) : Source β := ⟨origin, false, .missing, 0⟩

section Read

variable {β : Type} (parsers : NumberParsers) (conversions : Conversions β)

/-- The values after a read, and the errors of the read. -/
def readOrigin (values : Values) : Origin β → Values × List ReadError
  | .env env => readEnv parsers env
  | .file filePath .unopened =>
      (values, [⟨.failedToOpenFile, "Failed to open the file \"" ++ filePath ++ "\" for reading."⟩])
  | .file _ (.malformed description) => (values, [⟨.malformedFile, description⟩])
  | .file _ (.parsed table) => readTable conversions table

def Source.read (source : Source β) : Source β × List ReadError :=
  let outcome := readOrigin parsers conversions source.values source.origin
  ({ source with isRead := true, values := outcome.1, reads := source.reads + 1 }, outcome.2)

end Read

end Spoor.Configuration
