import Mathlib.Data.List.Nodup
import Spoor.Configuration.Config

/-! # Precedence of the sources

A field has the value of the first source that has a valid one, whatever becomes
of the other fields.  No source is read twice.
-/

namespace Spoor.Configuration

open Lib.Path Lib.Toml Trace

inductive Field where
  | traceFilePath
  | compressionStrategy
  | sessionId
  | threadEventBufferCapacity
  | maxReservedEventBufferSliceCapacity
  | maxDynamicEventBufferSliceCapacity
  | reservedEventPoolCapacity
  | dynamicEventPoolCapacity
  | dynamicEventSliceBorrowCasAttempts
  | eventBufferRetentionDurationNanoseconds
  | maxFlushBufferToFileAttempts
  | flushAllEvents
  deriving DecidableEq

namespace Field

def envKey : Field → String
  | traceFilePath => kTraceFilePathEnvKey
  | compressionStrategy => kCompressionStrategyEnvKey
  | sessionId => kSessionIdEnvKey
  | threadEventBufferCapacity => kThreadEventBufferCapacityEnvKey
  | maxReservedEventBufferSliceCapacity => kMaxReservedEventBufferSliceCapacityEnvKey
  | maxDynamicEventBufferSliceCapacity => kMaxDynamicEventBufferSliceCapacityEnvKey
  | reservedEventPoolCapacity => kReservedEventPoolCapacityEnvKey
  | dynamicEventPoolCapacity => kDynamicEventPoolCapacityEnvKey
  | dynamicEventSliceBorrowCasAttempts => kDynamicEventSliceBorrowCasAttemptsEnvKey
  | eventBufferRetentionDurationNanoseconds => kEventBufferRetentionDurationNanosecondsEnvKey
  | maxFlushBufferToFileAttempts => kMaxFlushBufferToFileAttemptsEnvKey
  | flushAllEvents => kFlushAllEventsEnvKey

def fileKey : Field → String
  | traceFilePath => kTraceFilePathFileKey
  | compressionStrategy => kCompressionStrategyFileKey
  | sessionId => kSessionIdFileKey
  | threadEventBufferCapacity => kThreadEventBufferCapacityFileKey
  | maxReservedEventBufferSliceCapacity => kMaxReservedEventBufferSliceCapacityFileKey
  | maxDynamicEventBufferSliceCapacity => kMaxDynamicEventBufferSliceCapacityFileKey
  | reservedEventPoolCapacity => kReservedEventPoolCapacityFileKey
  | dynamicEventPoolCapacity => kDynamicEventPoolCapacityFileKey
  | dynamicEventSliceBorrowCasAttempts => kDynamicEventSliceBorrowCasAttemptsFileKey
  | eventBufferRetentionDurationNanoseconds => kEventBufferRetentionDurationNanosecondsFileKey
  | maxFlushBufferToFileAttempts => kMaxFlushBufferToFileAttemptsFileKey
  | flushAllEvents => kFlushAllEventsFileKey

def all : List Field :=
  [traceFilePath, compressionStrategy, sessionId, threadEventBufferCapacity,
    maxReservedEventBufferSliceCapacity, maxDynamicEventBufferSliceCapacity,
    reservedEventPoolCapacity, dynamicEventPoolCapacity, dynamicEventSliceBorrowCasAttempts,
    eventBufferRetentionDurationNanoseconds, maxFlushBufferToFileAttempts, flushAllEvents]

theorem mem_all (field : Field) : field ∈ all := by
  cases field <;> decide

theorem nodup_envKeys : (all.map envKey).Nodup := by decide +kernel

theorem nodup_fileKeys : (all.map fileKey).Nodup := by decide +kernel

theorem envKey_inj {a b : Field} (same : a.envKey = b.envKey) : a = b :=
  List.inj_on_of_nodup_map nodup_envKeys (mem_all a) (mem_all b) same

theorem fileKey_inj {a b : Field} (same : a.fileKey = b.fileKey) : a = b :=
  List.inj_on_of_nodup_map nodup_fileKeys (mem_all a) (mem_all b) same

end Field

/-- The sources have the same value for the field. -/
def Values.SameAt (a b : Values) : Field → Prop
  | .traceFilePath => a.traceFilePath = b.traceFilePath
  | .compressionStrategy => a.compressionStrategy = b.compressionStrategy
  | .sessionId => a.sessionId = b.sessionId
  | .threadEventBufferCapacity => a.threadEventBufferCapacity = b.threadEventBufferCapacity
  | .maxReservedEventBufferSliceCapacity =>
      a.maxReservedEventBufferSliceCapacity = b.maxReservedEventBufferSliceCapacity
  | .maxDynamicEventBufferSliceCapacity =>
      a.maxDynamicEventBufferSliceCapacity = b.maxDynamicEventBufferSliceCapacity
  | .reservedEventPoolCapacity => a.reservedEventPoolCapacity = b.reservedEventPoolCapacity
  | .dynamicEventPoolCapacity => a.dynamicEventPoolCapacity = b.dynamicEventPoolCapacity
  | .dynamicEventSliceBorrowCasAttempts =>
      a.dynamicEventSliceBorrowCasAttempts = b.dynamicEventSliceBorrowCasAttempts
  | .eventBufferRetentionDurationNanoseconds =>
      a.eventBufferRetentionDurationNanoseconds = b.eventBufferRetentionDurationNanoseconds
  | .maxFlushBufferToFileAttempts =>
      a.maxFlushBufferToFileAttempts = b.maxFlushBufferToFileAttempts
  | .flushAllEvents => a.flushAllEvents = b.flushAllEvents

def Config.SameAt (a b : Config) : Field → Prop
  | .traceFilePath => a.traceFilePath = b.traceFilePath
  | .compressionStrategy => a.compressionStrategy = b.compressionStrategy
  | .sessionId => a.sessionId = b.sessionId
  | .threadEventBufferCapacity => a.threadEventBufferCapacity = b.threadEventBufferCapacity
  | .maxReservedEventBufferSliceCapacity =>
      a.maxReservedEventBufferSliceCapacity = b.maxReservedEventBufferSliceCapacity
  | .maxDynamicEventBufferSliceCapacity =>
      a.maxDynamicEventBufferSliceCapacity = b.maxDynamicEventBufferSliceCapacity
  | .reservedEventPoolCapacity => a.reservedEventPoolCapacity = b.reservedEventPoolCapacity
  | .dynamicEventPoolCapacity => a.dynamicEventPoolCapacity = b.dynamicEventPoolCapacity
  | .dynamicEventSliceBorrowCasAttempts =>
      a.dynamicEventSliceBorrowCasAttempts = b.dynamicEventSliceBorrowCasAttempts
  | .eventBufferRetentionDurationNanoseconds =>
      a.eventBufferRetentionDurationNanoseconds = b.eventBufferRetentionDurationNanoseconds
  | .maxFlushBufferToFileAttempts =>
      a.maxFlushBufferToFileAttempts = b.maxFlushBufferToFileAttempts
  | .flushAllEvents => a.flushAllEvents = b.flushAllEvents

variable {β : Type} {parsers : NumberParsers} {conversions : Conversions β}

/-- The raw contents differ in nothing but the value of one field.  A file can be
    parsed with either value. -/
inductive DiffersAt (field : Field) : Origin β → Origin β → Prop where
  | same (origin : Origin β) : DiffersAt field origin origin
  | env {env env' : Environment} : (∀ key, key ≠ field.envKey.toList → env key = env' key) →
      DiffersAt field (.env env) (.env env')
  | file {filePath : String} {table table' : Table β} :
      (∀ key, key ≠ field.fileKey → table.get key = table'.get key) →
      DiffersAt field (.file filePath (.parsed table)) (.file filePath (.parsed table'))

/-- Two sources in the same state whose contents differ in one field only. -/
structure Source.DiffersAt (field : Field) (a b : Source β) : Prop where
  origin : Configuration.DiffersAt field a.origin b.origin
  isRead : a.isRead = b.isRead
  values : a.values = b.values

theorem readEnv_sameAt {env env' : Environment} {field : Field}
    (same : env field.envKey.toList = env' field.envKey.toList) :
    (readEnv parsers env).1.SameAt (readEnv parsers env').1 field := by
  cases field <;>
    simp only [Field.envKey] at same <;>
    simp only [Values.SameAt, readEnv, readEnvConfig, getEnv, getEnvMapped, getEnvInteger,
      getEnvBoolean, same]

theorem readTable_sameAt {table table' : Table β} {field : Field}
    (same : table.get field.fileKey = table'.get field.fileKey) :
    (readTable conversions table).1.SameAt (readTable conversions table').1 field := by
  cases field <;>
    simp only [Field.fileKey] at same <;>
    simp only [Values.SameAt, readTable, readFileConfig, readCompressionStrategy, same]

theorem Values.SameAt.refl (values : Values) (field : Field) : values.SameAt values field := by
  cases field <;> exact rfl

/-- Reading sources that differ in one field gives the same values for the others. -/
theorem Source.DiffersAt.current {field other : Field} (different : other ≠ field)
    {a b : Source β} (differs : a.DiffersAt field b) :
    (a.current parsers conversions).values.SameAt (b.current parsers conversions).values other := by
  obtain ⟨origin, isRead, values⟩ := differs
  cases read : a.isRead with
  | true =>
      rw [Source.current, Source.current, ← isRead, read, if_pos rfl, if_pos rfl, values]
      exact .refl _ other
  | false =>
      rw [Source.current, Source.current, ← isRead, read, if_neg Bool.false_ne_true,
        if_neg Bool.false_ne_true]
      simp only [Source.read, values]
      generalize a.origin = left at origin ⊢
      generalize b.origin = right at origin ⊢
      cases origin with
      | same origin => exact .refl _ other
      | env agree =>
          apply readEnv_sameAt
          exact agree _ fun same => different (Field.envKey_inj (String.toList_inj.mp same))
      | file agree =>
          apply readTable_sameAt
          exact agree _ fun same => different (Field.fileKey_inj same)

theorem firstValue_congr {α : Type} {getValue : Values → Option α} {values values' : List Values}
    (same : List.Forall₂ (fun a b => getValue a = getValue b) values values') (defaultValue : α) :
    firstValue getValue defaultValue values = firstValue getValue defaultValue values' := by
  have found : values.findSome? getValue = values'.findSome? getValue := by
    induction same with
    | nil => rfl
    | cons first _ ih => rw [List.findSome?_cons, List.findSome?_cons, first, ih]
  rw [firstValue, firstValue, found]

/-- A field of the configuration depends on the values for this field only. -/
theorem configOf_sameAt {values values' : List Values} {field : Field}
    (same : List.Forall₂ (fun a b => a.SameAt b field) values values') (defaultConfig : Config)
    (options : PathExpansionOptions) :
    (configOf values defaultConfig options).SameAt (configOf values' defaultConfig options)
      field := by
  cases field with
  | traceFilePath =>
      have path := @firstValue_congr _ Values.traceFilePath _ _ same
      simp only [Config.SameAt, configOf, path]
  | compressionStrategy => exact firstValue_congr same _
  | sessionId => exact firstValue_congr same _
  | threadEventBufferCapacity => exact firstValue_congr same _
  | maxReservedEventBufferSliceCapacity => exact firstValue_congr same _
  | maxDynamicEventBufferSliceCapacity => exact firstValue_congr same _
  | reservedEventPoolCapacity => exact firstValue_congr same _
  | dynamicEventPoolCapacity => exact firstValue_congr same _
  | dynamicEventSliceBorrowCasAttempts => exact firstValue_congr same _
  | eventBufferRetentionDurationNanoseconds => exact firstValue_congr same _
  | maxFlushBufferToFileAttempts => exact firstValue_congr same _
  | flushAllEvents => exact firstValue_congr same _

/-- A source has been read at most once more, and only if it was unread. -/
theorem reads_current (source : Source β) :
    (source.current parsers conversions).reads =
      source.reads + if source.isRead then 0 else 1 := by
  cases read : source.isRead <;> simp [Source.current, read, Source.read]

/-- What the order of the sources means for one call. -/
structure Precedes (parsers : NumberParsers) (conversions : Conversions β)
    (sources : List (Source β)) (defaultConfig : Config) (options : PathExpansionOptions)
    (result : Config × List (Source β)) : Prop where
  config : result.1 = configOf (settled parsers conversions sources) defaultConfig options
  reads : List.Forall₂
    (fun before after => after.reads ≤ before.reads + if before.isRead then 0 else 1)
    sources result.2
  independent : ∀ field other sources', other ≠ field →
    List.Forall₂ (Source.DiffersAt field) sources sources' →
      result.1.SameAt
        ((fromSourcesOrDefault parsers conversions defaultConfig options).run sources').1 other

/-- Every field has the value of the first source that has a valid one once it
    is read, or else the default; no source is read unless it is unread, and then
    once; and the raw value of one field has no effect on another one. -/
theorem fromSourcesOrDefault_precedence (parsers : NumberParsers) (conversions : Conversions β)
    (sources : List (Source β)) (defaultConfig : Config) (options : PathExpansionOptions) :
    Precedes parsers conversions sources defaultConfig options
      ((fromSourcesOrDefault parsers conversions defaultConfig options).run sources) := by
  have settles := settles_fromSourcesOrDefault parsers conversions
  obtain ⟨config, advanced⟩ :=
    settles sources defaultConfig options sources (advanced_refl parsers conversions sources)
  refine ⟨config, ?_, ?_⟩
  · apply advanced.imp
    rintro before after (rfl | rfl)
    · exact Nat.le_add_right _ _
    · exact Nat.le_of_eq (reads_current before)
  · intro field other sources' different differs
    rw [config, (settles sources' defaultConfig options sources'
      (advanced_refl parsers conversions sources')).1]
    apply configOf_sameAt
    rw [settled_eq, settled_eq, List.forall₂_map_left_iff, List.forall₂_map_right_iff]
    exact differs.imp fun a b only => only.current different

end Spoor.Configuration
