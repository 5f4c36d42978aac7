import Mathlib.Data.List.Forall2
import Spoor.Configuration.Source

/-! # The runtime's configuration

Each field is looked up in the sources one after the other, and a source is only
read when a look-up comes to it.  Whichever look-up that is, the field gets the
value of the first source that has one once it is read.
-/

namespace Spoor.Configuration

open Lib.Path Lib.Toml Trace

structure Config where
  traceFilePath : Text
  compressionStrategy : CompressionStrategy
  sessionId : Int
  threadEventBufferCapacity : Int
  maxReservedEventBufferSliceCapacity : Int
  maxDynamicEventBufferSliceCapacity : Int
  reservedEventPoolCapacity : Int
  dynamicEventPoolCapacity : Int
  dynamicEventSliceBorrowCasAttempts : Int
  eventBufferRetentionDurationNanoseconds : Int
  maxFlushBufferToFileAttempts : Int
  flushAllEvents : Bool
  deriving DecidableEq

/-- `Config::Default`; the session id is drawn at random. -/
def Config.default (sessionId : Int) : Config where
  traceFilePath := ['.']
  compressionStrategy := .snappy
  sessionId := sessionId
  threadEventBufferCapacity := 10000
  maxReservedEventBufferSliceCapacity := 1000
  maxDynamicEventBufferSliceCapacity := 1000
  reservedEventPoolCapacity := 0
  dynamicEventPoolCapacity := uint64Max
  dynamicEventSliceBorrowCasAttempts := 1
  eventBufferRetentionDurationNanoseconds := 0
  maxFlushBufferToFileAttempts := 2
  flushAllEvents := true

section Lookup

variable {β : Type} (parsers : NumberParsers) (conversions : Conversions β)

/-- The source, read unless it is read already. -/
def Source.current (source : Source β) : Source β :=
  if source.isRead then source else (source.read parsers conversions).1

/-- A computation that may read sources. -/
abbrev Reading (β α : Type) : Type := StateM (List (Source β)) α

/-- The look-up in some sources, with the sources after it. -/
def lookUp {α : Type} (getValue : Values → Option α) (defaultValue : α) :
    List (Source β) → α × List (Source β)
  | [] => (defaultValue, [])
  | source :: sources =>
      let source := source.current parsers conversions
      match getValue source.values with
      | some value => (value, source :: sources)
      | none =>
          let found := lookUp getValue defaultValue sources
          (found.1, source :: found.2)

def valueFromSourceOrDefault {α : Type} (getValue : Values → Option α) (defaultValue : α) :
    Reading β α := fun sources => lookUp parsers conversions getValue defaultValue sources

/-- Directories are to end with a separator. -/
def addTrailingSeparator (path : Text) : Text :=
  if path ≠ ['.'] ∧ path.getLast? ≠ some separator then path ++ [separator] else path

/-- `Config::FromSourcesOrDefault`. -/
def fromSourcesOrDefault (defaultConfig : Config) (options : PathExpansionOptions) :
    Reading β Config := do
  let valueOr {α : Type} (getValue : Values → Option α) (defaultValue : α) : Reading β α :=
    valueFromSourceOrDefault parsers conversions getValue defaultValue
  let path ← valueOr Values.traceFilePath defaultConfig.traceFilePath
  let traceFilePath := addTrailingSeparator (expandPath path options)
  let compressionStrategy ←
    valueOr Values.compressionStrategy defaultConfig.compressionStrategy
  let sessionId ← valueOr Values.sessionId defaultConfig.sessionId
  let threadEventBufferCapacity ←
    valueOr Values.threadEventBufferCapacity defaultConfig.threadEventBufferCapacity
  let maxReservedEventBufferSliceCapacity ←
    valueOr Values.maxReservedEventBufferSliceCapacity
      defaultConfig.maxReservedEventBufferSliceCapacity
  let maxDynamicEventBufferSliceCapacity ←
    valueOr Values.maxDynamicEventBufferSliceCapacity
      defaultConfig.maxDynamicEventBufferSliceCapacity
  let reservedEventPoolCapacity ←
    valueOr Values.reservedEventPoolCapacity defaultConfig.reservedEventPoolCapacity
  let dynamicEventPoolCapacity ←
    valueOr Values.dynamicEventPoolCapacity defaultConfig.dynamicEventPoolCapacity
  let dynamicEventSliceBorrowCasAttempts ←
    valueOr Values.dynamicEventSliceBorrowCasAttempts
      defaultConfig.dynamicEventSliceBorrowCasAttempts
  let eventBufferRetentionDurationNanoseconds ←
    valueOr Values.eventBufferRetentionDurationNanoseconds
      defaultConfig.eventBufferRetentionDurationNanoseconds
  let maxFlushBufferToFileAttempts ←
    valueOr Values.maxFlushBufferToFileAttempts defaultConfig.maxFlushBufferToFileAttempts
  let flushAllEvents ← valueOr Values.flushAllEvents defaultConfig.flushAllEvents
  return {
    traceFilePath, compressionStrategy, sessionId, threadEventBufferCapacity,
    maxReservedEventBufferSliceCapacity, maxDynamicEventBufferSliceCapacity,
    reservedEventPoolCapacity, dynamicEventPoolCapacity, dynamicEventSliceBorrowCasAttempts,
    eventBufferRetentionDurationNanoseconds, maxFlushBufferToFileAttempts, flushAllEvents }

end Lookup

/-! ## Look-ups one after the other -/

section Precedence

variable {β : Type} {parsers : NumberParsers} {conversions : Conversions β}

/-- The value of the first source that has one. -/
def firstValue {α : Type} (getValue : Values → Option α) (defaultValue : α)
    (values : List Values) : α := (values.findSome? getValue).getD defaultValue

/-- The values the sources have once they are read: an unread one those of its
    `Read`, a read one its own. -/
def settled (parsers : NumberParsers) (conversions : Conversions β) (sources : List (Source β)) :
    List Values :=
  sources.map fun source =>
    if source.isRead then source.values else (source.read parsers conversions).1.values

/-- The sources after some look-ups: each is as it was or has been read. -/
def Advanced (parsers : NumberParsers) (conversions : Conversions β) :
    List (Source β) → List (Source β) → Prop :=
  List.Forall₂ fun before after => after = before ∨ after = before.current parsers conversions

theorem values_current (source : Source β) :
    (source.current parsers conversions).values =
      if source.isRead then source.values else (source.read parsers conversions).1.values := by
  unfold Source.current
  split
  · rfl
  · rfl

theorem settled_eq (sources : List (Source β)) :
    settled parsers conversions sources =
      sources.map fun source => (source.current parsers conversions).values := by
  simp only [settled, values_current]

theorem current_current (source : Source β) :
    (source.current parsers conversions).current parsers conversions =
      source.current parsers conversions := by
  unfold Source.current
  cases isRead : source.isRead with
  | true => simp [isRead]
  | false => simp [Source.read]

theorem advanced_refl (parsers : NumberParsers) (conversions : Conversions β)
    (sources : List (Source β)) : Advanced parsers conversions sources sources :=
  List.forall₂_same.mpr fun _ _ => .inl rfl

/-- The computation has this result, whatever sources it finds read already, and
    leaves no others than it found or has read. -/
def Settles (parsers : NumberParsers) (conversions : Conversions β) {α : Type}
    (sources : List (Source β)) (computation : Reading β α) (value : α) : Prop :=
  ∀ sources', Advanced parsers conversions sources sources' →
    (computation.run sources').1 = value ∧
      Advanced parsers conversions sources (computation.run sources').2

theorem Settles.pure {α : Type} {sources : List (Source β)} (value : α) :
    Settles parsers conversions sources (Pure.pure value) value :=
  fun _ advanced => ⟨rfl, advanced⟩

theorem Settles.bind {α γ : Type} {sources : List (Source β)} {first : Reading β α} {value : α}
    {next : α → Reading β γ} {result : γ}
    (settles : Settles parsers conversions sources first value)
    (rest : Settles parsers conversions sources (next value) result) :
    Settles parsers conversions sources (first >>= next) result := by
  intro sources' advanced
  obtain ⟨found, further⟩ := settles sources' advanced
  have later := rest _ further
  rw [← found] at later
  exact later

/-- A look-up finds what the sources have once they are read. -/
theorem settles_valueFromSourceOrDefault {α : Type} (sources : List (Source β))
    (getValue : Values → Option α) (defaultValue : α) :
    Settles parsers conversions sources
      (valueFromSourceOrDefault parsers conversions getValue defaultValue)
      (firstValue getValue defaultValue (settled parsers conversions sources)) := by
  intro sources' advanced
  change (lookUp parsers conversions getValue defaultValue sources').1 = _ ∧
    Advanced parsers conversions sources
      (lookUp parsers conversions getValue defaultValue sources').2
  induction advanced with
  | nil => exact ⟨rfl, .nil⟩
  | @cons before after sources sources' progressed advanced ih =>
      have same : after.current parsers conversions = before.current parsers conversions := by
        rcases progressed with rfl | rfl
        · rfl
        · exact current_current before
      simp only [lookUp, same, firstValue, settled_eq, List.map_cons, List.findSome?_cons]
      cases getValue (before.current parsers conversions).values with
      | some value => exact ⟨rfl, .cons (.inr rfl) advanced⟩
      | none =>
          rw [firstValue, settled_eq] at ih
          exact ⟨ih.1, .cons (.inr rfl) ih.2⟩

/-- The configuration by the values of the sources once they are read. -/
def configOf (values : List Values) (defaultConfig : Config) (options : PathExpansionOptions) :
    Config where
  traceFilePath := addTrailingSeparator
    (expandPath (firstValue Values.traceFilePath defaultConfig.traceFilePath values) options)
  compressionStrategy :=
    firstValue Values.compressionStrategy defaultConfig.compressionStrategy values
  sessionId := firstValue Values.sessionId defaultConfig.sessionId values
  threadEventBufferCapacity :=
    firstValue Values.threadEventBufferCapacity defaultConfig.threadEventBufferCapacity values
  maxReservedEventBufferSliceCapacity :=
    firstValue Values.maxReservedEventBufferSliceCapacity
      defaultConfig.maxReservedEventBufferSliceCapacity values
  maxDynamicEventBufferSliceCapacity :=
    firstValue Values.maxDynamicEventBufferSliceCapacity
      defaultConfig.maxDynamicEventBufferSliceCapacity values
  reservedEventPoolCapacity :=
    firstValue Values.reservedEventPoolCapacity defaultConfig.reservedEventPoolCapacity values
  dynamicEventPoolCapacity :=
    firstValue Values.dynamicEventPoolCapacity defaultConfig.dynamicEventPoolCapacity values
  dynamicEventSliceBorrowCasAttempts :=
    firstValue Values.dynamicEventSliceBorrowCasAttempts
      defaultConfig.dynamicEventSliceBorrowCasAttempts values
  eventBufferRetentionDurationNanoseconds :=
    firstValue Values.eventBufferRetentionDurationNanoseconds
      defaultConfig.eventBufferRetentionDurationNanoseconds values
  maxFlushBufferToFileAttempts :=
    firstValue Values.maxFlushBufferToFileAttempts defaultConfig.maxFlushBufferToFileAttempts
      values
  flushAllEvents := firstValue Values.flushAllEvents defaultConfig.flushAllEvents values

theorem settles_fromSourcesOrDefault (parsers : NumberParsers) (conversions : Conversions β)
    (sources : List (Source β)) (defaultConfig : Config) (options : PathExpansionOptions) :
    Settles parsers conversions sources
      (fromSourcesOrDefault parsers conversions defaultConfig options)
      (configOf (settled parsers conversions sources) defaultConfig options) := by
  unfold fromSourcesOrDefault
  iterate 12 apply (settles_valueFromSourceOrDefault sources _ _).bind
  exact Settles.pure _

end Precedence

end Spoor.Configuration
