import Spoor.Configuration.Config

/-! # The directory of the trace files

The configured path is expanded and gets a separator at its end.  That keeps the
directory it denotes, unless the path is empty: then the separator is all there is,
and the path of the working directory becomes that of the root.
-/

namespace Spoor.Configuration

open Lib.Path Lib.Toml

theorem Piece.expanded_ne_nil (env : Environment) (piece : Piece) : piece.expanded env ≠ [] := by
  cases piece with
  | plain c => simp [Piece.expanded]
  | token name =>
      rw [Piece.expanded]
      cases env name with
      | none => simp
      | some value =>
          by_cases empty : value = []
          · simp [empty]
          · simp [empty]

/-- A variable that is empty is not expanded, so something is left of every path. -/
theorem expandEnvironmentVariables_eq_nil {path : Text} {env : Environment} :
    expandEnvironmentVariables path env = [] ↔ path = [] := by
  obtain ⟨pieces, tokenized⟩ := exists_tokenizes path
  rw [tokenized.expanded env]
  constructor
  · intro nothing
    cases pieces with
    | nil => exact tokenized.text.symm
    | cons piece rest =>
        rw [List.flatMap_cons, List.append_eq_nil_iff] at nothing
        exact absurd nothing.1 (piece.expanded_ne_nil env)
  · rintro rfl
    rw [tokenized.nil_path, List.flatMap_nil]

/-- The home directory is not empty when it stands for the tilde. -/
theorem expandTilde_eq_nil {path : Text} {env : Environment} :
    expandTilde path env = [] ↔ path = [] := by
  unfold expandTilde getEnv
  cases path with
  | nil => simp
  | cons c rest =>
      split
      · rfl
      · cases env kHomeKey with
        | none => simp
        | some home => cases home <;> simp

theorem expandPath_eq_nil {path : Text} {options : PathExpansionOptions} :
    expandPath path options = [] ↔ path = [] := by
  unfold expandPath
  cases options.expandTilde <;> cases options.expandEnvironmentVariables <;>
    simp [expandEnvironmentVariables_eq_nil, expandTilde_eq_nil]

theorem addTrailingSeparator_idem (path : Text) :
    addTrailingSeparator (addTrailingSeparator path) = addTrailingSeparator path := by
  unfold addTrailingSeparator
  split
  · simp
  · rfl

theorem addTrailingSeparator_closed {path : Text}
    (named : addTrailingSeparator path ≠ ['.']) :
    (addTrailingSeparator path).getLast? = some separator := by
  unfold addTrailingSeparator at named ⊢
  split at named
  · rename_i opened
    rw [if_pos opened, List.getLast?_concat]
  · rename_i closed
    rw [if_neg closed]
    by_contra opened
    exact closed ⟨named, opened⟩

theorem addTrailingSeparator_sameFile {path : Text} :
    SameFile path (addTrailingSeparator path) ↔ path ≠ [] := by
  constructor
  · rintro same rfl
    have absolute := (sameFile_iff.mp same).1
    simp [addTrailingSeparator, IsAbsolute] at absolute
  · intro nonempty
    unfold addTrailingSeparator
    split
    · rw [sameFile_iff, isAbsolute_append _ nonempty, names_append_separator, names_nil,
        List.append_nil]
      exact ⟨Iff.rfl, rfl⟩
    · exact sameFile_iff.mpr ⟨Iff.rfl, rfl⟩

/-- The trace file path denotes the directory that the expanded path denotes, and
    is as the file system expects the path of a directory. -/
structure Normalized (expanded traceFilePath : Text) : Prop where
  directory : SameFile expanded traceFilePath
  closed : traceFilePath ≠ ['.'] → traceFilePath.getLast? = some separator
  stable : addTrailingSeparator traceFilePath = traceFilePath

section Normalization

variable {β : Type} (parsers : NumberParsers) (conversions : Conversions β)

/-- The trace file path as the sources or the default have it. -/
def configuredPath (sources : List (Source β)) (defaultConfig : Config) : Text :=
  firstValue Values.traceFilePath defaultConfig.traceFilePath
    (settled parsers conversions sources)

/-- The directory is kept exactly if the configured path is not empty. -/
theorem traceFilePath_normalized_iff (sources : List (Source β)) (defaultConfig : Config)
    (options : PathExpansionOptions) :
    Normalized (expandPath (configuredPath parsers conversions sources defaultConfig) options)
        ((fromSourcesOrDefault parsers conversions defaultConfig options).run
          sources).1.traceFilePath ↔
      configuredPath parsers conversions sources defaultConfig ≠ [] := by
  have config := (settles_fromSourcesOrDefault parsers conversions sources defaultConfig options
    sources (advanced_refl parsers conversions sources)).1
  rw [config]
  change Normalized _ (addTrailingSeparator
    (expandPath (configuredPath parsers conversions sources defaultConfig) options)) ↔ _
  rw [Ne, ← @expandPath_eq_nil _ options]
  constructor
  · intro normalized
    exact addTrailingSeparator_sameFile.mp normalized.directory
  · intro nonempty
    exact ⟨addTrailingSeparator_sameFile.mpr nonempty, addTrailingSeparator_closed,
      addTrailingSeparator_idem _⟩

end Normalization

/-- A file that sets the path to the empty text. -/
def emptyPathFile : Source Scalar :=
  .unread (.file "spoor.toml" (.parsed [(kTraceFilePathFileKey, .scalar (.text ""))]))

def noNumbers : NumberParsers := ⟨fun _ _ _ => none, fun _ => none⟩

def noVariables : PathExpansionOptions := ⟨fun _ => none, true, true⟩

/-- The traces go to the root directory instead of the working directory. -/
theorem emptyPathFile_not_normalized :
    ((fromSourcesOrDefault noNumbers strictConversions (.default 0) noVariables).run
      [emptyPathFile]).1.traceFilePath = [separator] ∧
    ¬Normalized
      (expandPath (configuredPath noNumbers strictConversions [emptyPathFile] (.default 0))
        noVariables)
      ((fromSourcesOrDefault noNumbers strictConversions (.default 0) noVariables).run
        [emptyPathFile]).1.traceFilePath := by
  have root : ((fromSourcesOrDefault noNumbers strictConversions (.default 0) noVariables).run
      [emptyPathFile]).1.traceFilePath = [separator] := by decide
  have empty :
      expandPath (configuredPath noNumbers strictConversions [emptyPathFile] (.default 0))
        noVariables = [] := by
    decide
  refine ⟨root, ?_⟩
  rw [root, empty]
  intro normalized
  exact absurd (sameFile_iff.mp normalized.directory).1 (by decide)

end Spoor.Configuration
