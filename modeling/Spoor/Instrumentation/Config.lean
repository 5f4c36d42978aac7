import Spoor.Configuration.Source
import Spoor.Instrumentation.ConfigFileSearch
import Spoor.Instrumentation.InjectInstrumentation

/-! # The configuration of the pass

The pass is configured by the environment and by the nearest configuration file, in the
plugin of the compiler and in `spoor_opt` alike.  A relative path in the environment is
one of the working directory, and a relative path in the file is one of the directory of
the file.  `spoor_opt` goes on to its command line, which has the configuration for its
defaults and expands their paths once more.

A source is modelled by the values it has once it is read.  That a look-up reads it when
it first comes to it is left out, as nothing changes the environment or the file meanwhile.
-/

namespace Spoor.Instrumentation

open Spoor.Configuration Lib.Path Lib.Toml
open ConfigFile (AbsolutePath DirectoryIterator findConfigFile)

/-! ## What is configured -/

inductive Config.OutputLanguage where
  | bitcode
  | ir
  deriving Repr, DecidableEq

structure Config where
  enableRuntime : Bool
  filtersFile : Option Text
  forceBinaryOutput : Bool
  initializeRuntime : Bool
  injectInstrumentation : Bool
  moduleId : Option Text
  outputFile : Text
  outputLanguage : Config.OutputLanguage
  outputSymbolsFile : Text
  deriving Repr, DecidableEq

namespace Config

def kOutputLanguages : List (Text × OutputLanguage) :=
  [("bitcode".toList, .bitcode), ("ir".toList, .ir)]

/-- `Config::Default`. -/
def default : Config where
  enableRuntime := true
  filtersFile := none
  forceBinaryOutput := false
  initializeRuntime := true
  injectInstrumentation := true
  moduleId := none
  outputFile := ['-']
  outputLanguage := .bitcode
  outputSymbolsFile := []

/-- The values a source has for the fields of the configuration. -/
structure Values where
  enableRuntime : Option Bool
  filtersFile : Option Text
  forceBinaryOutput : Option Bool
  initializeRuntime : Option Bool
  injectInstrumentation : Option Bool
  moduleId : Option Text
  outputFile : Option Text
  outputLanguage : Option OutputLanguage
  outputSymbolsFile : Option Text

def Values.missing : Values := ⟨none, none, none, none, none, none, none, none, none⟩

inductive ReadError where
  | failedToGetHomeDirectory (message : String)
  | reading (error : Configuration.ReadError)
  deriving Repr, DecidableEq

/-! ## The sources -/

section Sources

variable {β : Type} (parsers : NumberParsers) (conversions : Conversions β)
  (options : PathExpansionOptions)

/-- A relative path is one of the directory. -/
def anchored (parentPath filePath : Text) : Text :=
  if IsAbsolute filePath then filePath else join parentPath filePath

/-- `ReadFilePathConfig`, once the value is read. -/
def readFilePathConfig (parentPath : Text)
    (userValue : Option Text × List Configuration.ReadError) :
    Option Text × List Configuration.ReadError :=
  (userValue.1.map fun value => anchored parentPath (expandPath value options), userValue.2)

def kEnableRuntimeEnvKey : String := "SPOOR_INSTRUMENTATION_ENABLE_RUNTIME"
def kFiltersFileEnvKey : String := "SPOOR_INSTRUMENTATION_FILTERS_FILE"
def kForceBinaryOutputEnvKey : String := "SPOOR_INSTRUMENTATION_FORCE_BINARY_OUTPUT"
def kInitializeRuntimeEnvKey : String := "SPOOR_INSTRUMENTATION_INITIALIZE_RUNTIME"
def kInjectInstrumentationEnvKey : String := "SPOOR_INSTRUMENTATION_INJECT_INSTRUMENTATION"
def kModuleIdEnvKey : String := "SPOOR_INSTRUMENTATION_MODULE_ID"
def kOutputFileEnvKey : String := "SPOOR_INSTRUMENTATION_OUTPUT_FILE"
def kOutputLanguageEnvKey : String := "SPOOR_INSTRUMENTATION_OUTPUT_LANGUAGE"
def kOutputSymbolsFileEnvKey : String := "SPOOR_INSTRUMENTATION_OUTPUT_SYMBOLS_FILE"

/-- `EnvSource::Read`. -/
def readEnv (env : Configuration.Environment) (currentPath : Except String Text) :
    Values × List ReadError :=
  let parentPath := okOr currentPath []
  let text := fun key => readEnvConfig key env fun key => getEnv key true
  let boolean := fun key => readEnvConfig key env (getEnvBoolean parsers)
  let enableRuntime := boolean kEnableRuntimeEnvKey
  let filtersFile := readFilePathConfig options parentPath (text kFiltersFileEnvKey)
  let forceBinaryOutput := boolean kForceBinaryOutputEnvKey
  let initializeRuntime := boolean kInitializeRuntimeEnvKey
  let injectInstrumentation := boolean kInjectInstrumentationEnvKey
  let moduleId := text kModuleIdEnvKey
  let outputFile := readFilePathConfig options parentPath (text kOutputFileEnvKey)
  let outputLanguage :=
    readEnvConfig kOutputLanguageEnvKey env (getEnvMapped kOutputLanguages true)
  let outputSymbolsFile := readFilePathConfig options parentPath (text kOutputSymbolsFileEnvKey)
  ({ enableRuntime := enableRuntime.1
     filtersFile := filtersFile.1
     forceBinaryOutput := forceBinaryOutput.1
     initializeRuntime := initializeRuntime.1
     injectInstrumentation := injectInstrumentation.1
     moduleId := moduleId.1
     outputFile := outputFile.1
     outputLanguage := outputLanguage.1
     outputSymbolsFile := outputSymbolsFile.1 },
    (match currentPath with
      | .ok _ => []
      | .error message => [.failedToGetHomeDirectory message]) ++
    (enableRuntime.2 ++ filtersFile.2 ++ forceBinaryOutput.2 ++ initializeRuntime.2 ++
      injectInstrumentation.2 ++ moduleId.2 ++ outputFile.2 ++ outputLanguage.2 ++
      outputSymbolsFile.2).map .reading)

def kEnableRuntimeFileKey : String := "enable_runtime"
def kFiltersFileFileKey : String := "filters_file"
def kForceBinaryOutputFileKey : String := "force_binary_output"
def kInitializeRuntimeFileKey : String := "initialize_runtime"
def kInjectInstrumentationFileKey : String := "inject_instrumentation"
def kModuleIdFileKey : String := "module_id"
def kOutputFileFileKey : String := "output_file"
def kOutputLanguageFileKey : String := "output_language"
def kOutputSymbolsFileFileKey : String := "output_symbols_file"

def kFileConfigKeys : List String :=
  [kEnableRuntimeFileKey, kFiltersFileFileKey, kForceBinaryOutputFileKey,
    kInitializeRuntimeFileKey, kInjectInstrumentationFileKey, kModuleIdFileKey,
    kOutputFileFileKey, kOutputSymbolsFileFileKey, kOutputLanguageFileKey]

def unknownKeys (table : Table β) : List Configuration.ReadError :=
  (table.filter fun entry => entry.1 ∉ kFileConfigKeys).map fun entry =>
    ⟨.unknownKey, "Unknown key \"" ++ entry.1 ++ "\"."⟩

def readOutputLanguage (table : Table β) :
    Option OutputLanguage × List Configuration.ReadError :=
  let userValue := readFileConfig table kOutputLanguageFileKey (·.value conversions.text)
  match userValue.1 with
  | none => (none, userValue.2)
  | some value =>
      match kOutputLanguages.lookup (asciiStrToLower (stripAsciiWhitespace value.toList)) with
      | some language => (some language, userValue.2)
      | none =>
          (none, userValue.2 ++ [⟨.unknownValue, "Unknown output_language \"" ++ value ++ "\"."⟩])

/-- `ReadConfig` of a text. -/
def fileText (table : Table β) (key : String) : Option Text × List Configuration.ReadError :=
  let userValue := readFileConfig table key (·.value conversions.text)
  (userValue.1.map String.toList, userValue.2)

/-- `FileSource::Read`, once the table is parsed. -/
def readTable (parentPath : Text) (table : Table β) : Values × List Configuration.ReadError :=
  let text := fileText conversions table
  let boolean := fun key => readFileConfig table key (·.value conversions.boolean)
  let enableRuntime := boolean kEnableRuntimeFileKey
  let filtersFile := readFilePathConfig options parentPath (text kFiltersFileFileKey)
  let forceBinaryOutput := boolean kForceBinaryOutputFileKey
  let initializeRuntime := boolean kInitializeRuntimeFileKey
  let injectInstrumentation := boolean kInjectInstrumentationFileKey
  let moduleId := text kModuleIdFileKey
  let outputFile := readFilePathConfig options parentPath (text kOutputFileFileKey)
  let outputLanguage := readOutputLanguage conversions table
  let outputSymbolsFile := readFilePathConfig options parentPath (text kOutputSymbolsFileFileKey)
  ({ enableRuntime := enableRuntime.1
     filtersFile := filtersFile.1
     forceBinaryOutput := forceBinaryOutput.1
     initializeRuntime := initializeRuntime.1
     injectInstrumentation := injectInstrumentation.1
     moduleId := moduleId.1
     outputFile := outputFile.1
     outputLanguage := outputLanguage.1
     outputSymbolsFile := outputSymbolsFile.1 },
    unknownKeys table ++ enableRuntime.2 ++ filtersFile.2 ++ forceBinaryOutput.2 ++
      initializeRuntime.2 ++ injectInstrumentation.2 ++ moduleId.2 ++ outputFile.2 ++
      outputLanguage.2 ++ outputSymbolsFile.2)

/-- `FileSource::Read`. -/
def readFile (filePath parentPath : Text) (file : Lib.Toml.File β) :
    Values × List Configuration.ReadError :=
  match file with
  | .unopened =>
      (.missing, [⟨.failedToOpenFile,
        "Failed to open the file \"" ++ String.ofList filePath ++ "\" for reading."⟩])
  | .malformed description => (.missing, [⟨.malformedFile, description⟩])
  | .parsed table => readTable conversions options parentPath table

end Sources

/-! ## The configuration -/

/-- `ValueFromSourceOrDefault` on sources that are read already. -/
def valueFromSourceOrDefault {α : Type} (sources : List Values) (getValue : Values → Option α)
    (defaultValue : α) : α :=
  (sources.findSome? getValue).getD defaultValue

/-- `Config::FromSourcesOrDefault`. -/
def fromSourcesOrDefault (sources : List Values) (defaultConfig : Config) : Config where
  enableRuntime :=
    valueFromSourceOrDefault sources Values.enableRuntime defaultConfig.enableRuntime
  filtersFile :=
    valueFromSourceOrDefault sources (·.filtersFile.map some) defaultConfig.filtersFile
  forceBinaryOutput :=
    valueFromSourceOrDefault sources Values.forceBinaryOutput defaultConfig.forceBinaryOutput
  initializeRuntime :=
    valueFromSourceOrDefault sources Values.initializeRuntime defaultConfig.initializeRuntime
  injectInstrumentation :=
    valueFromSourceOrDefault sources Values.injectInstrumentation
      defaultConfig.injectInstrumentation
  moduleId := valueFromSourceOrDefault sources (·.moduleId.map some) defaultConfig.moduleId
  outputFile := valueFromSourceOrDefault sources Values.outputFile defaultConfig.outputFile
  outputLanguage :=
    valueFromSourceOrDefault sources Values.outputLanguage defaultConfig.outputLanguage
  outputSymbolsFile :=
    valueFromSourceOrDefault sources Values.outputSymbolsFile defaultConfig.outputSymbolsFile

/-- `ConfigFromCommandLineOrDefault` for a command line without options. -/
def configFromCommandLineOrDefault (options : PathExpansionOptions) (defaultConfig : Config) :
    Config :=
  { defaultConfig with
    filtersFile := defaultConfig.filtersFile.map (expandPath · options)
    outputFile := expandPath defaultConfig.outputFile options
    outputSymbolsFile := expandPath defaultConfig.outputSymbolsFile options }

/-- The path as the file system writes it. -/
def pathText (path : AbsolutePath) : Text := separator :: [separator].intercalate path.elements

/-- What a process finds wherever it is started. -/
structure Surroundings (β ε : Type) where
  parsers : NumberParsers
  conversions : Conversions β
  options : PathExpansionOptions
  env : Configuration.Environment
  iterator : DirectoryIterator ε
  file : AbsolutePath → Lib.Toml.File β

section Programs

variable {β ε : Type} (here : Surroundings β ε)

/-- What the sources have, each once it is read. -/
def sources (currentPath : AbsolutePath) (configFile : Option AbsolutePath) : List Values :=
  let environment := (readEnv here.parsers here.options here.env (.ok (pathText currentPath))).1
  let files := configFile.toList.map fun path =>
    (readFile here.conversions here.options (pathText path) (pathText path.parentPath)
      (here.file path)).1
  environment :: files

def configOf (currentPath : AbsolutePath) (configFile : Option AbsolutePath) : Config :=
  fromSourcesOrDefault (sources here currentPath configFile) default

/-- The callback of the plugin, which goes without a file if the search fails. -/
def pluginConfig (currentPath : AbsolutePath) : Config :=
  match findConfigFile here.iterator currentPath with
  | .ok found => configOf here currentPath found
  | .error _ => configOf here currentPath none

/-- `main` of `spoor_opt`, which gives up if the search fails. -/
def optConfig (currentPath : AbsolutePath) : Except ε Config :=
  (findConfigFile here.iterator currentPath).map fun found =>
    configFromCommandLineOrDefault here.options (configOf here currentPath found)

end Programs

/-! ## Paths and directories -/

/-- The paths are the same, or they are the same below two directories. -/
inductive FollowsPath (directory directory' : Text) : Text → Text → Prop where
  | fixed (path : Text) : FollowsPath directory directory' path path
  | relative {path : Text} (relative : ¬IsAbsolute path) :
      FollowsPath directory directory' (join directory path) (join directory' path)

/-- The configurations differ by the directories of relative paths only. -/
structure Follows (directory directory' : Text) (config config' : Config) : Prop where
  settings : { config with filtersFile := none, outputFile := [], outputSymbolsFile := [] } =
    { config' with filtersFile := none, outputFile := [], outputSymbolsFile := [] }
  filtersFile :
    Option.Rel (FollowsPath directory directory') config.filtersFile config'.filtersFile
  outputFile : FollowsPath directory directory' config.outputFile config'.outputFile
  outputSymbolsFile :
    FollowsPath directory directory' config.outputSymbolsFile config'.outputSymbolsFile

/-- A path is absolute unless it is the default. -/
structure Placed (config : Config) : Prop where
  filtersFile : ∀ path, config.filtersFile = some path → IsAbsolute path
  outputFile : IsAbsolute config.outputFile ∨ config.outputFile = ['-']
  outputSymbolsFile : IsAbsolute config.outputSymbolsFile ∨ config.outputSymbolsFile = []

/-- Where a path leads: an absolute one to itself, a relative one below the directory. -/
inductive LeadsTo (directory : Text) : Text → Text → Prop where
  | absolute {path : Text} : IsAbsolute path → LeadsTo directory path path
  | relative {path : Text} : ¬IsAbsolute path → LeadsTo directory path (join directory path)

section Origin

variable {β ε : Type} (here : Surroundings β ε) (configFile : Option AbsolutePath)

/-- The configuration file has this text for the key. -/
def FileHas (path : AbsolutePath) (key : String) (value : Text) : Prop :=
  configFile = some path ∧ ∃ table node text, here.file path = .parsed table ∧
    table.get key = some node ∧ node.value here.conversions.text = some text ∧
    value = text.toList

/-- What path is configured under the keys, if any: that of the environment, which is one
    of the working directory, or else that of the file, which is one of the directory in
    which the file is.  An empty value in the environment counts as none. -/
inductive PathFrom (currentPath : AbsolutePath) (envKey fileKey : String) : Option Text → Prop where
  | environment {value place : Text} : here.env envKey.toList = some value → value ≠ [] →
      LeadsTo (pathText currentPath) (expandPath value here.options) place →
      PathFrom currentPath envKey fileKey (some place)
  | file {path : AbsolutePath} {value place : Text} :
      (∀ value, here.env envKey.toList = some value → value = []) →
      FileHas here configFile path fileKey value →
      LeadsTo (pathText path.parentPath) (expandPath value here.options) place →
      PathFrom currentPath envKey fileKey (some place)
  | nowhere : (∀ value, here.env envKey.toList = some value → value = []) →
      (∀ path value, ¬FileHas here configFile path fileKey value) →
      PathFrom currentPath envKey fileKey none

/-- Where the paths of a configuration come from. -/
structure PathsFrom (currentPath : AbsolutePath) (config : Config) : Prop where
  filtersFile : PathFrom here configFile currentPath kFiltersFileEnvKey kFiltersFileFileKey
    config.filtersFile
  outputFile : ∃ path, config.outputFile = path.getD ['-'] ∧
    PathFrom here configFile currentPath kOutputFileEnvKey kOutputFileFileKey path
  outputSymbolsFile : ∃ path, config.outputSymbolsFile = path.getD [] ∧
    PathFrom here configFile currentPath kOutputSymbolsFileEnvKey kOutputSymbolsFileFileKey path

end Origin

def filePaths (config : Config) : List Text :=
  config.filtersFile.toList ++ [config.outputFile, config.outputSymbolsFile]

section Reading

variable {β : Type} {parsers : NumberParsers} {conversions : Conversions β}
  {options : PathExpansionOptions}

theorem anchored_follows (directory directory' filePath : Text) :
    FollowsPath directory directory' (anchored directory filePath)
      (anchored directory' filePath) := by
  rw [anchored, anchored]
  by_cases absolute : IsAbsolute filePath
  · rw [if_pos absolute, if_pos absolute]
    exact .fixed _
  · rw [if_neg absolute, if_neg absolute]
    exact .relative absolute

theorem isAbsolute_anchored {directory : Text} (placed : IsAbsolute directory) (filePath : Text) :
    IsAbsolute (anchored directory filePath) := by
  rw [anchored]
  by_cases absolute : IsAbsolute filePath
  · rwa [if_pos absolute]
  · have nonempty : directory ≠ [] := by
      rintro rfl
      simp [IsAbsolute] at placed
    rw [if_neg absolute]
    exact (isAbsolute_join absolute nonempty).mpr placed

theorem readFilePathConfig_follows (directory directory' : Text)
    (userValue : Option Text × List Configuration.ReadError) :
    Option.Rel (FollowsPath directory directory')
      (readFilePathConfig options directory userValue).1
      (readFilePathConfig options directory' userValue).1 := by
  obtain ⟨value, errors⟩ := userValue
  cases value with
  | none => exact .none
  | some value => exact .some (anchored_follows directory directory' _)

theorem readFilePathConfig_absolute {directory : Text} (placed : IsAbsolute directory)
    {userValue : Option Text × List Configuration.ReadError} {path : Text}
    (read : (readFilePathConfig options directory userValue).1 = some path) : IsAbsolute path := by
  obtain ⟨value, -, rfl⟩ := Option.map_eq_some_iff.mp read
  exact isAbsolute_anchored placed _

theorem value_rel {α : Type} {R : α → α → Prop} (refl : ∀ a, R a a) {values values' : Values}
    {getValue : Values → Option α} (first : Option.Rel R (getValue values) (getValue values'))
    (sources : List Values) (defaultValue : α) :
    R (valueFromSourceOrDefault (values :: sources) getValue defaultValue)
      (valueFromSourceOrDefault (values' :: sources) getValue defaultValue) := by
  rw [valueFromSourceOrDefault, valueFromSourceOrDefault, List.findSome?_cons, List.findSome?_cons]
  cases value : getValue values with
  | none =>
      rw [value] at first
      cases value' : getValue values' with
      | none => exact refl _
      | some b =>
          rw [value'] at first
          cases first
  | some a =>
      rw [value] at first
      cases value' : getValue values' with
      | none =>
          rw [value'] at first
          cases first
      | some b =>
          rw [value'] at first
          cases first with
          | some related => exact related

theorem rel_map_some {α : Type} {R : α → α → Prop} {a b : Option α} (related : Option.Rel R a b) :
    Option.Rel (Option.Rel R) (a.map some) (b.map some) := by
  cases related with
  | none => exact .none
  | some related => exact .some (.some related)

theorem value_cases {α : Type} (sources : List Values) (getValue : Values → Option α)
    (defaultValue : α) :
    valueFromSourceOrDefault sources getValue defaultValue = defaultValue ∨
      ∃ values ∈ sources,
        getValue values = some (valueFromSourceOrDefault sources getValue defaultValue) := by
  rw [valueFromSourceOrDefault]
  cases found : sources.findSome? getValue with
  | none => exact .inl rfl
  | some value => exact .inr (List.exists_of_findSome?_eq_some found)

/-- The paths of a source are absolute. -/
structure Values.Absolute (values : Values) : Prop where
  filtersFile : ∀ path, values.filtersFile = some path → IsAbsolute path
  outputFile : ∀ path, values.outputFile = some path → IsAbsolute path
  outputSymbolsFile : ∀ path, values.outputSymbolsFile = some path → IsAbsolute path

theorem readEnv_absolute {directory : Text} (placed : IsAbsolute directory)
    (env : Configuration.Environment) :
    (readEnv parsers options env (.ok directory)).1.Absolute where
  filtersFile _ read := readFilePathConfig_absolute placed read
  outputFile _ read := readFilePathConfig_absolute placed read
  outputSymbolsFile _ read := readFilePathConfig_absolute placed read

theorem readFile_absolute {directory : Text} (placed : IsAbsolute directory) (filePath : Text)
    (file : Lib.Toml.File β) :
    (readFile conversions options filePath directory file).1.Absolute := by
  cases file with
  | unopened => constructor <;> simp [readFile, Values.missing]
  | malformed description => constructor <;> simp [readFile, Values.missing]
  | parsed table =>
      constructor
      · exact fun _ read => readFilePathConfig_absolute placed read
      · exact fun _ read => readFilePathConfig_absolute placed read
      · exact fun _ read => readFilePathConfig_absolute placed read

theorem placed_fromSourcesOrDefault {sources : List Values}
    (absolute : ∀ values ∈ sources, values.Absolute) :
    (fromSourcesOrDefault sources default).Placed := by
  constructor
  · intro path given
    rcases value_cases sources (·.filtersFile.map some) default.filtersFile with
      none | ⟨values, listed, some⟩
    · rw [fromSourcesOrDefault, none] at given
      cases given
    · change valueFromSourceOrDefault sources (·.filtersFile.map Option.some)
        default.filtersFile = _ at given
      rw [given] at some
      exact (absolute values listed).filtersFile path (by simpa using some)
  · rcases value_cases sources Values.outputFile default.outputFile with
      none | ⟨values, listed, some⟩
    · exact .inr none
    · exact .inl ((absolute values listed).outputFile _ some)
  · rcases value_cases sources Values.outputSymbolsFile default.outputSymbolsFile with
      none | ⟨values, listed, some⟩
    · exact .inr none
    · exact .inl ((absolute values listed).outputSymbolsFile _ some)

end Reading

section Programs

variable {β ε : Type} {here : Surroundings β ε}

theorem isAbsolute_pathText (path : AbsolutePath) : IsAbsolute (pathText path) := rfl

theorem configOf_placed (currentPath : AbsolutePath) (configFile : Option AbsolutePath) :
    (configOf here currentPath configFile).Placed := by
  apply placed_fromSourcesOrDefault
  intro values listed
  cases listed with
  | head => exact readEnv_absolute (isAbsolute_pathText _) _
  | tail _ later =>
      obtain ⟨path, -, rfl⟩ := List.mem_map.mp later
      exact readFile_absolute (isAbsolute_pathText _) _ _

/-- The working directory shows in relative paths of the environment only. -/
theorem configOf_follows (currentPath currentPath' : AbsolutePath)
    (configFile : Option AbsolutePath) :
    (configOf here currentPath configFile).Follows (pathText currentPath)
      (pathText currentPath') (configOf here currentPath' configFile) where
  settings := rfl
  filtersFile := by
    refine value_rel (fun path => ?_) ?_ _ _
    · cases path with
      | none => exact .none
      | some path => exact .some (.fixed path)
    · have related := @readFilePathConfig_follows here.options (pathText currentPath)
        (pathText currentPath')
        (readEnvConfig kFiltersFileEnvKey here.env fun key => getEnv key true)
      exact rel_map_some related
  outputFile := value_rel .fixed (readFilePathConfig_follows _ _ _) _ _
  outputSymbolsFile := value_rel .fixed (readFilePathConfig_follows _ _ _) _ _

theorem anchored_leadsTo (directory path : Text) :
    LeadsTo directory path (anchored directory path) := by
  rw [anchored]
  split
  · exact .absolute ‹_›
  · exact .relative ‹_›

theorem readEnvConfig_text (key : String) (env : Configuration.Environment) :
    (readEnvConfig key env fun key => getEnv key true).1 =
      (env key.toList).filter fun value => !value.isEmpty := by
  rw [readEnvConfig, getEnv]
  cases env key.toList with
  | none => rfl
  | some value => cases value <;> rfl

theorem readFileConfig_eq_some {conversions : Conversions β} {table : Table β} {key : String}
    {text : String} :
    (readFileConfig table key (·.value conversions.text)).1 = some text ↔
      ∃ node, table.get key = some node ∧ node.value conversions.text = some text := by
  rw [readFileConfig]
  cases table.get key with
  | none => simp
  | some node => cases value : node.value conversions.text <;> simp [value]

/-- A file with a path for the key has a value in its table. -/
theorem readFile_path {path : AbsolutePath} {fileKey : String} {getPath : Values → Option Text}
    (ofTable : ∀ parentPath table,
      getPath (readTable here.conversions here.options parentPath table).1 =
        (readFilePathConfig here.options parentPath (fileText here.conversions table fileKey)).1)
    (missing : getPath .missing = none) :
    (∃ value place, FileHas here (some path) path fileKey value ∧
        LeadsTo (pathText path.parentPath) (expandPath value here.options) place ∧
        getPath (readFile here.conversions here.options (pathText path) (pathText path.parentPath)
          (here.file path)).1 = some place) ∨
      (∀ other value, ¬FileHas here (some path) other fileKey value) ∧
        getPath (readFile here.conversions here.options (pathText path) (pathText path.parentPath)
          (here.file path)).1 = none := by
  cases content : here.file path with
  | unopened =>
      refine .inr ⟨?_, missing⟩
      rintro other value ⟨same, table, node, text, parsed, -⟩
      obtain rfl := Option.some.inj same
      simp [content] at parsed
  | malformed description =>
      refine .inr ⟨?_, missing⟩
      rintro other value ⟨same, table, node, text, parsed, -⟩
      obtain rfl := Option.some.inj same
      simp [content] at parsed
  | parsed table =>
      rw [readFile, ofTable, readFilePathConfig, fileText]
      cases read : (readFileConfig table fileKey (·.value here.conversions.text)).1 with
      | some text =>
          obtain ⟨node, found, value⟩ := readFileConfig_eq_some.mp read
          exact .inl ⟨text.toList, _, ⟨rfl, table, node, text, content, found, value, rfl⟩,
            anchored_leadsTo _ _, rfl⟩
      | none =>
          refine .inr ⟨?_, rfl⟩
          rintro other value ⟨same, table', node, text, parsed, found, has, -⟩
          obtain rfl := Option.some.inj same
          obtain rfl : table = table' := by simpa [content] using parsed
          simp [readFileConfig_eq_some.mpr ⟨node, found, has⟩] at read

/-- The path that a field of the sources has is the one configured under its keys. -/
theorem pathFrom_sources (currentPath : AbsolutePath) (configFile : Option AbsolutePath)
    {envKey fileKey : String} (getPath : Values → Option Text)
    (ofEnv : getPath (readEnv here.parsers here.options here.env (.ok (pathText currentPath))).1 =
      (readFilePathConfig here.options (pathText currentPath)
        (readEnvConfig envKey here.env fun key => getEnv key true)).1)
    (ofTable : ∀ parentPath table,
      getPath (readTable here.conversions here.options parentPath table).1 =
        (readFilePathConfig here.options parentPath (fileText here.conversions table fileKey)).1)
    (missing : getPath .missing = none) :
    PathFrom here configFile currentPath envKey fileKey
      ((sources here currentPath configFile).findSome? getPath) := by
  rw [sources, List.findSome?_cons, ofEnv, readFilePathConfig, readEnvConfig_text]
  by_cases given : ∃ value, here.env envKey.toList = some value ∧ value ≠ []
  · obtain ⟨value, given, nonempty⟩ := given
    have kept : (some value).filter (fun value => !value.isEmpty) = some value := by
      simpa [Option.filter] using nonempty
    rw [given, kept]
    exact .environment given nonempty (anchored_leadsTo _ _)
  · have none : ∀ value, here.env envKey.toList = some value → value = [] := by
      simpa only [not_exists, not_and, not_not] using given
    have dropped : (here.env envKey.toList).filter (fun value => !value.isEmpty) = .none := by
      cases value : here.env envKey.toList with
      | none => rfl
      | some value => simp [none _ value]
    rw [dropped]
    cases configFile with
    | none =>
        refine .nowhere none ?_
        rintro path value ⟨same, -⟩
        cases same
    | some path =>
        simp only [Option.map_none, Option.toList_some, List.map_cons, List.map_nil,
          List.findSome?_cons, List.findSome?_nil]
        rcases readFile_path ofTable missing with ⟨value, place, has, leads, read⟩ | ⟨lacks, read⟩
        · rw [read]
          exact .file none has leads
        · rw [read]
          exact .nowhere none lacks

theorem findSome_map_some (sources : List Values) (getPath : Values → Option Text) :
    sources.findSome? (fun values => (getPath values).map some) =
      (sources.findSome? getPath).map some := by
  induction sources with
  | nil => rfl
  | cons values sources ih =>
      rw [List.findSome?_cons, List.findSome?_cons, ih]
      cases getPath values <;> rfl

theorem configOf_pathsFrom (currentPath : AbsolutePath) (configFile : Option AbsolutePath) :
    PathsFrom here configFile currentPath (configOf here currentPath configFile) where
  filtersFile := by
    have same : (configOf here currentPath configFile).filtersFile =
        (sources here currentPath configFile).findSome? Values.filtersFile := by
      change ((sources here currentPath configFile).findSome?
        (·.filtersFile.map some)).getD none = _
      rw [findSome_map_some]
      cases (sources here currentPath configFile).findSome? Values.filtersFile <;> rfl
    rw [same]
    exact pathFrom_sources currentPath configFile Values.filtersFile rfl (fun _ _ => rfl) rfl
  outputFile := ⟨_, rfl, pathFrom_sources currentPath configFile Values.outputFile rfl
    (fun _ _ => rfl) rfl⟩
  outputSymbolsFile := ⟨_, rfl, pathFrom_sources currentPath configFile Values.outputSymbolsFile rfl
    (fun _ _ => rfl) rfl⟩

theorem noToken_of_not_mem {path : Text} (plain : '$' ∉ path) : NoToken path := by
  cases path with
  | nil => trivial
  | cons c rest =>
      cases rest with
      | nil => trivial
      | cons next rest =>
          rintro rfl
          exact absurd List.mem_cons_self plain

/-- A path without a dollar sign that does not start with a tilde is expanded already. -/
theorem expandPath_eq_self {path : Text} (plain : '$' ∉ path) (noTilde : path.head? ≠ some '~')
    (options : PathExpansionOptions) : expandPath path options = path := by
  have tilde : ∀ env, expandTilde path env = path := by
    intro env
    rw [expandTilde, if_pos]
    cases path with
    | nil => rfl
    | cons c rest =>
        have differs : c ≠ '~' := by simpa using noTilde
        simp [List.isPrefixOf, differs, Ne.symm differs]
  have tokens : ∀ env, expandEnvironmentVariables path env = path := by
    intro env
    obtain ⟨pieces, tokenized⟩ := exists_tokenizes path
    rw [tokenized.expanded env]
    refine tokenized.text_eq (fun before after split => noToken_of_not_mem ?_) env
    intro later
    exact plain (split ▸ List.mem_append_right before later)
  rw [expandPath]
  simp only [tilde, tokens, ite_self]

/-- Without dollar signs the command line leaves the defaults alone. -/
theorem configFromCommandLineOrDefault_eq_self {config : Config} (placed : config.Placed)
    (plain : ∀ path ∈ config.filePaths, '$' ∉ path) (options : PathExpansionOptions) :
    configFromCommandLineOrDefault options config = config := by
  have absolute : ∀ {path : Text}, IsAbsolute path → path.head? ≠ some '~' := by
    intro path placed tilde
    rw [IsAbsolute, tilde] at placed
    exact absurd placed (by decide)
  have filters : config.filtersFile.map (expandPath · options) = config.filtersFile := by
    cases given : config.filtersFile with
    | none => rfl
    | some path =>
        have listed : path ∈ config.filePaths := by simp [filePaths, given]
        exact congrArg some
          (expandPath_eq_self (plain _ listed) (absolute (placed.filtersFile _ given)) options)
  have output : expandPath config.outputFile options = config.outputFile := by
    refine expandPath_eq_self (plain _ (by simp [filePaths])) ?_ options
    rcases placed.outputFile with placed | dash
    · exact absolute placed
    · simp [dash]
  have symbols : expandPath config.outputSymbolsFile options = config.outputSymbolsFile := by
    refine expandPath_eq_self (plain _ (by simp [filePaths])) ?_ options
    rcases placed.outputSymbolsFile with placed | none
    · exact absolute placed
    · simp [none]
  rw [configFromCommandLineOrDefault, filters, output, symbols]

end Programs

/-- From two directories that the same configuration file is found from, the plugin is
    configured alike but for relative paths in the environment.  No path depends on the
    directory that it is used in: each is that of the environment, one of the working
    directory, or else that of the file, one of the file's directory, or else the default.
    `spoor_opt` is configured as the plugin is if there are no dollar signs left in the
    paths. -/
theorem configured_from_directories {β ε : Type} (here : Surroundings β ε)
    (currentPath currentPath' : AbsolutePath) (configFile : Option AbsolutePath)
    (found : findConfigFile here.iterator currentPath = .ok configFile)
    (found' : findConfigFile here.iterator currentPath' = .ok configFile) :
    (pluginConfig here currentPath).Follows (pathText currentPath) (pathText currentPath')
        (pluginConfig here currentPath') ∧
      (pluginConfig here currentPath).Placed ∧
      PathsFrom here configFile currentPath (pluginConfig here currentPath) ∧
      ((∀ path ∈ (pluginConfig here currentPath).filePaths, '$' ∉ path) →
        optConfig here currentPath = .ok (pluginConfig here currentPath)) := by
  have plugin : pluginConfig here currentPath = configOf here currentPath configFile := by
    rw [pluginConfig, found]
  have plugin' : pluginConfig here currentPath' = configOf here currentPath' configFile := by
    rw [pluginConfig, found']
  rw [plugin, plugin']
  refine ⟨configOf_follows currentPath currentPath' configFile, configOf_placed _ _,
    configOf_pathsFrom currentPath configFile, ?_⟩
  intro plain
  rw [optConfig, found]
  exact congrArg Except.ok
    (configFromCommandLineOrDefault_eq_self (configOf_placed _ _) plain here.options)

/-- A directory with a configuration file, a directory in it, and a filters file that is
    named in the environment. -/
def project : Surroundings Scalar Unit where
  parsers := ⟨fun _ _ _ => none, fun _ => none⟩
  conversions := strictConversions
  options := ⟨fun _ => none, true, true⟩
  env key := if key = kFiltersFileEnvKey.toList then some "filters.toml".toList else none
  iterator := ConfigFile.configFileIn ["home".toList]
  file _ := .parsed [(kOutputSymbolsFileFileKey, .scalar (.text "build.spoor_symbols"))]

def inner : AbsolutePath := ⟨["home".toList, "inner".toList], by decide, by decide⟩

def projectFile : AbsolutePath :=
  ConfigFile.home.entry ConfigFile.kConfigFileName ConfigFile.isName_kConfigFileName

theorem home_found : findConfigFile project.iterator ConfigFile.home = .ok (some projectFile) := by
  have below : ConfigFile.home ≠ .rootPath := by decide
  have listing : project.iterator ConfigFile.home.names = .ok [ConfigFile.kConfigFileName] := rfl
  rw [findConfigFile, if_neg below, listing]
  rfl

theorem inner_found : findConfigFile project.iterator inner = .ok (some projectFile) := by
  have below : inner ≠ .rootPath := by decide
  have listing : project.iterator inner.names = .ok [] := rfl
  have above : inner.parentPath = ConfigFile.home := by decide
  rw [findConfigFile, if_neg below, listing, above]
  simp only [List.not_mem_nil, if_false]
  exact home_found

theorem configured_from_directories_project :
    (pluginConfig project ConfigFile.home).Follows "/home".toList "/home/inner".toList
        (pluginConfig project inner) ∧
      (pluginConfig project ConfigFile.home).Placed ∧
      PathsFrom project (some projectFile) inner (pluginConfig project inner) ∧
      (pluginConfig project inner).filtersFile = some "/home/inner/filters.toml".toList ∧
      (pluginConfig project inner).outputSymbolsFile = "/home/build.spoor_symbols".toList ∧
      optConfig project ConfigFile.home = .ok (pluginConfig project ConfigFile.home) := by
  obtain ⟨follows, placed, -, alike⟩ := configured_from_directories project ConfigFile.home inner
    (some projectFile) home_found inner_found
  obtain ⟨-, -, paths, -⟩ := configured_from_directories project inner ConfigFile.home
    (some projectFile) inner_found home_found
  have innerConfig : pluginConfig project inner = configOf project inner (some projectFile) := by
    rw [pluginConfig, inner_found]
  refine ⟨follows, placed, paths, ?_, ?_, alike ?_⟩
  · rw [innerConfig]
    decide +kernel
  · rw [innerConfig]
    decide +kernel
  · rw [pluginConfig, home_found]
    decide +kernel

end Config

end Spoor.Instrumentation
