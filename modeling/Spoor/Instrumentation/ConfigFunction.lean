import Mathlib.Data.List.Basic
import Spoor.Instrumentation.Bracketing

/-! # When the config function stays uninstrumented

The runtime asks the config function for its configuration while it initializes,
so an instrumented config function would initialize the runtime again.  The
default rule blocks it, but allow rules override block rules: the rule protects
the function from every rule of the filters file except an allow rule that
matches it.
-/

namespace Spoor.Instrumentation

open Filters

variable {ι : Type}

/-- A function with calls at its entry is not the original one. -/
theorem insertCalls_ne_original {f : Function ι} (body : f.isDeclaration = false)
    {call : RuntimeCall} {atEntry : List RuntimeCall} (inCalls : call ∈ atEntry)
    (beforeReturns : List RuntimeCall) : f.insertCalls atEntry beforeReturns ≠ f.original := by
  intro same
  cases blocks : f.blocks with
  | nil => simp [Function.isDeclaration, blocks] at body
  | cons entry others =>
      have heads := congrArg (fun g => g.blocks.head?) same
      simp only [insertCalls_blocks blocks, Function.original, blocks, List.map_cons,
        List.head?_cons, Option.some.injEq] at heads
      have created : Instruction.createCall ι call ∈ entry.map Instruction.original := by
        rw [← heads, List.mem_append, List.mem_append]
        exact .inr (.inl (List.mem_map_of_mem inCalls))
      obtain ⟨i, -, equal⟩ := List.mem_map.mp created
      simp [Instruction.original, Instruction.createCall] at equal

section Rules

variable {env : Environment} {regexMatch : String → String → Option Bool}

theorem configFilter_matches {info : Filters.FunctionInfo}
    (matchesName :
      regexMatch "^spoor::runtime::ConfigFilePath\\(\\)$" configFunctionName = some true)
    (config : info.demangledName = configFunctionName) :
    configFilter.matchesFunction regexMatch info = some true := by
  simp [Filter.matchesFunction, configFilter, patternMatches, config, matchesName]

/-- The filters accept the config function exactly when an allow rule of the
    filters file matches it. -/
theorem instrumentFunction_config {filters : List Filter} {info : Filters.FunctionInfo}
    {result : InstrumentFunctionResult}
    (matchesName :
      regexMatch "^spoor::runtime::ConfigFilePath\\(\\)$" configFunctionName = some true)
    (config : info.demangledName = configFunctionName)
    (decided : instrumentFunction regexMatch (defaultFilters ++ filters) info = some result) :
    result.instrument = true ↔ ∃ filter ∈ filters, filter.action = .allow ∧
      filter.matchesFunction regexMatch info = some true := by
  rw [instrumentFunction_iff decided]
  constructor
  · intro overridden
    obtain ⟨filter, listed, allows, matched⟩ := overridden
      ⟨configFilter, by simp [defaultFilters], rfl, configFilter_matches matchesName config⟩
    rcases List.mem_append.mp listed with inDefaults | inFile
    · obtain rfl := List.mem_singleton.mp inDefaults
      simp [configFilter] at allows
    · exact ⟨filter, inFile, allows, matched⟩
  · rintro ⟨filter, listed, allows, matched⟩ -
    exact ⟨filter, List.mem_append_right _ listed, allows, matched⟩

end Rules

section Run

variable {env : Environment} {options : Options} {regexMatch : String → String → Option Bool}
  {read : String → Except String (List Filter)}
  {write : String → SymbolsTable → Except SymbolsWriterError Unit}

/-- The config function is left as it is exactly when nothing is injected or no
    allow rule of the filters file matches it. -/
theorem run_config {m : Module ι} {all : Bool} {functions : List (Function (ι ⊕ RuntimeCall))}
    (matchesName :
      regexMatch "^spoor::runtime::ConfigFilePath\\(\\)$" configFunctionName = some true)
    (finished : run env options regexMatch read write m = some (.preserved all functions))
    {position : Nat} {f : Function ι} (found : m.functions[position]? = some f)
    (config : demangledName env f.name = configFunctionName) :
    functions[position]? = some f.original ↔
      f.isDeclaration = true ∨ options.injectInstrumentation = false ∨
        ∀ filters file, fileFilters options read = .ok filters →
          fileName f.subprogram = some file → ∀ filter ∈ filters, filter.action = .allow →
            filter.matchesFunction regexMatch (filterInfo env f file) ≠ some true := by
  rcases run_cases finished with
    ⟨inject, -, rfl⟩ | ⟨inject, filters, result, listed, returned, -, rfl⟩
  · simp [inject, found]
  · obtain ⟨g, left, leaves⟩ := instrumentModule_leaves returned found
    rw [left, Option.some.injEq]
    rcases leaves with ⟨declaration, rfl⟩ | ⟨body, instrumented, accepted, rfl⟩
    · simp [declaration]
    · simp only [accepts, Option.bind_eq_bind, Option.bind_eq_some_iff, Option.pure_def,
        Option.some.injEq] at accepted
      obtain ⟨file, named, decision, decided, rfl⟩ := accepted
      have policy :=
        @instrumentFunction_config _ filters (filterInfo env f file) decision matchesName
        config decided
      have rules : (∀ filters file, fileFilters options read = .ok filters →
          fileName f.subprogram = some file → ∀ filter ∈ filters, filter.action = .allow →
            filter.matchesFunction regexMatch (filterInfo env f file) ≠ some true) ↔
          ¬ ∃ filter ∈ filters, filter.action = .allow ∧
            filter.matchesFunction regexMatch (filterInfo env f file) = some true := by
        simp [listed, named]
      rw [rules, ← policy, body, inject]
      cases instrument : decision.instrument with
      | false => simp
      | true =>
          have logged : RuntimeCall.logFunctionEntry
              (functionIdAt env.moduleHash m.functions position) ∈
                entryCalls options f (functionIdAt env.moduleHash m.functions position) := by
            simp [entryCalls]
          simpa using insertCalls_ne_original body logged _

/-- A pattern that is a literal text with anchors and escapes, as a regular expression. -/
def literalMatch (pattern text : String) : Option Bool :=
  some (pattern.toList.filter (fun c => c ≠ '^' ∧ c ≠ '$' ∧ c ≠ '\\') = text.toList)

/-- The config function under its linkage name. -/
def configFunction : Function String :=
  { sampleMain with name := "_ZN5spoor7runtime14ConfigFilePathEv" }

def configEnvironment : Environment :=
  { sampleEnvironment with
    demangle := fun name =>
      if name = "_ZN5spoor7runtime14ConfigFilePathEv" then "spoor::runtime::ConfigFilePath()"
      else name }

/-- A rule of the filters file without conditions but on the linkage name. -/
def allowRule (linkageName : Option String) : Filter where
  action := .allow
  ruleName := some "Allow"
  sourceFilePath := none
  functionDemangledName := none
  functionLinkageName := linkageName
  functionIrInstructionCountLt := none
  functionIrInstructionCountGt := none

def filteredOptions : Options := { sampleOptions with filtersFilePath := some "filters.toml" }

/-- A rule that allows every function has the config function instrumented. -/
theorem run_config_allowed :
    demangledName configEnvironment configFunction.name = configFunctionName ∧
      ∃ all functions, run configEnvironment filteredOptions literalMatch
          (fun _ => .ok [allowRule none]) (fun _ _ => .ok ())
          ⟨"config.ll", [configFunction]⟩ = some (.preserved all functions) ∧
        functions[0]? ≠ some configFunction.original := by
  refine ⟨rfl, _, _, rfl, ?_⟩
  intro same
  have lengths := congrArg (Option.map fun g => g.blocks.map List.length) same
  exact absurd lengths (by decide)

/-- A rule that allows another function does not reach the config function. -/
theorem run_config_blocked :
    ∃ all functions, run configEnvironment filteredOptions literalMatch
        (fun _ => .ok [allowRule (some "main")]) (fun _ _ => .ok ())
        ⟨"config.ll", [configFunction]⟩ = some (.preserved all functions) ∧
      functions[0]? = some configFunction.original := by
  have returned : ∃ all functions, run configEnvironment filteredOptions literalMatch
      (fun _ => .ok [allowRule (some "main")]) (fun _ _ => .ok ())
      ⟨"config.ll", [configFunction]⟩ = some (.preserved all functions) := ⟨_, _, rfl⟩
  obtain ⟨all, functions, finished⟩ := returned
  refine ⟨all, functions, finished, (run_config rfl finished rfl rfl).mpr (.inr (.inr ?_))⟩
  intro filters file listed named filter inFile _
  obtain rfl : [allowRule (some "main")] = filters := Except.ok.inj listed
  obtain rfl := List.mem_singleton.mp inFile
  obtain rfl : none = file := Option.some.inj named
  decide

end Run

end Spoor.Instrumentation
