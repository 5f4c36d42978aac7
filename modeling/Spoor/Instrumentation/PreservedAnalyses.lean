import Mathlib.Data.List.Basic
import Spoor.Instrumentation.Bracketing

/-! # Which analyses the pass reports as preserved

The pass summarises in one flag whether it changed the module, and sets the flag
where it accepts a function.  Before that it has already looked up the functions of
the runtime, which appends a declaration for each one that the module lacks.
-/

namespace Spoor.Instrumentation

open Lib.Transition Filters

variable {ι : Type}

/-! ## The declarations -/

/-- The module has a function with the name. -/
def Module.Has (m : Module ι) (name : String) : Prop := ∃ f ∈ m.functions, f.name = name

theorem getOrInsertFunction_of_has {m : Module ι} {name : String} (known : m.Has name) :
    m.getOrInsertFunction name = m := by
  obtain ⟨f, listed, named⟩ := known
  rw [Module.getOrInsertFunction, if_pos]
  exact List.any_eq_true.mpr ⟨f, listed, by simpa using named⟩

/-- Looking names up appends nothing exactly when the module has all of them. -/
theorem foldl_getOrInsertFunction_eq {m : Module ι} {names : List String}
    {declarations : List (Function ι)}
    (appended : (names.foldl Module.getOrInsertFunction m).functions =
      m.functions ++ declarations) :
    declarations = [] ↔ ∀ name ∈ names, m.Has name := by
  induction names generalizing m declarations with
  | nil => simpa using appended
  | cons name names ih =>
      by_cases known : m.Has name
      · rw [List.foldl_cons, getOrInsertFunction_of_has known] at appended
        simp [ih appended, known]
      · have added : (m.getOrInsertFunction name).functions = m.functions ++ [declare ι name] := by
          rw [Module.getOrInsertFunction, if_neg]
          intro found
          obtain ⟨f, listed, named⟩ := List.any_eq_true.mp found
          exact known ⟨f, listed, by simpa using named⟩
        obtain ⟨later, same, -⟩ := foldl_getOrInsertFunction (m.getOrInsertFunction name) names
        rw [List.foldl_cons, same, added, List.append_assoc, List.append_cancel_left_eq] at appended
        simp [← appended, known]

/-! ## The flag -/

section Loop

variable {env : Environment} {options : Options}
  {decide : Filters.FunctionInfo → Option InstrumentFunctionResult}

/-- The filters accept the body of some function. -/
def AcceptsSome (env : Environment)
    (decide : Filters.FunctionInfo → Option InstrumentFunctionResult)
    (functions : List (Function ι)) : Prop :=
  ∃ f ∈ functions, f.isDeclaration = false ∧ accepts env decide f = some true

/-- The flag says whether a function was accepted; until then every function was
    left as it is. -/
structure Flagged (env : Environment)
    (decide : Filters.FunctionInfo → Option InstrumentFunctionResult)
    (functions : List (Function ι)) (progress : Progress ι) : Prop where
  modified : progress.modified = true ↔ AcceptsSome env decide functions
  unmodified : progress.modified = false → progress.functions = functions.map .original

theorem acceptsSome_concat {functions : List (Function ι)} {f : Function ι} :
    AcceptsSome env decide (functions ++ [f]) ↔ AcceptsSome env decide functions ∨
      (f.isDeclaration = false ∧ accepts env decide f = some true) := by
  simp only [AcceptsSome, List.mem_append, List.mem_singleton]
  grind

theorem instrumentNext_flagged {moduleId : String} {functions : List (Function ι)}
    {progress next : Progress ι} {f : Function ι}
    (flagged : Flagged env decide functions progress)
    (taken : instrumentNext env options decide moduleId progress f = some next) :
    Flagged env decide (functions ++ [f]) next := by
  obtain ⟨declaration, rfl⟩ | ⟨body, info, described, rfl⟩ := instrumentNext_cases taken
  · constructor
    · simp [acceptsSome_concat, declaration, flagged.modified]
    · intro unmodified
      simp [flagged.unmodified unmodified]
  · have accepted := (describe_eq_some described).2
    constructor
    · simp [acceptsSome_concat, body, accepted, flagged.modified]
    · intro unmodified
      obtain ⟨before, here⟩ := Bool.or_eq_false_iff.mp unmodified
      simp [flagged.unmodified before, here]

/-- A finished loop has set the flag if a function was accepted, and has otherwise
    left the functions of the module and the declarations. -/
theorem instrumentModule_flagged {m : Module ι} {result : InstrumentModuleResult ι}
    (returned : instrumentModule env options decide m = some result) :
    (result.modified = true ↔ AcceptsSome env decide m.functions) ∧
      (result.modified = false →
        result.functions = (runtimeFunctionNames.foldl Module.getOrInsertFunction m).functions.map
          .original) := by
  obtain ⟨declarations, same, each⟩ := foldl_getOrInsertFunction m runtimeFunctionNames
  simp only [instrumentModule, Option.map_eq_some_iff] at returned
  obtain ⟨progress, reached, rfl⟩ := returned
  have flagged : Flagged env decide
      (runtimeFunctionNames.foldl Module.getOrInsertFunction m).functions progress := by
    refine history_invariant (fun _ _ => True) (Flagged env decide) ?_ ?_
      (fun _ _ _ _ _ _ => trivial) reached
    · exact ⟨by simp [AcceptsSome, Progress.start], fun _ => rfl⟩
    · intro functions before f after flagged _ taken
      exact instrumentNext_flagged flagged taken
  refine ⟨?_, flagged.unmodified⟩
  rw [flagged.modified, same]
  simp only [AcceptsSome, List.mem_append]
  constructor
  · rintro ⟨f, listed | declared, body, accepted⟩
    · exact ⟨f, listed, body, accepted⟩
    · rw [each f declared] at body
      contradiction
  · rintro ⟨f, listed, body, accepted⟩
    exact ⟨f, .inl listed, body, accepted⟩

end Loop

section Run

variable {env : Environment} {options : Options} {regexMatch : String → String → Option Bool}
  {read : String → Except String (List Filter)}
  {write : String → SymbolsTable → Except SymbolsWriterError Unit}

/-- A run that reports all analyses as preserved has left the module alone exactly
    when it injects nothing, accepts some function after all, or finds every
    function of the runtime in the module. -/
theorem run_preserved_iff {m : Module ι} {all : Bool}
    {functions : List (Function (ι ⊕ RuntimeCall))}
    (finished : run env options regexMatch read write m = some (.preserved all functions)) :
    (all = true → functions = m.functions.map .original) ↔
      options.injectInstrumentation = false ∨
      (∃ filters, fileFilters options read = .ok filters ∧
        AcceptsSome env (instrumentFunction regexMatch (defaultFilters ++ filters)) m.functions) ∨
      ∀ name ∈ runtimeFunctionNames, m.Has name := by
  rcases run_cases finished with
    ⟨inject, -, rfl⟩ | ⟨inject, filters, result, listed, returned, rfl, rfl⟩
  · simp [inject]
  · obtain ⟨declarations, appended, -⟩ := foldl_getOrInsertFunction m runtimeFunctionNames
    obtain ⟨modified, unmodified⟩ := instrumentModule_flagged returned
    simp only [inject, listed, Except.ok.injEq, exists_eq_left', ← modified, Bool.true_eq_false,
      false_or, ← foldl_getOrInsertFunction_eq appended]
    cases flag : result.modified with
    | true => simp
    | false =>
        rw [unmodified flag, appended]
        simp

/-- A module without bodies that declares the functions of the runtime. -/
theorem run_preserved_declared :
    ∃ all functions, run sampleEnvironment sampleOptions (fun _ _ => some true) (fun _ => .ok [])
        (fun _ _ => .ok ()) ⟨"declared.ll", runtimeFunctionNames.map (declare String)⟩ =
          some (.preserved all functions) ∧
      (all = true → functions = (runtimeFunctionNames.map (declare String)).map .original) := by
  have returned : ∃ all functions, run sampleEnvironment sampleOptions (fun _ _ => some true)
      (fun _ => .ok []) (fun _ _ => .ok ())
      ⟨"declared.ll", runtimeFunctionNames.map (declare String)⟩ =
        some (.preserved all functions) := ⟨_, _, rfl⟩
  obtain ⟨all, functions, finished⟩ := returned
  refine ⟨all, functions, finished, (run_preserved_iff finished).mpr (.inr (.inr ?_))⟩
  intro name listed
  exact ⟨declare String name, List.mem_map_of_mem listed, rfl⟩

/-- The empty module gets five declarations and is reported as unchanged. -/
theorem run_preserved_empty :
    ∃ functions, run sampleEnvironment sampleOptions (fun _ _ => some true) (fun _ => .ok [])
        (fun _ _ => .ok ()) ⟨"empty.ll", []⟩ = some (.preserved true functions) ∧
      functions.map (·.name) = runtimeFunctionNames ∧
      functions ≠ ([] : List (Function String)).map .original := by
  refine ⟨_, rfl, by decide, ?_⟩
  intro same
  exact absurd (congrArg List.length same) (by decide)

end Run

end Spoor.Instrumentation
