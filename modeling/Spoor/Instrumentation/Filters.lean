import Mathlib.Data.List.Basic

/-! # Filters that decide which functions are instrumented

A filter is a rule with an action and optional conditions on the source file,
the names and the size of a function.  Block rules are consulted first and
allow rules afterwards; a function is instrumented unless some block rule and
no allow rule matches it.

Regular expressions are those of the standard library.  They enter as the
function `regexMatch`, which has no value on a pattern that is not a regular
expression: there the constructor throws and the compilation ends.
-/

namespace Spoor.Instrumentation.Filters

/-- What a filter is told about a function. -/
structure FunctionInfo where
  sourceFilePath : String
  demangledName : String
  linkageName : String
  irInstructionCount : Int
  deriving Repr, DecidableEq

inductive Action where
  | allow
  | block
  deriving Repr, DecidableEq

structure Filter where
  action : Action
  ruleName : Option String
  sourceFilePath : Option String
  functionDemangledName : Option String
  functionLinkageName : Option String
  functionIrInstructionCountLt : Option Int
  functionIrInstructionCountGt : Option Int
  deriving Repr, DecidableEq

structure InstrumentFunctionResult where
  instrument : Bool
  activeFilterRuleName : Option String
  deriving Repr, DecidableEq

/-- The rule that keeps the runtime's initialization from being instrumented. -/
def configFilter : Filter where
  action := .block
  ruleName := some "Block config file path configuration function"
  sourceFilePath := none
  functionDemangledName := some "^spoor::runtime::ConfigFilePath\\(\\)$"
  functionLinkageName := none
  functionIrInstructionCountLt := none
  functionIrInstructionCountGt := none

def defaultFilters : List Filter := [configFilter]

/-- The demangled name of the function that `configFilter` is about. -/
def configFunctionName : String := "spoor::runtime::ConfigFilePath()"

section Matching

variable (regexMatch : String → String → Option Bool)

/-- An absent pattern matches every text. -/
def patternMatches (pattern : Option String) (text : String) : Option Bool :=
  match pattern with
  | none => some true
  | some pattern => regexMatch pattern text

/-- All conditions of a filter are evaluated, so a pattern that is not a
    regular expression throws even when another condition already fails. -/
def Filter.matchesFunction (filter : Filter) (info : FunctionInfo) : Option Bool := do
  let path ← patternMatches regexMatch filter.sourceFilePath info.sourceFilePath
  let demangled ← patternMatches regexMatch filter.functionDemangledName info.demangledName
  let linkage ← patternMatches regexMatch filter.functionLinkageName info.linkageName
  let below := filter.functionIrInstructionCountLt.all fun bound => info.irInstructionCount < bound
  let above := filter.functionIrInstructionCountGt.all fun bound => bound < info.irInstructionCount
  return path && demangled && linkage && below && above

/-- Whether some rule with the action matches.  The search ends at the first
    one, which leaves its name as the active rule. -/
def anyOf (action : Action) (info : FunctionInfo) :
    List Filter → Option String → Option (Bool × Option String)
  | [], active => some (false, active)
  | filter :: filters, active =>
      if filter.action = action then do
        let matched ← filter.matchesFunction regexMatch info
        if matched then return (true, filter.ruleName) else anyOf action info filters active
      else anyOf action info filters active

def instrumentFunction (filters : List Filter) (info : FunctionInfo) :
    Option InstrumentFunctionResult := do
  let block ← anyOf regexMatch .block info filters none
  let allow ← anyOf regexMatch .allow info filters block.2
  return { instrument := !block.1 || allow.1, activeFilterRuleName := allow.2 }

variable {regexMatch}

/-- A search that comes to an end finds a rule exactly when there is one. -/
theorem anyOf_iff {action : Action} {info : FunctionInfo} {filters : List Filter}
    {active : Option String} {found : Bool} {rule : Option String}
    (searched : anyOf regexMatch action info filters active = some (found, rule)) :
    found = true ↔ ∃ filter ∈ filters, filter.action = action ∧
      filter.matchesFunction regexMatch info = some true := by
  induction filters with
  | nil =>
      simp only [anyOf, Option.some.injEq, Prod.mk.injEq] at searched
      simp [← searched.1]
  | cons filter filters ih =>
      simp only [anyOf] at searched
      split at searched
      case isTrue same =>
        cases outcome : filter.matchesFunction regexMatch info with
        | none => simp [outcome] at searched
        | some matched =>
            cases matched with
            | true =>
                simp [outcome] at searched
                simp [← searched.1, same, outcome]
            | false =>
                have rest : anyOf regexMatch action info filters active = some (found, rule) := by
                  simpa [outcome] using searched
                simp [ih rest, outcome]
      case isFalse other => simp [ih searched, other]

/-- The policy of the filters: instrument unless some block rule and no allow
    rule matches. -/
theorem instrumentFunction_iff {filters : List Filter} {info : FunctionInfo}
    {result : InstrumentFunctionResult}
    (decided : instrumentFunction regexMatch filters info = some result) :
    result.instrument = true ↔
      (∃ filter ∈ filters, filter.action = .block ∧
        filter.matchesFunction regexMatch info = some true) →
      ∃ filter ∈ filters, filter.action = .allow ∧
        filter.matchesFunction regexMatch info = some true := by
  simp only [instrumentFunction, Option.bind_eq_bind, Option.bind_eq_some_iff, Option.pure_def,
    Option.some.injEq, Prod.exists] at decided
  obtain ⟨block, active, blocked, allow, rule, allowed, rfl⟩ := decided
  rw [← anyOf_iff blocked, ← anyOf_iff allowed]
  cases block <;> simp

end Matching

end Spoor.Instrumentation.Filters
