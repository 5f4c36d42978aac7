import Mathlib.Data.List.Basic
import Spoor.Instrumentation.Filters

/-! # The policy of the filters

The two searches of `instrumentFunction` share one variable for the name of the
active rule.  Here the regular expressions are any predicate `fullMatch` on a
pattern and a text, so that no pattern throws, and the result is stated without
the searches: which rules match, what is decided, and which rule is reported.
-/

namespace Spoor.Instrumentation.Filters

variable (fullMatch : String → String → Bool)

/-- A matcher that takes every pattern. -/
def accepting (pattern text : String) : Option Bool := some (fullMatch pattern text)

/-- All conditions that the rule has hold of the function. -/
structure Filter.Applies (filter : Filter) (info : FunctionInfo) : Prop where
  sourceFilePath : ∀ pattern, filter.sourceFilePath = some pattern →
    fullMatch pattern info.sourceFilePath = true
  demangledName : ∀ pattern, filter.functionDemangledName = some pattern →
    fullMatch pattern info.demangledName = true
  linkageName : ∀ pattern, filter.functionLinkageName = some pattern →
    fullMatch pattern info.linkageName = true
  below : ∀ bound, filter.functionIrInstructionCountLt = some bound →
    info.irInstructionCount < bound
  above : ∀ bound, filter.functionIrInstructionCountGt = some bound →
    bound < info.irInstructionCount

/-- The first rule with the action that matches the function. -/
def firstMatch (action : Action) (info : FunctionInfo) (filters : List Filter) : Option Filter :=
  filters.find? fun filter =>
    filter.action = action && filter.matchesFunction (accepting fullMatch) info = some true

variable {fullMatch}

theorem patternMatches_accepting (pattern : Option String) (text : String) :
    patternMatches (accepting fullMatch) pattern text =
      some (pattern.all fun pattern => fullMatch pattern text) := by
  cases pattern with
  | none => rfl
  | some pattern => rfl

/-- With a matcher that takes every pattern each rule has a verdict. -/
theorem matchesFunction_accepting (filter : Filter) (info : FunctionInfo) :
    ∃ matched, filter.matchesFunction (accepting fullMatch) info = some matched ∧
      (matched = true ↔ filter.Applies fullMatch info) := by
  simp only [Filter.matchesFunction, patternMatches_accepting, Option.bind_eq_bind,
    Option.bind_some, Option.pure_def]
  refine ⟨_, rfl, ?_⟩
  simp only [Bool.and_eq_true, Option.all_eq_true_iff_get, decide_eq_true_eq, and_assoc]
  constructor
  · intro conditions
    obtain ⟨path, demangled, linkage, below, above⟩ := conditions
    constructor
    · intro pattern present
      simpa [present] using path
    · intro pattern present
      simpa [present] using demangled
    · intro pattern present
      simpa [present] using linkage
    · intro bound present
      simpa [present] using below
    · intro bound present
      simpa [present] using above
  · intro applies
    refine ⟨?_, ?_, ?_, ?_, ?_⟩
    · exact fun present => applies.sourceFilePath _ (Option.some_get present).symm
    · exact fun present => applies.demangledName _ (Option.some_get present).symm
    · exact fun present => applies.linkageName _ (Option.some_get present).symm
    · exact fun present => applies.below _ (Option.some_get present).symm
    · exact fun present => applies.above _ (Option.some_get present).symm

theorem matchesFunction_iff (filter : Filter) (info : FunctionInfo) :
    filter.matchesFunction (accepting fullMatch) info = some true ↔
      filter.Applies fullMatch info := by
  obtain ⟨matched, verdict, same⟩ := @matchesFunction_accepting fullMatch filter info
  rw [verdict, Option.some.injEq, same]

/-- The search ends at the first rule that matches; without one it leaves the
    name that was there before. -/
theorem anyOf_accepting (action : Action) (info : FunctionInfo) (filters : List Filter)
    (active : Option String) :
    anyOf (accepting fullMatch) action info filters active =
      some (match firstMatch fullMatch action info filters with
        | some filter => (true, filter.ruleName)
        | none => (false, active)) := by
  induction filters with
  | nil => rfl
  | cons filter filters ih =>
      obtain ⟨matched, verdict, -⟩ := @matchesFunction_accepting fullMatch filter info
      by_cases same : filter.action = action
      · cases matched with
        | true => simp [anyOf, firstMatch, same, verdict]
        | false => simpa [anyOf, firstMatch, same, verdict] using ih
      · simpa [anyOf, firstMatch, same] using ih

theorem firstMatch_isSome {action : Action} {info : FunctionInfo} {filters : List Filter} :
    (firstMatch fullMatch action info filters).isSome = true ↔
      ∃ filter ∈ filters, filter.action = action ∧ filter.Applies fullMatch info := by
  simp [firstMatch, List.find?_isSome, matchesFunction_iff]

/-- The result in terms of the two first matches. -/
theorem instrumentFunction_accepting (filters : List Filter) (info : FunctionInfo) :
    instrumentFunction (accepting fullMatch) filters info = some {
      instrument := !(firstMatch fullMatch .block info filters).isSome ||
        (firstMatch fullMatch .allow info filters).isSome
      activeFilterRuleName := ((firstMatch fullMatch .allow info filters).or
        (firstMatch fullMatch .block info filters)).bind Filter.ruleName } := by
  simp only [instrumentFunction, anyOf_accepting, Option.bind_eq_bind, Option.bind_some,
    Option.pure_def]
  cases blocked : firstMatch fullMatch .block info filters <;>
    cases allowed : firstMatch fullMatch .allow info filters <;> rfl

/-- Rules in another order, or repeated, match the same functions. -/
theorem firstMatch_isSome_congr {action : Action} {info : FunctionInfo}
    {filters others : List Filter}
    (same : ∀ filter, filter ∈ others ↔ filter ∈ filters) :
    (firstMatch fullMatch action info others).isSome =
      (firstMatch fullMatch action info filters).isSome := by
  rw [Bool.eq_iff_iff, firstMatch_isSome, firstMatch_isSome]
  simp only [same]

/-- A function is instrumented unless some block rule and no allow rule matches
    it, whatever the order and the repetitions of the rules.  The rule reported
    is the first allow rule that matches, or else the first such block rule. -/
theorem instrumentFunction_policy (filters : List Filter) (info : FunctionInfo) :
    (∀ filter : Filter, filter.matchesFunction (accepting fullMatch) info = some true ↔
      filter.Applies fullMatch info) ∧
    ∃ result, instrumentFunction (accepting fullMatch) filters info = some result ∧
      (result.instrument = true ↔
        (¬∃ filter ∈ filters, filter.action = .block ∧ filter.Applies fullMatch info) ∨
        ∃ filter ∈ filters, filter.action = .allow ∧ filter.Applies fullMatch info) ∧
      result.activeFilterRuleName = ((firstMatch fullMatch .allow info filters).or
        (firstMatch fullMatch .block info filters)).bind Filter.ruleName ∧
      ∀ others : List Filter, (∀ filter, filter ∈ others ↔ filter ∈ filters) →
        (instrumentFunction (accepting fullMatch) others info).map (·.instrument) =
          some result.instrument := by
  refine ⟨fun filter => matchesFunction_iff filter info, _,
    instrumentFunction_accepting filters info, ?_, rfl, ?_⟩
  · rw [← firstMatch_isSome, ← firstMatch_isSome]
    simp only [Bool.or_eq_true, Bool.not_eq_eq_eq_not, Bool.not_true, Bool.not_eq_true]
  · intro others same
    rw [instrumentFunction_accepting others info, firstMatch_isSome_congr same,
      firstMatch_isSome_congr same]
    rfl

end Spoor.Instrumentation.Filters
