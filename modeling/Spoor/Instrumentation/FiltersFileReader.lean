import Mathlib.Algebra.Order.Ring.Int
import Mathlib.Data.List.Forall2
import Spoor.Instrumentation.Filters
import Spoor.Lib.Toml

/-! # The reader of the filters file

A filters file has a list of tables for the allow rules and one for the block
rules.  The reader rejects nodes and keys that it does not know.  The value of a
known key is read as the type that the rule expects; when it is not of that type
the reader goes on as if the key was not there.
-/

namespace Spoor.Instrumentation.Filters

open Lib.Toml

inductive ErrorType where
  | failedToOpenFile
  | malformedFile
  | malformedNode
  | unknownNode
  deriving Repr, DecidableEq

structure Error where
  type : ErrorType
  message : String
  deriving Repr, DecidableEq

def kAllowKey : String := "allow"

def kBlockKey : String := "block"

def kRuleNameKey : String := "rule_name"

def kSourceFilePathKey : String := "source_file_path"

def kFunctionDemangledNameKey : String := "function_demangled_name"

def kFunctionLinkageNameKey : String := "function_linkage_name"

def kFunctionIrInstructionCountLtKey : String := "function_ir_instruction_count_lt"

def kFunctionIrInstructionCountGtKey : String := "function_ir_instruction_count_gt"

def kActions : List (String × Action) := [(kAllowKey, .allow), (kBlockKey, .block)]

def kFilterKeys : List String :=
  [kRuleNameKey, kSourceFilePathKey, kFunctionDemangledNameKey, kFunctionLinkageNameKey,
    kFunctionIrInstructionCountLtKey, kFunctionIrInstructionCountGtKey]

def openError (filePath : String) : Error :=
  ⟨.failedToOpenFile, "Failed to open the file \"" ++ filePath ++ "\" for reading."⟩

def unknownFilterType (key : String) : Error :=
  ⟨.unknownNode, "Unknown filter type \"" ++ key ++ "\"."⟩

def notAListOfFilters (key : String) : Error :=
  ⟨.malformedNode, "Malformed node \"" ++ key ++ "\" is not a list of filters."⟩

def unknownRule (rule key : String) : Error :=
  ⟨.unknownNode, "Unknown rule \"" ++ rule ++ "\" in filter \"" ++ key ++ "\"."⟩

section Reader

variable {β : Type} (conversions : Conversions β)

/-- The text under the key, if there is one. -/
def textRule (table : Table β) (key : String) : Option String :=
  (table.get key).bind (·.value conversions.text)

/-- The count under the key: read as an unsigned number and stored as a signed
    one of the same width. -/
def countRule (table : Table β) (key : String) : Option Int :=
  ((table.get key).bind (·.integerValue conversions 0 (2 ^ 32 - 1))).map (·.bmod (2 ^ 32))

/-- The filter of a table. -/
def filterOf (action : Action) (table : Table β) : Filter where
  action := action
  ruleName := textRule conversions table kRuleNameKey
  sourceFilePath := textRule conversions table kSourceFilePathKey
  functionDemangledName := textRule conversions table kFunctionDemangledNameKey
  functionLinkageName := textRule conversions table kFunctionLinkageNameKey
  functionIrInstructionCountLt := countRule conversions table kFunctionIrInstructionCountLtKey
  functionIrInstructionCountGt := countRule conversions table kFunctionIrInstructionCountGtKey

/-- `ParseFilter`. -/
def parseFilter (action : Action) (key : String) (node : Node β) : Except Error Filter :=
  match node.asTable with
  | none => .error (notAListOfFilters key)
  | some table =>
      match table.find? (·.1 ∉ kFilterKeys) with
      | some entry => .error (unknownRule entry.1 key)
      | none => .ok (filterOf conversions action table)

/-- One round of the loop over the nodes of the document. -/
def parseFilters (entry : String × Node β) : Except Error (List Filter) :=
  match kActions.lookup entry.1 with
  | none => .error (unknownFilterType entry.1)
  | some action =>
      match entry.2.asArray with
      | none => .error (notAListOfFilters entry.1)
      | some elements => elements.mapM (parseFilter conversions action entry.1)

/-- `FiltersFileReader::Read`. -/
def read (filePath : String) : File β → Except Error (List Filter)
  | .unopened => .error (openError filePath)
  | .malformed description => .error ⟨.malformedFile, description⟩
  | .parsed document => do
      let filters ← document.mapM (parseFilters conversions)
      return filters.flatten

end Reader

/-! ## What the reader accepts -/

section Accepted

variable {α ε γ : Type}

theorem bind_eq_ok {checked : Except ε α} {next : α → Except ε γ} {result : γ} :
    checked >>= next = .ok result ↔ ∃ value, checked = .ok value ∧ next value = .ok result := by
  cases checked with
  | error error => simp [bind, Except.bind]
  | ok value => simp [bind, Except.bind]

/-- All of a list is accepted exactly if each of its members is. -/
theorem mapM_eq_ok {check : α → Except ε γ} {Valid : α → Prop} {result : α → γ}
    (step : ∀ value outcome, check value = .ok outcome ↔ Valid value ∧ outcome = result value)
    (values : List α) {outcomes : List γ} :
    values.mapM check = .ok outcomes ↔
      (∀ value ∈ values, Valid value) ∧ outcomes = values.map result := by
  induction values generalizing outcomes with
  | nil => simp [pure, Except.pure, eq_comm]
  | cons value values ih =>
      rw [List.mapM_cons, bind_eq_ok]
      simp only [bind_eq_ok, step, ih, pure, Except.pure, Except.ok.injEq, List.forall_mem_cons,
        List.map_cons]
      constructor
      · rintro ⟨_, ⟨valid, rfl⟩, _, ⟨rest, rfl⟩, rfl⟩
        exact ⟨⟨valid, rest⟩, rfl⟩
      · rintro ⟨⟨valid, rest⟩, rfl⟩
        exact ⟨_, ⟨valid, rfl⟩, _, ⟨rest, rfl⟩, rfl⟩

end Accepted

section Document

variable {β : Type}

def KnownRules (table : Table β) : Prop := ∀ entry ∈ table, entry.1 ∈ kFilterKeys

/-- A table with known keys only. -/
def IsFilter (node : Node β) : Prop := ∃ table, node.asTable = some table ∧ KnownRules table

/-- A list of filters under the key of an action. -/
def IsFilterList (entry : String × Node β) : Prop :=
  (kActions.lookup entry.1).isSome ∧
    ∃ elements, entry.2.asArray = some elements ∧ ∀ element ∈ elements, IsFilter element

/-- A document with known keys and nodes of the right shape; nothing is said about
    the values of the rules. -/
def WellFormed (document : Table β) : Prop := ∀ entry ∈ document, IsFilterList entry

/-- The tables of a list of filters, each with the action. -/
def tablesIn (entry : String × Node β) : List (Action × Table β) :=
  match kActions.lookup entry.1, entry.2.asArray with
  | some action, some elements => (elements.filterMap Node.asTable).map fun table => (action, table)
  | _, _ => []

/-- The tables of all lists of filters. -/
def filterTables (document : Table β) : List (Action × Table β) := document.flatMap tablesIn

variable {conversions : Conversions β}

theorem find?_unknown {table : Table β} :
    table.find? (·.1 ∉ kFilterKeys) = none ↔ KnownRules table := by
  simp [List.find?_eq_none, KnownRules]

theorem parseFilter_eq_ok {action : Action} {key : String} (node : Node β) (filter : Filter) :
    parseFilter conversions action key node = .ok filter ↔
      IsFilter node ∧ filter = filterOf conversions action (node.asTable.getD []) := by
  rw [parseFilter, IsFilter]
  cases node.asTable with
  | none => simp
  | some table =>
      simp only [Option.some.injEq, exists_eq_left', Option.getD_some]
      rw [← find?_unknown]
      cases table.find? (·.1 ∉ kFilterKeys) with
      | none => simp [eq_comm]
      | some entry => simp

theorem map_getD_asTable {elements : List (Node β)}
    (filters : ∀ element ∈ elements, IsFilter element) :
    elements.map (fun node => node.asTable.getD []) = elements.filterMap Node.asTable := by
  induction elements with
  | nil => rfl
  | cons node elements ih =>
      obtain ⟨⟨table, isTable, _⟩, rest⟩ := List.forall_mem_cons.mp filters
      rw [List.map_cons, List.filterMap_cons, isTable, ih rest, Option.getD_some]

theorem parseFilters_eq_ok (entry : String × Node β) (filters : List Filter) :
    parseFilters conversions entry = .ok filters ↔ IsFilterList entry ∧
      filters = (tablesIn entry).map fun source => filterOf conversions source.1 source.2 := by
  rw [parseFilters]
  cases known : kActions.lookup entry.1 with
  | none => simp [IsFilterList, known]
  | some action =>
      cases list : entry.2.asArray with
      | none => simp [IsFilterList, list]
      | some elements =>
          have parsed := @mapM_eq_ok _ _ _ _ _ _
            (@parseFilter_eq_ok _ conversions action entry.1) elements filters
          simp only [parsed, IsFilterList, tablesIn, known, list, Option.isSome_some, true_and,
            Option.some.injEq, exists_eq_left', List.map_map]
          apply and_congr_right
          intro valid
          rw [← map_getD_asTable valid, List.map_map]
          rfl

/-- The reader accepts the well-formed documents, whatever the values of the rules
    are, and makes one filter of each table. -/
theorem read_eq_ok {filePath : String} {file : File β} {filters : List Filter} :
    read conversions filePath file = .ok filters ↔
      ∃ document, file = .parsed document ∧ WellFormed document ∧
        filters = (filterTables document).map fun source =>
          filterOf conversions source.1 source.2 := by
  cases file with
  | unopened => simp [read]
  | malformed description => simp [read]
  | parsed document =>
      have parsed := fun lists => @mapM_eq_ok _ _ _ _ _ _
        (@parseFilters_eq_ok _ conversions) document lists
      rw [read, bind_eq_ok]
      simp only [parsed, File.parsed.injEq, exists_eq_left', pure, Except.pure, Except.ok.injEq]
      constructor
      · rintro ⟨_, ⟨valid, rfl⟩, rfl⟩
        refine ⟨valid, ?_⟩
        rw [filterTables, List.map_flatMap, List.flatMap_def]
      · rintro ⟨valid, rfl⟩
        refine ⟨_, ⟨valid, rfl⟩, ?_⟩
        rw [filterTables, List.map_flatMap, List.flatMap_def]

/-! ## What becomes of the conditions -/

/-- Whatever the table has under the key, the field has as a value of the type. -/
def Keeps {α : Type} (convert : β → Option α) (table : Table β) (key : String)
    (field : Option α) : Prop :=
  ∀ node, table.get key = some node → ∃ value, node.value convert = some value ∧ field = some value

def textFields : List (String × (Filter → Option String)) :=
  [(kRuleNameKey, Filter.ruleName), (kSourceFilePathKey, Filter.sourceFilePath),
    (kFunctionDemangledNameKey, Filter.functionDemangledName),
    (kFunctionLinkageNameKey, Filter.functionLinkageName)]

def countFields : List (String × (Filter → Option Int)) :=
  [(kFunctionIrInstructionCountLtKey, Filter.functionIrInstructionCountLt),
    (kFunctionIrInstructionCountGtKey, Filter.functionIrInstructionCountGt)]

/-- Every condition of the table is a condition of the filter. -/
structure KeepsConditions (conversions : Conversions β) (table : Table β) (filter : Filter) :
    Prop where
  texts : ∀ rule ∈ textFields, Keeps conversions.text table rule.1 (rule.2 filter)
  counts : ∀ rule ∈ countFields, Keeps conversions.integer table rule.1 (rule.2 filter)

/-- If the file is read, then every table of its lists of filters has become one
    filter with the action of its list and all its conditions. -/
def NeverWeakens (conversions : Conversions β) (filePath : String) (file : File β) : Prop :=
  ∀ filters, read conversions filePath file = .ok filters →
    ∃ document, file = .parsed document ∧
      List.Forall₂ (fun source filter => filter.action = source.1 ∧
        KeepsConditions conversions source.2 filter) (filterTables document) filters

/-- The rules of the table have values of their types, and the counts are not
    negative and fit the signed type. -/
structure WellTyped (conversions : Conversions β) (table : Table β) : Prop where
  texts : ∀ rule ∈ textFields, ∀ node, table.get rule.1 = some node →
    ∃ text, node.value conversions.text = some text
  counts : ∀ rule ∈ countFields, ∀ node, table.get rule.1 = some node →
    ∃ count, node.value conversions.integer = some count ∧ 0 ≤ count ∧ count < 2 ^ 31

theorem keeps_textRule_iff {table : Table β} {key : String} :
    Keeps conversions.text table key (textRule conversions table key) ↔
      ∀ node, table.get key = some node → ∃ text, node.value conversions.text = some text := by
  apply forall₂_congr
  intro node present
  simp only [textRule, present, Option.bind_some]
  exact exists_congr fun text => and_self_iff

/-- A count keeps its value in the signed type if it fits. -/
theorem bmod_eq_self_iff {count : Int} (low : 0 ≤ count) (high : count ≤ 2 ^ 32 - 1) :
    count.bmod (2 ^ 32) = count ↔ count < 2 ^ 31 := by
  rw [Int.bmod_def]
  omega

theorem keeps_countRule_iff {table : Table β} {key : String} :
    Keeps conversions.integer table key (countRule conversions table key) ↔
      ∀ node, table.get key = some node →
        ∃ count, node.value conversions.integer = some count ∧ 0 ≤ count ∧ count < 2 ^ 31 := by
  apply forall₂_congr
  intro node present
  apply exists_congr
  intro count
  apply and_congr_right
  intro valued
  simp only [countRule, present, Option.bind_some, Option.map_eq_some_iff,
    Node.integerValue_eq_some, valued, Option.some.injEq]
  constructor
  · rintro ⟨_, ⟨rfl, low, high⟩, same⟩
    exact ⟨low, (bmod_eq_self_iff low high).mp same⟩
  · rintro ⟨low, fits⟩
    have high : count ≤ 2 ^ 32 - 1 := by omega
    exact ⟨count, ⟨rfl, low, high⟩, (bmod_eq_self_iff low high).mpr fits⟩

theorem keepsConditions_filterOf_iff {action : Action} {table : Table β} :
    KeepsConditions conversions table (filterOf conversions action table) ↔
      WellTyped conversions table := by
  have texts : (∀ rule ∈ textFields, Keeps conversions.text table rule.1
      (rule.2 (filterOf conversions action table))) ↔ ∀ rule ∈ textFields,
        Keeps conversions.text table rule.1 (textRule conversions table rule.1) := by
    simp [textFields, filterOf]
  have counts : (∀ rule ∈ countFields, Keeps conversions.integer table rule.1
      (rule.2 (filterOf conversions action table))) ↔ ∀ rule ∈ countFields,
        Keeps conversions.integer table rule.1 (countRule conversions table rule.1) := by
    simp [countFields, filterOf]
  simp only [keeps_textRule_iff] at texts
  simp only [keeps_countRule_iff] at counts
  constructor
  · intro keeps
    exact ⟨texts.mp keeps.texts, counts.mp keeps.counts⟩
  · intro typed
    exact ⟨texts.mpr typed.texts, counts.mpr typed.counts⟩

/-- No condition is lost or altered exactly if the conditions of a file that is
    otherwise well-formed have values of their types. -/
theorem read_neverWeakens_iff (conversions : Conversions β) (filePath : String) (file : File β) :
    NeverWeakens conversions filePath file ↔
      ∀ document, file = .parsed document → WellFormed document →
        ∀ source ∈ filterTables document, WellTyped conversions source.2 := by
  have related : ∀ document : Table β,
      List.Forall₂ (fun source filter => filter.action = source.1 ∧
          KeepsConditions conversions source.2 filter) (filterTables document)
        ((filterTables document).map fun source => filterOf conversions source.1 source.2) ↔
      ∀ source ∈ filterTables document, WellTyped conversions source.2 := by
    intro document
    rw [List.forall₂_map_right_iff, List.forall₂_same]
    apply forall₂_congr
    intro source _
    rw [keepsConditions_filterOf_iff]
    exact and_iff_right rfl
  constructor
  · rintro keeps document rfl valid
    obtain ⟨_, same, conditions⟩ := keeps _ (read_eq_ok.mpr ⟨document, rfl, valid, rfl⟩)
    cases same
    exact (related document).mp conditions
  · intro typed filters accepted
    obtain ⟨document, parsed, valid, rfl⟩ := read_eq_ok.mp accepted
    exact ⟨document, parsed, (related document).mpr (typed document parsed valid)⟩

end Document

/-- An allow rule with one condition. -/
def allowFile (key : String) (value : Scalar) : File Scalar :=
  .parsed [(kAllowKey, .array [.table [(key, .scalar value)]])]

theorem keepsConditions_of_allowFile {key : String} {value : Scalar} (known : key ∈ kFilterKeys)
    (keeps : NeverWeakens strictConversions "filters.toml" (allowFile key value)) :
    KeepsConditions strictConversions [(key, .scalar value)]
      (filterOf strictConversions .allow [(key, .scalar value)]) := by
  have isFilter : IsFilter (.table [(key, .scalar value)] : Node Scalar) :=
    ⟨_, rfl, by simpa [KnownRules] using known⟩
  have valid : WellFormed [(kAllowKey, .array [.table [(key, Node.scalar value)]])] := by
    intro entry listed
    obtain rfl := List.mem_singleton.mp listed
    exact ⟨rfl, _, rfl, by simpa using isFilter⟩
  obtain ⟨document, parsed, related⟩ := keeps _ (read_eq_ok.mpr ⟨_, rfl, valid, rfl⟩)
  cases parsed
  exact (List.forall₂_cons.mp related).1.2

/-- A linkage name that is a number is dropped, and the rule is one for all
    functions; a large bound becomes a negative one. -/
theorem mistyped_weakened :
    ¬NeverWeakens strictConversions "filters.toml"
      (allowFile kFunctionLinkageNameKey (.integer 42)) ∧
    ¬NeverWeakens strictConversions "filters.toml"
      (allowFile kFunctionIrInstructionCountLtKey (.integer 3000000000)) := by
  constructor
  · intro keeps
    have conditions := keepsConditions_of_allowFile (by decide) keeps
    obtain ⟨text, typed, _⟩ :=
      conditions.texts (kFunctionLinkageNameKey, Filter.functionLinkageName)
        (by simp [textFields]) _ rfl
    contradiction
  · intro keeps
    have conditions := keepsConditions_of_allowFile (by decide) keeps
    obtain ⟨count, typed, stored⟩ :=
      conditions.counts (kFunctionIrInstructionCountLtKey,
        Filter.functionIrInstructionCountLt) (by simp [countFields]) _ rfl
    obtain rfl : 3000000000 = count := Option.some.inj typed
    exact absurd stored (by decide)

end Spoor.Instrumentation.Filters
