import Mathlib.Data.List.Sort
import Spoor.Lib.Delimited
import Spoor.Perfetto.PerfettoAdapter
import Spoor.Symbols.Symbols

/-! # Symbols as comma-separated values

The export writes a line with the names of the columns and a line for each function
info.  The parts of a line are joined by a delimiter, which the texts of an info are
not searched for.
-/

namespace Spoor.Symbols

open Lib Lib.Delimited
open Perfetto (formatId)

def kCsvDelimiter : Char := ';'

/-- A text that stays one part of one line. -/
def Plain (text : Text) : Prop := kCsvDelimiter ∉ text ∧ '\n' ∉ text

instance (text : Text) : Decidable (Plain text) := inferInstanceAs (Decidable (_ ∧ _))

/-- `TimeUtil::ToString`, which prints digits, signs and letters. -/
structure TimeFormat where
  print : Timestamp → Text
  plain : ∀ timestamp, Plain (print timestamp)

/-- A stream that takes what is written to it while it is good. -/
structure Ostream where
  text : Text
  good : Bool
  deriving Repr, DecidableEq

def Ostream.write (ostream : Ostream) (text : Text) : Ostream :=
  if ostream.good then { ostream with text := ostream.text ++ text } else ostream

def kSpoorSymbolsColumns : List Text :=
  ["function_id".toList, "module_id".toList, "linkage_name".toList, "demangled_name".toList,
    "file_name".toList, "directory".toList, "line".toList, "ir_instruction_count".toList,
    "instrumented".toList, "instrumented_reason".toList, "created_at".toList]

section Serialization

variable (format : TimeFormat)

/-- The row of a function info; fields that were not set have their defaults. -/
def csvRow (functionId : FunctionId) (info : FunctionInfo) : List Text :=
  [(formatId functionId).toList,
    info.moduleId.getD [],
    info.linkageName.getD [],
    info.demangledName.getD [],
    info.fileName.getD [],
    info.directory.getD [],
    if info.line.getD 0 < 1 then [] else (toString (info.line.getD 0)).toList,
    (toString (info.irInstructionCount.getD 0)).toList,
    if info.instrumented.getD false then "true".toList else "false".toList,
    info.instrumentedReason.getD [],
    format.print (info.createdAt.getD ⟨0, 0⟩)]

def csvLine (row : List Text) : Text := [kCsvDelimiter].intercalate row

/-- The function ids in ascending order. -/
def functionIds (symbols : SymbolsTable) : List FunctionId :=
  symbols.keys.insertionSort (· ≤ ·)

def writeRow (functionId : FunctionId) (ostream : Ostream) (info : FunctionInfo) : Ostream :=
  (ostream.write ['\n']).write (csvLine (csvRow format functionId info))

def serializeSymbolsToOstreamAsCsv (symbols : SymbolsTable) (ostream : Ostream) :
    Except Unit Unit × Ostream :=
  let header := ostream.write (csvLine kSpoorSymbolsColumns)
  let written := (functionIds symbols).foldl
    (fun ostream functionId =>
      (symbols.values functionId).foldl (writeRow format functionId) ostream)
    header
  (if written.good then .ok () else .error (), written)

/-- What the export writes to an empty stream. -/
def csv (symbols : SymbolsTable) : Text :=
  (serializeSymbolsToOstreamAsCsv format symbols ⟨[], true⟩).2.text

end Serialization

/-! ## What is written -/

/-- The function infos with their ids, in the order in which they are written. -/
def orderedInfos (symbols : SymbolsTable) : List (FunctionId × FunctionInfo) :=
  (functionIds symbols).flatMap fun functionId =>
    (symbols.values functionId).map fun info => (functionId, info)

/-- The names of the columns and the rows. -/
def csvLines (format : TimeFormat) (symbols : SymbolsTable) : List Text :=
  csvLine kSpoorSymbolsColumns ::
    (orderedInfos symbols).map fun entry => csvLine (csvRow format entry.1 entry.2)

section Written

variable {format : TimeFormat}

theorem foldl_writeRow (functionId : FunctionId) (infos : List FunctionInfo) (text : Text) :
    infos.foldl (writeRow format functionId) ⟨text, true⟩ =
      ⟨text ++ infos.flatMap fun info => '\n' :: csvLine (csvRow format functionId info),
        true⟩ := by
  induction infos generalizing text with
  | nil => simp
  | cons info infos ih =>
      rw [List.foldl_cons, writeRow, Ostream.write, Ostream.write, if_pos rfl, if_pos rfl, ih,
        List.flatMap_cons]
      simp

theorem foldl_writeRows (symbols : SymbolsTable) (ids : List FunctionId) (text : Text) :
    ids.foldl (fun ostream functionId =>
        (symbols.values functionId).foldl (writeRow format functionId) ostream) ⟨text, true⟩ =
      ⟨text ++ ids.flatMap fun functionId => (symbols.values functionId).flatMap fun info =>
        '\n' :: csvLine (csvRow format functionId info), true⟩ := by
  induction ids generalizing text with
  | nil => simp
  | cons functionId ids ih =>
      rw [List.foldl_cons, foldl_writeRow, ih, List.flatMap_cons, List.append_assoc]

/-- The lines are joined by line breaks. -/
theorem csv_eq (symbols : SymbolsTable) :
    csv format symbols = ['\n'].intercalate (csvLines format symbols) := by
  have header : (⟨[], true⟩ : Ostream).write (csvLine kSpoorSymbolsColumns) =
      ⟨csvLine kSpoorSymbolsColumns, true⟩ := rfl
  rw [csv, serializeSymbolsToOstreamAsCsv, header, foldl_writeRows, csvLines, intercalate_cons,
    orderedInfos, List.map_flatMap, List.flatMap_assoc]
  simp only [List.map_map, List.flatMap_map, Function.comp_def]

end Written

/-! ## The order of the rows -/

/-- Each info of each id once: the ids ascend, and the infos of an id are in the
    order of its list. -/
structure InOrder (symbols : SymbolsTable) (infos : List (FunctionId × FunctionInfo)) : Prop where
  ascending : infos.Pairwise fun left right => left.1 ≤ right.1
  complete : ∀ id, (infos.filter (·.1 = id)).map Prod.snd = symbols.values id

theorem filter_flatMap_pair {ids : List FunctionId} (distinct : ids.Nodup)
    (values : FunctionId → List FunctionInfo) (id : FunctionId) :
    (ids.flatMap fun other => (values other).map fun info => (other, info)).filter (·.1 = id) =
      if id ∈ ids then (values id).map fun info => (id, info) else [] := by
  induction ids with
  | nil => rfl
  | cons other ids ih =>
      obtain ⟨fresh, distinct⟩ := List.nodup_cons.mp distinct
      rw [List.flatMap_cons, List.filter_append, ih distinct]
      by_cases same : other = id
      · subst same
        simp [fresh]
      · have different : id ≠ other := Ne.symm same
        simp [same, different]

theorem orderedInfos_inOrder (symbols : SymbolsTable) : InOrder symbols (orderedInfos symbols) := by
  have order := List.pairwise_insertionSort (· ≤ ·) symbols.keys
  have same := List.perm_insertionSort (· ≤ ·) symbols.keys
  constructor
  · rw [orderedInfos, List.pairwise_flatMap]
    constructor
    · intro id _
      rw [List.pairwise_map]
      exact List.pairwise_of_forall fun _ _ => BitVec.le_refl id
    · apply order.imp
      simp only [List.forall_mem_map]
      intro id id' le _ _ _ _
      exact le
  · intro id
    have distinct : (functionIds symbols).Nodup := same.nodup_iff.mpr symbols.keys_nodup
    rw [orderedInfos, filter_flatMap_pair distinct]
    by_cases listed : id ∈ functionIds symbols
    · rw [if_pos listed, List.map_map]
      exact List.map_id _
    · have absent : id ∉ symbols := fun present => listed (same.mem_iff.mpr present)
      rw [if_neg listed, MultiMap.values, AList.lookup_eq_none.mpr absent]
      rfl

/-- There is one order only, and so one number of rows. -/
theorem InOrder.perm {symbols : SymbolsTable} {infos infos' : List (FunctionId × FunctionInfo)}
    (order : InOrder symbols infos) (order' : InOrder symbols infos') : infos.Perm infos' := by
  apply MultiMap.perm_of_valuesOf
  intro id
  rw [MultiMap.valuesOf, MultiMap.valuesOf, order.complete, order'.complete]

/-! ## Reading the rows back -/

/-- The columns with texts, by their numbers. -/
def textColumns : List (Nat × (FunctionInfo → Option Text)) :=
  [(1, FunctionInfo.moduleId), (2, FunctionInfo.linkageName), (3, FunctionInfo.demangledName),
    (4, FunctionInfo.fileName), (5, FunctionInfo.directory), (9, FunctionInfo.instrumentedReason)]

/-- The row has the id and the texts of the function info. -/
structure RowOf (row : List Text) (entry : FunctionId × FunctionInfo) : Prop where
  fields : row.length = 11
  id : row[0]? = some (formatId entry.1).toList
  texts : ∀ column ∈ textColumns, row[column.1]? = some ((column.2 entry.2).getD [])

/-- The text split at line breaks and delimiters is the names of the columns and a
    row for each function info, in order. -/
def ReadsBack (symbols : SymbolsTable) (text : Text) : Prop :=
  ∃ infos rows, InOrder symbols infos ∧ List.Forall₂ RowOf rows infos ∧
    (text.splitOn '\n').map (·.splitOn kCsvDelimiter) = kSpoorSymbolsColumns :: rows

/-- No text of the function info has a delimiter or a line break in it. -/
def PlainTexts (info : FunctionInfo) : Prop :=
  ∀ column ∈ textColumns, Plain ((column.2 info).getD [])

theorem plain_of_forall {text : Text}
    (plain : ∀ char ∈ text, char ≠ kCsvDelimiter ∧ char ≠ '\n') : Plain text :=
  ⟨fun listed => (plain _ listed).1 rfl, fun listed => (plain _ listed).2 rfl⟩

theorem mem_toDigits {base number : Nat} {char : Char} (large : 1 < base)
    (listed : char ∈ Nat.toDigits base number) : ∃ digit < base, char = Nat.digitChar digit := by
  induction number using Nat.strong_induction_on with
  | h number ih =>
      rw [Nat.toDigits_eq_if large] at listed
      split at listed
      · exact ⟨number, by assumption, by simpa using listed⟩
      · rw [List.mem_append] at listed
        cases listed with
        | inl front => exact ih _ (Nat.div_lt_self (by omega) large) front
        | inr last => exact ⟨number % base, Nat.mod_lt _ (by omega), by simpa using last⟩

theorem plain_digitChar : ∀ digit < 16,
    Nat.digitChar digit ≠ kCsvDelimiter ∧ Nat.digitChar digit ≠ '\n' := by
  decide

theorem plain_toDigits {base number : Nat} (large : 1 < base) (hexadecimal : base ≤ 16) :
    ∀ char ∈ Nat.toDigits base number, char ≠ kCsvDelimiter ∧ char ≠ '\n' := by
  intro char listed
  obtain ⟨digit, small, rfl⟩ := mem_toDigits large listed
  exact plain_digitChar digit (by omega)

theorem plain_prefix : ∀ char ∈ "0x".toList, char ≠ kCsvDelimiter ∧ char ≠ '\n' := by
  simp [kCsvDelimiter]

theorem plain_formatId (functionId : FunctionId) : Plain (formatId functionId).toList := by
  apply plain_of_forall
  intro char listed
  rw [formatId, String.toList_ofList, List.mem_append, List.mem_append] at listed
  obtain (lead | zero) | digit := listed
  · split at lead
    · simp at lead
    · exact plain_prefix char lead
  · obtain rfl := List.eq_of_mem_replicate zero
    decide
  · exact plain_toDigits (by decide) (by decide) char digit

theorem plain_toString (number : Int) : Plain (toString number).toList := by
  apply plain_of_forall
  cases number with
  | ofNat number =>
      have printed : (toString (Int.ofNat number)).toList = Nat.toDigits 10 number :=
        Nat.toList_repr
      rw [printed]
      exact plain_toDigits (by decide) (by decide)
  | negSucc number =>
      have printed : (toString (Int.negSucc number)).toList =
          '-' :: Nat.toDigits 10 (number + 1) := by
        rw [← Nat.toList_repr]
        simp [toString, Int.repr]
      rw [printed]
      intro char listed
      cases listed with
      | head => decide
      | tail _ digit => exact plain_toDigits (by decide) (by decide) char digit

section ReadBack

variable {format : TimeFormat}

theorem length_csvRow (functionId : FunctionId) (info : FunctionInfo) :
    (csvRow format functionId info).length = 11 := rfl

theorem csvRow_ne_nil (functionId : FunctionId) (info : FunctionInfo) :
    csvRow format functionId info ≠ [] :=
  List.cons_ne_nil _ _

theorem rowOf_csvRow (entry : FunctionId × FunctionInfo) :
    RowOf (csvRow format entry.1 entry.2) entry := by
  refine ⟨length_csvRow _ _, rfl, ?_⟩
  simp only [textColumns, List.forall_mem_cons]
  exact ⟨rfl, rfl, rfl, rfl, rfl, rfl, by simp⟩

/-- Only the texts can keep a row from being plain. -/
theorem plain_csvRow_iff (format : TimeFormat) (functionId : FunctionId) (info : FunctionInfo) :
    (∀ cell ∈ csvRow format functionId info, Plain cell) ↔ PlainTexts info := by
  have id := plain_formatId functionId
  have line :
      Plain (if info.line.getD 0 < 1 then [] else (toString (info.line.getD 0)).toList) := by
    split
    · decide
    · exact plain_toString _
  have count := plain_toString (info.irInstructionCount.getD 0)
  have instrumented :
      Plain (if info.instrumented.getD false then "true".toList else "false".toList) := by
    split <;> decide
  have time := format.plain (info.createdAt.getD ⟨0, 0⟩)
  simp only [csvRow, PlainTexts, textColumns, List.forall_mem_cons, List.not_mem_nil,
    IsEmpty.forall_iff, implies_true, and_true, id, line, count, instrumented, time, true_and]

theorem InOrder.mem_iff {symbols : SymbolsTable} {infos : List (FunctionId × FunctionInfo)}
    (order : InOrder symbols infos) {entry : FunctionId × FunctionInfo} :
    entry ∈ infos ↔ entry.2 ∈ symbols.values entry.1 := by
  rw [← order.complete, List.mem_map]
  constructor
  · intro listed
    exact ⟨entry, by simpa using listed, rfl⟩
  · rintro ⟨other, listed, same⟩
    obtain ⟨listed, sameId⟩ := List.mem_filter.mp listed
    rwa [← Prod.ext (of_decide_eq_true sameId) same]

theorem newline_not_mem_csvLine_iff {row : List Text} :
    '\n' ∉ csvLine row ↔ ∀ cell ∈ row, '\n' ∉ cell := by
  constructor
  · intro absent cell listed held
    exact absent (mem_intercalate listed held)
  · intro absent held
    obtain same | ⟨cell, listed, inCell⟩ := of_mem_intercalate held
    · exact absurd same (by decide)
    · exact absent cell listed inCell

/-- A row is found again from its line exactly if the parts have no delimiter. -/
theorem length_splitOn_csvRow_iff {functionId : FunctionId} {info : FunctionInfo} :
    ((csvLine (csvRow format functionId info)).splitOn kCsvDelimiter).length = 11 ↔
      ∀ cell ∈ csvRow format functionId info, kCsvDelimiter ∉ cell := by
  rw [← length_csvRow functionId info, csvLine]
  exact length_splitOn_intercalate_iff (csvRow_ne_nil functionId info)

theorem plain_columns : ∀ column ∈ kSpoorSymbolsColumns, Plain column := by decide

theorem splitOn_columns : (csvLine kSpoorSymbolsColumns).splitOn kCsvDelimiter =
    kSpoorSymbolsColumns := by
  rw [csvLine]
  apply List.splitOn_intercalate
  · exact fun column listed => (plain_columns column listed).1
  · exact List.cons_ne_nil _ _

theorem splitOn_csv {symbols : SymbolsTable}
    (unbroken : ∀ line ∈ csvLines format symbols, '\n' ∉ line) :
    (csv format symbols).splitOn '\n' = csvLines format symbols := by
  rw [csv_eq]
  exact List.splitOn_intercalate _ unbroken (List.cons_ne_nil _ _)

/-- The number of lines found again tells whether one has a line break in it. -/
theorem length_splitOn_csv_iff {symbols : SymbolsTable} :
    ((csv format symbols).splitOn '\n').length = (orderedInfos symbols).length + 1 ↔
      ∀ line ∈ csvLines format symbols, '\n' ∉ line := by
  have length : (csvLines format symbols).length = (orderedInfos symbols).length + 1 := by
    simp [csvLines]
  rw [csv_eq, ← length]
  exact length_splitOn_intercalate_iff (List.cons_ne_nil _ _)

theorem unbroken_of_plainTexts {symbols : SymbolsTable}
    (plain : ∀ entry ∈ orderedInfos symbols, PlainTexts entry.2) :
    ∀ line ∈ csvLines format symbols, '\n' ∉ line := by
  intro line listed
  cases listed with
  | head =>
      apply newline_not_mem_csvLine_iff.mpr
      exact fun column named => (plain_columns column named).2
  | tail _ later =>
      obtain ⟨entry, listed, rfl⟩ := List.mem_map.mp later
      have cells := (plain_csvRow_iff format entry.1 entry.2).mpr (plain entry listed)
      apply newline_not_mem_csvLine_iff.mpr
      exact fun cell inRow => (cells cell inRow).2

theorem plainTexts_of_readsBack {symbols : SymbolsTable}
    (back : ReadsBack symbols (csv format symbols)) {id : FunctionId} {info : FunctionInfo}
    (listed : info ∈ symbols.values id) : PlainTexts info := by
  obtain ⟨infos, rows, order', related, split⟩ := back
  have order := orderedInfos_inOrder symbols
  have counted := congrArg List.length split
  rw [List.length_map, List.length_cons, related.length_eq, (order'.perm order).length_eq]
    at counted
  have unbroken := length_splitOn_csv_iff.mp counted
  rw [splitOn_csv unbroken, csvLines, List.map_cons, splitOn_columns, List.cons.injEq] at split
  have lengths : ∀ row ∈ rows, row.length = 11 :=
    ((List.forall₂_and_left rows infos).mp
      (related.imp fun _ _ isRow => ⟨isRow.fields, isRow⟩)).1
  have entry : (id, info) ∈ orderedInfos symbols := order.mem_iff.mpr listed
  have line : csvLine (csvRow format id info) ∈
      (orderedInfos symbols).map fun entry => csvLine (csvRow format entry.1 entry.2) :=
    List.mem_map.mpr ⟨_, entry, rfl⟩
  have row : (csvLine (csvRow format id info)).splitOn kCsvDelimiter ∈ rows := by
    rw [← split.2]
    exact List.mem_map_of_mem line
  have delimited := length_splitOn_csvRow_iff.mp (lengths _ row)
  have broken := newline_not_mem_csvLine_iff.mp (unbroken _ (List.mem_cons_of_mem _ line))
  exact (plain_csvRow_iff format id info).mp fun cell inRow =>
    ⟨delimited cell inRow, broken cell inRow⟩

/-- Plain rows are found again in the export. -/
theorem splitOn_rows {symbols : SymbolsTable}
    (plain : ∀ entry ∈ orderedInfos symbols, PlainTexts entry.2) :
    ((csv format symbols).splitOn '\n').map (·.splitOn kCsvDelimiter) =
      kSpoorSymbolsColumns ::
        (orderedInfos symbols).map fun entry => csvRow format entry.1 entry.2 := by
  rw [splitOn_csv (unbroken_of_plainTexts plain), csvLines, List.map_cons, splitOn_columns,
    List.map_map]
  apply congrArg (kSpoorSymbolsColumns :: ·)
  apply List.map_congr_left
  intro entry listed
  have cells := (plain_csvRow_iff format entry.1 entry.2).mpr (plain entry listed)
  apply List.splitOn_intercalate
  · exact fun cell inRow => (cells cell inRow).1
  · exact csvRow_ne_nil _ _

theorem readsBack_of_plainTexts {symbols : SymbolsTable}
    (plain : ∀ entry ∈ orderedInfos symbols, PlainTexts entry.2) :
    ReadsBack symbols (csv format symbols) := by
  refine ⟨orderedInfos symbols, (orderedInfos symbols).map fun entry =>
    csvRow format entry.1 entry.2, orderedInfos_inOrder symbols, ?_, ?_⟩
  · rw [List.forall₂_map_left_iff, List.forall₂_same]
    exact fun entry _ => rowOf_csvRow entry
  · exact splitOn_rows plain

/-- The export can be read back exactly if no text of a function info has a
    delimiter or a line break in it. -/
theorem csv_readsBack_iff (format : TimeFormat) (symbols : SymbolsTable) :
    ReadsBack symbols (csv format symbols) ↔
      ∀ id, ∀ info ∈ symbols.values id, PlainTexts info := by
  constructor
  · intro back id info listed
    exact plainTexts_of_readsBack back listed
  · intro plain
    apply readsBack_of_plainTexts
    intro entry listed
    exact plain entry.1 entry.2 ((orderedInfos_inOrder symbols).mem_iff.mp listed)

/-- The times of the epoch. -/
def epochFormat : TimeFormat where
  print _ := "1970-01-01T00:00:00Z".toList
  plain _ := by decide

/-- A function with a default argument that has a semicolon in it. -/
def semicolonInfo : FunctionInfo where
  moduleId := none
  linkageName := none
  demangledName := some "Join(char = ';')".toList
  fileName := none
  directory := none
  line := none
  irInstructionCount := none
  instrumented := none
  instrumentedReason := none
  createdAt := none

def semicolonSymbols : SymbolsTable := AList.singleton 1 [semicolonInfo]

/-- The row of this function has one part too many. -/
theorem semicolon_not_readBack :
    ¬ReadsBack semicolonSymbols (csv epochFormat semicolonSymbols) := by
  intro back
  have listed : semicolonInfo ∈ semicolonSymbols.values 1 := by decide
  have plain := plainTexts_of_readsBack back listed (3, FunctionInfo.demangledName)
    (by simp [textColumns])
  exact absurd plain (by decide)

end ReadBack

end Spoor.Symbols
