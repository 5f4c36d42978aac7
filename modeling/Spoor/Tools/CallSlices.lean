import Spoor.Instrumentation.CallNesting
import Spoor.Perfetto.Viewer

/-! # The slices of an instrumented thread

The runtime makes an event of each entry and exit that a thread of an instrumented
module logs.  When those of some part of a run are in the trace, on a track of their
own, a viewer that goes through the trace follows the stack of the thread: the slices
that are open are the instrumented functions the thread is in, under their demangled
names.
-/

namespace Spoor.Instrumentation.Execution

open Lib.Nesting Lib.Transition
open Perfetto (View watch bracketsOn eventBracket? fileBrackets totalEvents trackOf
  kFunctionEntry kFunctionExit exec_watch_trace spoorTraceToPerfettoTrace)

variable {ι μ χ : Type}

/-! ## The events of the logged calls -/

/-- `RuntimeManager::LogEvent`, with the reading of the steady clock. -/
def logEvent (now : BitVec 64) (type : BitVec 32) (payload1 : BitVec 64) (payload2 : BitVec 32) :
    Trace.Event :=
  ⟨now, payload1, type, payload2⟩

def logFunctionEntry (now : BitVec 64) (functionId : FunctionId) : Trace.Event :=
  logEvent now kFunctionEntry functionId 0

def logFunctionExit (now : BitVec 64) (functionId : FunctionId) : Trace.Event :=
  logEvent now kFunctionExit functionId 0

/-- The event that the runtime makes of a call. -/
def event? (now : BitVec 64) : RuntimeCall → Option Trace.Event
  | .logFunctionEntry functionId => some (logFunctionEntry now functionId)
  | .logFunctionExit functionId => some (logFunctionExit now functionId)
  | _ => none

/-- The events on a track, in the order of the files. -/
def eventsOn (trackUuid : BitVec 64 → BitVec 64 → BitVec 64) (track : BitVec 64)
    (files : List Trace.TraceFile) : List Trace.Event :=
  (files.filter fun file => trackOf trackUuid file = track).flatMap fun file => file.events

/-- The events are those of the calls, each at some time. -/
def EventsOf (calls : List RuntimeCall) (events : List Trace.Event) : Prop :=
  List.Forall₂ (fun call event => ∃ now, event? now call = some event)
    (calls.filter fun call => (logged? call).isSome) events

theorem bracketsOn_eq (trackUuid : BitVec 64 → BitVec 64 → BitVec 64) (track : BitVec 64)
    (files : List Trace.TraceFile) :
    bracketsOn trackUuid track files =
      (eventsOn trackUuid track files).filterMap eventBracket? := by
  induction files with
  | nil => rfl
  | cons file files ih =>
      rw [bracketsOn] at ih ⊢
      rw [List.flatMap_cons, ih, fileBrackets, eventsOn, eventsOn]
      by_cases here : trackOf trackUuid file = track <;> simp [here]

theorem eventBracket?_of_call {now : BitVec 64} {call : RuntimeCall} {event : Trace.Event}
    (made : event? now call = some event) : eventBracket? event = logged? call := by
  cases call with
  | logFunctionEntry id =>
      obtain rfl := Option.some.inj made
      rfl
  | logFunctionExit id =>
      obtain rfl := Option.some.inj made
      rfl
  | initializeRuntime | enableRuntime | deinitializeRuntime => simp [event?] at made

theorem filterMap_logged (calls : List RuntimeCall) :
    (calls.filter fun call => (logged? call).isSome).filterMap logged? =
      calls.filterMap logged? := by
  induction calls with
  | nil => rfl
  | cons call calls ih =>
      cases logs : logged? call with
      | none => rw [List.filter_cons_of_neg (by simp [logs]), List.filterMap_cons_none logs, ih]
      | some bracket =>
          rw [List.filter_cons_of_pos (by simp [logs]), List.filterMap_cons_some logs,
            List.filterMap_cons_some logs, ih]

theorem EventsOf.brackets {calls : List RuntimeCall} {events : List Trace.Event}
    (carried : EventsOf calls events) :
    events.filterMap eventBracket? = calls.filterMap logged? := by
  rw [EventsOf] at carried
  rw [← filterMap_logged]
  generalize calls.filter (fun call => (logged? call).isSome) = logging at carried
  induction carried with
  | nil => rfl
  | cons made _ ih =>
      obtain ⟨now, made⟩ := made
      rw [List.filterMap_cons, List.filterMap_cons, eventBracket?_of_call made, ih]

/-! ## The part of a run -/

/-- What happened in a thread after a state of the run. -/
def State.happeningsSince (s earlier : State ι μ) (thread : Nat) : List Happening :=
  (s.happenings thread).drop (earlier.happenings thread).length

def State.callsSince (s earlier : State ι μ) (thread : Nat) : List RuntimeCall :=
  (s.happeningsSince earlier thread).filterMap Happening.call?

section Run

variable {program : Program ι} {idOf : Nat → Option FunctionId} {machine : Machine ι μ χ}

theorem happenings_grow {labels : List (Nat × χ)} {s s' : State ι μ}
    (continued : exec (step machine program) s labels = some s') (thread : Nat) :
    s'.happenings thread = s.happenings thread ++ s'.happeningsSince s thread := by
  have grown : s.happenings thread <+: s'.happenings thread := by
    induction labels generalizing s with
    | nil =>
        obtain rfl : s = s' := by simpa using continued
        exact List.prefix_refl _
    | cons label labels ih =>
        obtain ⟨t, taken, rest⟩ := Option.bind_eq_some_iff.mp continued
        obtain ⟨stack, happenings, -, -, log⟩ := step_shift taken
        refine List.IsPrefix.trans ?_ (ih rest)
        rw [show t.happenings thread = _ from
          happenings_update s t.log label.1 thread happenings log]
        exact List.prefix_append _ _
  obtain ⟨later, same⟩ := grown
  rw [State.happeningsSince, ← same, List.drop_left]

/-- An entry that is logged is that of a function with this id. -/
theorem Shift.entry (traced : Traced program idOf) {stack stack' : List (Frame ι)}
    {happenings : List Happening} (shift : Shift program stack stack' happenings)
    (placed : Placed program stack) {id : FunctionId}
    (logged : .called (.logFunctionEntry id) ∈ happenings) :
    ∃ function, idOf function = some id := by
  cases shift with
  | @logged function kind call rest below =>
      obtain rfl : RuntimeCall.logFunctionEntry id = call := by simpa using logged
      have within := (placed_running.mp placed).1
      cases known : idOf function with
      | none =>
          obtain ⟨block, same⟩ := traced.plain function _ within known
          cases block with
          | nil => simp at same
          | cons i block => simp [Instruction.original] at same
      | some own =>
          rcases (traced.staged function _ own within known).logged with
            ⟨same, -⟩ | ⟨same, -⟩ | ⟨quiet, -⟩
          · obtain rfl := RuntimeCall.logFunctionEntry.inj same
            exact ⟨function, known⟩
          · contradiction
          · exact absurd rfl (quiet id).1
  | advanced | answered | branched | called | entered | idled | left | returned => cases logged
  | threw => simp at logged
  | raised => simp at logged

theorem run_entries (traced : Traced program idOf) {memory : μ} {labels : List (Nat × χ)}
    {s : State ι μ} (reached : exec (step machine program) (start ι memory) labels = some s)
    {thread : Nat} {id : FunctionId}
    (logged : .called (.logFunctionEntry id) ∈ s.happenings thread) :
    ∃ function, idOf function = some id := by
  suffices both : (∀ thread, Placed program (s.threads thread)) ∧ ∀ thread id,
      .called (.logFunctionEntry id) ∈ s.happenings thread →
        ∃ function, idOf function = some id from
    both.2 thread id logged
  refine invariant_always (fun s : State ι μ => (∀ thread, Placed program (s.threads thread)) ∧
    ∀ thread id, .called (.logFunctionEntry id) ∈ s.happenings thread →
      ∃ function, idOf function = some id) ⟨start_placed memory, ?_⟩ ?_ reached
  · intro thread id member
    cases member
  · rintro t ⟨mover, choice⟩ u ⟨placed, known⟩ taken
    refine ⟨step_placed placed taken, fun other id member => ?_⟩
    obtain ⟨stack, happenings, shift, -, log⟩ := step_shift taken
    rw [State.happenings, happenings_update t u.log mover other happenings log,
      List.mem_append] at member
    rcases member with before | now
    · exact known other id before
    · split at now
      · exact shift.entry traced (placed mover) now
      · cases now

/-- From one state of a run to a later one the logged calls of a thread lead from the
    functions open before to those open after. -/
theorem run_replays_since (traced : Traced program idOf) {memory : μ}
    {labels later : List (Nat × χ)} {s s' : State ι μ}
    (reached : exec (step machine program) (start ι memory) labels = some s)
    (continued : exec (step machine program) s later = some s') {thread : Nat}
    (handled : ∀ function, .abandoned function ∈ s'.happeningsSince s thread →
      idOf function = none) :
    replay (openIds idOf (s.threads thread)) ((s'.callsSince s thread).filterMap logged?) =
      some (openIds idOf (s'.threads thread)) := by
  have all : exec (step machine program) (start ι memory) (labels ++ later) = some s' := by
    rw [exec_append, reached, Option.bind_some, continued]
  have replayed := run_replays traced all thread
  rw [happenings_grow continued thread, List.filterMap_append, replay_append,
    run_replays traced reached thread, Option.bind_some, brackets_of_calls handled] at replayed
  exact replayed

end Run

/-! ## The names of the slices -/

/-- What the adapter reads of the record of a function. -/
def spoorFunctionInfo (info : FunctionInfo) : Perfetto.SpoorFunctionInfo :=
  ⟨some info.linkageName, some info.demangledName, info.fileName, info.directory, info.line⟩

/-- The table has the records of the pass, in some order. -/
def HasSymbols (table : Perfetto.SymbolsTable) (symbols : SymbolsTable) : Prop :=
  table.entries.Perm (symbols.map fun entry => (entry.1, entry.2.map spoorFunctionInfo))

section Module

variable {env : Environment} {options : Options}
  {decide : Filters.FunctionInfo → Option Filters.InstrumentFunctionResult}

/-- The text for a function of this name. -/
def shownName (env : Environment) (name : String) : String :=
  Perfetto.truncate (demangledName env name)

theorem makeFunctionName_single (id : FunctionId) {info : FunctionInfo}
    (demangled : info.demangledName = demangledName env info.linkageName) :
    Perfetto.makeFunctionName id [spoorFunctionInfo info] = shownName env info.linkageName := by
  have single : Perfetto.formatInfos id [spoorFunctionInfo info] (Perfetto.functionNameOf id) =
      info.demangledName := by
    simp only [Perfetto.formatInfos, List.map_cons, List.map_nil, List.length_singleton]
    rfl
  rw [Perfetto.makeFunctionName, single, demangled, shownName]

/-- Every record in the table. -/
theorem addFunctionInfo_forall {holds : FunctionInfo → Prop} {id : FunctionId} {info : FunctionInfo}
    (here : holds info) {table : SymbolsTable}
    (all : ∀ entry ∈ table, ∀ other ∈ entry.2, holds other) :
    ∀ entry ∈ addFunctionInfo id info table, ∀ other ∈ entry.2, holds other := by
  induction table with
  | nil => simpa [addFunctionInfo] using here
  | cons first table ih =>
      rw [List.forall_mem_cons] at all
      rw [addFunctionInfo]
      split
      · rw [List.forall_mem_cons]
        refine ⟨?_, all.2⟩
        intro other member
        rcases List.mem_append.mp member with before | last
        · exact all.1 other before
        · exact List.mem_singleton.mp last ▸ here
      · rw [List.forall_mem_cons]
        exact ⟨all.1, ih all.2⟩

/-- The pass records the demangled form of the name. -/
theorem instrumentModule_demangles {m : Module ι} {result : InstrumentModuleResult ι}
    (returned : instrumentModule env options decide m = some result) :
    ∀ entry ∈ result.symbols, ∀ info ∈ entry.2,
      info.demangledName = demangledName env info.linkageName := by
  obtain ⟨declarations, progress, -, reached, -, same, -⟩ := instrumentModule_passed returned
  rw [same]
  refine invariant_always (fun progress : Progress ι => ∀ entry ∈ progress.symbols,
    ∀ info ∈ entry.2, info.demangledName = demangledName env info.linkageName) ?_ ?_ reached
  · intro entry member
    cases member
  · intro progress f next all taken
    obtain ⟨-, rfl⟩ | ⟨-, info, described, rfl⟩ := instrumentNext_cases taken
    · exact all
    · refine addFunctionInfo_forall ?_ all
      simp only [describe, Option.bind_eq_bind, Option.bind_eq_some_iff, Option.pure_def,
        Option.some.injEq] at described
      obtain ⟨file, -, decision, -, rfl⟩ := described
      rfl

/-- The text for an id in the table of symbols. -/
def textOf (env : Environment) (symbols : SymbolsTable) (id : FunctionId) : String :=
  shownName env ((symbolName symbols id).getD "")

theorem textOf_interned {m : Module ι} {result : InstrumentModuleResult ι}
    (returned : instrumentModule env options decide m = some result)
    (few : definedBefore m.functions m.functions.length < 2 ^ 32) {table : Perfetto.SymbolsTable}
    (symbols : HasSymbols table result.symbols) {function : Nat} {id : FunctionId}
    (logged : loggedId env decide m.functions function = some id) :
    ∃ infos, (id, infos) ∈ table.entries ∧
      Perfetto.makeFunctionName id infos = textOf env result.symbols id := by
  obtain ⟨f, -, named⟩ := symbolName_loggedId returned few logged
  obtain ⟨infos, looked, first⟩ := Option.bind_eq_some_iff.mp named
  obtain ⟨before, after, split, -⟩ := List.lookup_eq_some_iff.mp looked
  have listed : (id, infos) ∈ result.symbols := by simp [split]
  obtain ⟨position, g, info, -, -, same, -⟩ :=
    (instrumentModule_recorded returned few).entries _ listed
  obtain ⟨-, rfl⟩ := Prod.mk.inj same
  have demangled := instrumentModule_demangles returned _ listed info (by simp)
  refine ⟨[spoorFunctionInfo info], symbols.mem_iff.mpr (List.mem_map.mpr ⟨_, listed, rfl⟩), ?_⟩
  have own : info.linkageName = f.name := by simpa using first
  rw [makeFunctionName_single id demangled, textOf, named, own]
  rfl

/-- A viewer that goes through the trace of a part of a run follows the stack of the
    thread on the track: the open slices, which at first are the instrumented functions
    it was in, are in the end those it is in, innermost first, by their demangled names
    cut to the length that a trace may have. -/
theorem slices_follow_stack {m : Module ι} {result : InstrumentModuleResult ι}
    (returned : instrumentModule env options decide m = some result)
    (few : (m.functions.countP fun f => !f.isDeclaration) < 2 ^ 32) (machine : Machine ι μ χ)
    (memory : μ) (labels later : List (Nat × χ)) (s s' : State ι μ)
    (reached : exec (step machine result.functions) (start ι memory) labels = some s)
    (continued : exec (step machine result.functions) s later = some s') (thread : Nat)
    (handled : ∀ function, .abandoned function ∈ s'.happeningsSince s thread →
      loggedId env decide m.functions function = none)
    (trackUuid : BitVec 64 → BitVec 64 → BitVec 64) (track : BitVec 64)
    (files : List Trace.TraceFile) (table : Perfetto.SymbolsTable)
    (bounded : totalEvents files < 2 ^ 31) (symbols : HasSymbols table result.symbols)
    (carried : EventsOf (s'.callsSince s thread) (eventsOn trackUuid track files)) :
    ∃ names, exec (watch track)
        ⟨[], (openNames m.functions (loggedId env decide m.functions) (s.threads thread)).map
          (shownName env)⟩
        (spoorTraceToPerfettoTrace trackUuid files table).packet =
      some ⟨names, (openNames m.functions (loggedId env decide m.functions)
        (s'.threads thread)).map (shownName env)⟩ := by
  have traced := instrumentModule_traced returned
  have counted : definedBefore m.functions m.functions.length < 2 ^ 32 := by
    rwa [definedBefore, List.take_length]
  have texts : ∀ stack, (openIds (loggedId env decide m.functions) stack).map
      (textOf env result.symbols) =
        (openNames m.functions (loggedId env decide m.functions) stack).map (shownName env) := by
    intro stack
    have named := openIds_named returned counted stack
    have shown := congrArg (List.map fun name : Option String => shownName env (name.getD "")) named
    rw [List.map_map, List.map_map] at shown
    exact shown
  have brackets : bracketsOn trackUuid track files =
      (s'.callsSince s thread).filterMap logged? := by
    rw [bracketsOn_eq, carried.brackets]
  have replayed := run_replays_since traced reached continued handled
  rw [← brackets] at replayed
  rw [← texts, ← texts]
  refine exec_watch_trace bounded ?_ replayed
  intro id listed
  rw [brackets] at listed
  obtain ⟨call, made, logs⟩ := List.mem_filterMap.mp listed
  obtain ⟨happening, happened, kept⟩ := List.mem_filterMap.mp made
  cases happening with
  | abandoned function => cases kept
  | called call' =>
      obtain rfl : call' = call := Option.some.inj kept
      obtain rfl : call' = .logFunctionEntry id := by cases call' <;> simp_all [logged?]
      have all : exec (step machine result.functions) (start ι memory) (labels ++ later) =
          some s' := by
        rw [exec_append, reached, Option.bind_some, continued]
      obtain ⟨function, logged⟩ := run_entries traced all
        (show .called (.logFunctionEntry id) ∈ s'.happenings thread from
          List.mem_of_mem_drop happened)
      exact textOf_interned returned counted symbols logged

/-- The symbols of the sample. -/
def mainTable : Perfetto.SymbolsTable where
  entries := [(0x89ABCDEF00000000,
    [⟨some "main", some "main", none, none, none⟩])]
  distinct := List.nodup_singleton _

/-- The first thread has called main and passes its created calls. -/
theorem slices_follow_stack_mainRun :
    ∃ names, exec (watch 12) ⟨[], []⟩ (spoorTraceToPerfettoTrace (· + ·)
        [Perfetto.fileWith [logFunctionEntry 20 0x89ABCDEF00000000]] mainTable).packet =
      some ⟨names, ["main"]⟩ := by
  have runs : ∃ result s s', instrumentModule sampleEnvironment sampleOptions
      (fun _ => some ⟨true, none⟩) sampleModule = some result ∧
      exec (step (obedient String) result.functions) (start String ())
        ((mainRun 3 2).take 1) = some s ∧
      exec (step (obedient String) result.functions) s (((mainRun 3 2).drop 1).take 4) = some s' ∧
      (s'.happeningsSince s 0).all (fun happening => !happening.isAbandoned) = true ∧
      mainTable.entries =
        result.symbols.map (fun entry => (entry.1, entry.2.map spoorFunctionInfo)) ∧
      (s'.callsSince s 0).filter (fun call => (logged? call).isSome) =
        [.logFunctionEntry 0x89ABCDEF00000000] ∧
      (openNames sampleModule.functions (loggedId sampleEnvironment (fun _ => some ⟨true, none⟩)
        sampleModule.functions) (s.threads 0)) = [] ∧
      (openNames sampleModule.functions (loggedId sampleEnvironment (fun _ => some ⟨true, none⟩)
        sampleModule.functions) (s'.threads 0)) = ["main"] :=
    ⟨_, _, _, rfl, rfl, rfl, rfl, rfl, rfl, rfl, rfl⟩
  obtain ⟨result, s, s', returned, reached, continued, none, table, calls, before, after⟩ := runs
  have shown : shownName sampleEnvironment "main" = "main" := by decide
  have followed := slices_follow_stack returned (by decide) (obedient String) () _ _ s s' reached
    continued 0
    (fun function listed => by
      simpa [Happening.isAbandoned] using List.all_eq_true.mp none _ listed)
    (· + ·) 12 [Perfetto.fileWith [logFunctionEntry 20 0x89ABCDEF00000000]] mainTable (by decide)
    (List.Perm.of_eq table)
    (by
      rw [EventsOf, calls]
      exact .cons ⟨20, rfl⟩ .nil)
  rw [before, after] at followed
  simpa only [List.map_nil, List.map_cons, shown] using followed

end Module

end Spoor.Instrumentation.Execution
