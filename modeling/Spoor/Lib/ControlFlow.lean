import Mathlib.Data.List.Basic

/-! # Paths through a control-flow graph and inserted instructions

A body is a list of blocks and a block is a list of instructions.  Where control
goes after an instruction is all that is known about it.  The body is entered at
its first block.

The second half is about bodies that carry extra instructions: some before every
instruction that leaves, and some in the first block.  An extra instruction
passes control on, so the paths of such a body are the paths of the plain one
with the extra instructions in fixed places.
-/

namespace Spoor.Lib.ControlFlow

/-- Where control goes after an instruction. -/
inductive Flow where
  | next
  | leave
  | jump (targets : List Nat)
  deriving Repr, DecidableEq

variable {α β : Type*} {flow : α → Flow}

/-- The instructions executed from the rest of a block up to and including one
    that leaves the body. -/
inductive Runs (flow : α → Flow) (blocks : List (List α)) : List α → List α → Prop where
  | next {i : α} {rest trace : List α} (falls : flow i = .next)
      (after : Runs flow blocks rest trace) :
      Runs flow blocks (i :: rest) (i :: trace)
  | leave {i : α} {rest : List α} (leaves : flow i = .leave) : Runs flow blocks (i :: rest) [i]
  | jump {i : α} {rest block trace : List α} {targets : List Nat} {target : Nat}
      (jumps : flow i = .jump targets) (listed : target ∈ targets)
      (found : blocks[target]? = some block) (after : Runs flow blocks block trace) :
      Runs flow blocks (i :: rest) (i :: trace)

theorem runs_of_leave {blocks : List (List α)} {i : α} {rest trace : List α}
    (leaves : flow i = .leave) (runs : Runs flow blocks (i :: rest) trace) : trace = [i] := by
  cases runs with
  | next falls _ => simp [leaves] at falls
  | leave _ => rfl
  | jump jumps _ _ _ => simp [leaves] at jumps

/-- Instructions that pass control on are executed one after another. -/
theorem runs_append {blocks : List (List α)} {front rest trace : List α}
    (falls : ∀ i ∈ front, flow i = .next) :
    Runs flow blocks (front ++ rest) trace ↔
      ∃ after, trace = front ++ after ∧ Runs flow blocks rest after := by
  induction front generalizing trace with
  | nil => simp
  | cons i front ih =>
      have first : flow i = .next := falls i (by simp)
      have others := fun {trace} => @ih trace fun j listed => falls j (by simp [listed])
      constructor
      · intro runs
        cases runs with
        | next _ after =>
            obtain ⟨later, rfl, runs⟩ := others.mp after
            exact ⟨later, rfl, runs⟩
        | leave leaves => simp [first] at leaves
        | jump jumps _ _ _ => simp [first] at jumps
      · rintro ⟨after, rfl, runs⟩
        exact .next first (others.mpr ⟨after, rfl, runs⟩)

section Inserted

variable {flow' : β → Flow} {embed : α → β} {exits : List β}

/-- A block with extra instructions before each instruction that leaves. -/
def beforeLeaving (flow : α → Flow) (embed : α → β) (exits : List β) (block : List α) : List β :=
  block.flatMap fun i => if flow i = .leave then exits ++ [embed i] else [embed i]

theorem beforeLeaving_cons (i : α) (rest : List α) :
    beforeLeaving flow embed exits (i :: rest) =
      (if flow i = .leave then exits ++ [embed i] else [embed i]) ++
        beforeLeaving flow embed exits rest := by
  simp [beforeLeaving]

/-- No instruction of the list jumps to the first block. -/
def AvoidsEntry (flow : α → Flow) (block : List α) : Prop :=
  ∀ i ∈ block, ∀ targets, flow i = .jump targets → 0 ∉ targets

theorem runs_leaving {blocks : List (List β)} {i : α} {rest : List α} {code trace : List β}
    (carries : ∀ i, flow' (embed i) = flow i) (falls : ∀ e ∈ exits, flow' e = .next)
    (leaves : flow i = .leave) (here : beforeLeaving flow embed exits (i :: rest) = code)
    (runs : Runs flow' blocks code trace) : trace = exits ++ [embed i] := by
  rw [← here, beforeLeaving_cons, if_pos leaves, List.append_assoc] at runs
  obtain ⟨after, rfl, last⟩ := (runs_append falls).mp runs
  rw [runs_of_leave (by rw [carries, leaves]) last]

theorem beforeLeaving_eq_cons {rest : List α} {e : β} {code : List β}
    (same : beforeLeaving flow embed exits rest = e :: code) :
    ∃ i later, rest = i :: later ∧ (flow i = .leave ∨
      flow i ≠ .leave ∧ e = embed i ∧ code = beforeLeaving flow embed exits later) := by
  cases rest with
  | nil => simp [beforeLeaving] at same
  | cons i later =>
      refine ⟨i, later, rfl, ?_⟩
      by_cases leaves : flow i = .leave
      · exact .inl leaves
      · rw [beforeLeaving_cons, if_neg leaves] at same
        obtain ⟨head, tail⟩ : embed i = e ∧ beforeLeaving flow embed exits later = code := by
          simpa using same
        exact .inr ⟨leaves, head.symm, tail.symm⟩

/-- A path of the body with extra instructions is a path of the plain body, with
    the extra ones directly before its last instruction.  The first block may be
    anything, since no path comes back to it. -/
theorem runs_beforeLeaving {entry : List β} {first : List α} {blocks : List (List α)}
    {rest : List α} {trace : List β} (carries : ∀ i, flow' (embed i) = flow i)
    (falls : ∀ e ∈ exits, flow' e = .next)
    (avoids : ∀ block ∈ first :: blocks, AvoidsEntry flow block)
    (avoidsHere : AvoidsEntry flow rest)
    (runs : Runs flow' (entry :: blocks.map (beforeLeaving flow embed exits))
      (beforeLeaving flow embed exits rest) trace) :
    ∃ middle last, trace = middle.map embed ++ exits ++ [embed last] ∧ flow last = .leave ∧
      Runs flow (first :: blocks) rest (middle ++ [last]) := by
  generalize here : beforeLeaving flow embed exits rest = code at runs
  induction runs generalizing rest with
  | @next e code trace fallsHere after ih =>
      obtain ⟨i, later, rfl, leaves | ⟨stays, rfl, tail⟩⟩ := beforeLeaving_eq_cons here
      · have whole := runs_leaving carries falls leaves here (.next fallsHere after)
        exact ⟨[], i, by simpa using whole, leaves, .leave leaves⟩
      · obtain ⟨middle, last, rfl, leaves, plain⟩ :=
          ih (fun j listed => avoidsHere j (by simp [listed])) tail.symm
        rw [carries] at fallsHere
        exact ⟨i :: middle, last, by simp, leaves, .next fallsHere plain⟩
  | @leave e code leavesHere =>
      obtain ⟨i, later, rfl, leaves | ⟨stays, rfl, tail⟩⟩ := beforeLeaving_eq_cons here
      · have whole := runs_leaving carries falls leaves here
          (@Runs.leave β flow' [] e code leavesHere)
        exact ⟨[], i, by simpa using whole, leaves, .leave leaves⟩
      · rw [carries] at leavesHere
        exact absurd leavesHere stays
  | @jump e code block trace targets target jumps listed found after ih =>
      obtain ⟨i, later, rfl, leaves | ⟨stays, rfl, tail⟩⟩ := beforeLeaving_eq_cons here
      · have whole := runs_leaving carries falls leaves here (.jump jumps listed found after)
        exact ⟨[], i, by simpa using whole, leaves, .leave leaves⟩
      · rw [carries] at jumps
        have elsewhere : target ≠ 0 := by
          rintro rfl
          exact avoidsHere i (by simp) targets jumps listed
        obtain ⟨index, rfl⟩ := Nat.exists_eq_succ_of_ne_zero elsewhere
        obtain ⟨plainBlock, foundPlain, rfl⟩ : ∃ plainBlock, blocks[index]? = some plainBlock ∧
            beforeLeaving flow embed exits plainBlock = block := by
          simpa using found
        have listedBlock : plainBlock ∈ first :: blocks :=
          List.mem_cons_of_mem _ (List.mem_of_getElem? foundPlain)
        obtain ⟨middle, last, rfl, leaves, plain⟩ := ih (avoids plainBlock listedBlock) rfl
        exact ⟨i :: middle, last, by simp, leaves,
          .jump jumps listed (by simpa using foundPlain) plain⟩

/-- Every path of the plain body is the path of the body with extra instructions
    that has them directly before its last instruction. -/
theorem beforeLeaving_runs {entry : List β} {first : List α} {blocks : List (List α)}
    {rest : List α} {trace : List α} (carries : ∀ i, flow' (embed i) = flow i)
    (falls : ∀ e ∈ exits, flow' e = .next)
    (avoids : ∀ block ∈ first :: blocks, AvoidsEntry flow block)
    (avoidsHere : AvoidsEntry flow rest)
    (runs : Runs flow (first :: blocks) rest trace) :
    ∃ middle last, trace = middle ++ [last] ∧
      Runs flow' (entry :: blocks.map (beforeLeaving flow embed exits))
        (beforeLeaving flow embed exits rest) (middle.map embed ++ exits ++ [embed last]) := by
  induction runs with
  | @next i rest trace fallsHere after ih =>
      obtain ⟨middle, last, rfl, extended⟩ := ih fun j listed => avoidsHere j (by simp [listed])
      refine ⟨i :: middle, last, rfl, ?_⟩
      rw [beforeLeaving_cons, if_neg (by simp [fallsHere])]
      exact .next (by rw [carries, fallsHere]) extended
  | @leave i rest leaves =>
      refine ⟨[], i, rfl, ?_⟩
      rw [beforeLeaving_cons, if_pos leaves, List.append_assoc]
      exact (runs_append falls).mpr ⟨[embed i], rfl, .leave (by rw [carries, leaves])⟩
  | @jump i rest block trace targets target jumps listed found after ih =>
      have elsewhere : target ≠ 0 := by
        rintro rfl
        exact avoidsHere i (by simp) targets jumps listed
      obtain ⟨index, rfl⟩ := Nat.exists_eq_succ_of_ne_zero elsewhere
      obtain ⟨middle, last, rfl, extended⟩ := ih (avoids block (List.mem_of_getElem? found))
      refine ⟨i :: middle, last, rfl, ?_⟩
      rw [beforeLeaving_cons, if_neg (by simp [jumps])]
      have foundHere : blocks[index]? = some block := by simpa using found
      exact .jump (by rw [carries, jumps]) listed (by simp [foundHere]) extended

end Inserted

end Spoor.Lib.ControlFlow
