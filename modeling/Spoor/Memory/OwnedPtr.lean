import Mathlib.Logic.Function.Basic
import Spoor.Lib.Alternation
import Spoor.Lib.Transition

/-! # Owned pointers

An owned pointer has a pointer that an owner lent, and returns it to the owner when
it ends.  Moves and `Take` leave a null pointer without owner behind.  The move
assignment does not look at what its target has, so a pointer there is lost: nothing
has it any more, and its owner waits for it.
-/

namespace Spoor.Memory

open Lib.Alternation Lib.Transition

variable {ξ ο π : Type}

/-- `OwnedPtr`; `none` is `nullptr`. -/
structure OwnedPtr (ο π : Type) where
  ptr : Option π
  owner : Option ο
  deriving DecidableEq

/-- What a move and `Take` leave behind. -/
def OwnedPtr.null : OwnedPtr ο π := ⟨none, none⟩

/-- How a pointer passes between its owner and an owned pointer. -/
inductive Passage where
  | obtained
  | returned
  | taken
  deriving DecidableEq

def Passage.opens : Passage → Bool
  | .obtained => true
  | .returned | .taken => false

structure Event (ο π : Type) where
  passage : Passage
  owner : ο
  ptr : Option π
  deriving DecidableEq

/-- The owned pointers that exist, under the names of their variables.  `undefined`
    is set when the program has no defined state any more. -/
structure System (ξ ο π : Type) where
  objects : ξ → Option (OwnedPtr ο π)
  log : List (Event ο π)
  undefined : Bool

/-- `returns` says whether the caller goes on with the assignments made: the move
    assignment has no return statement, and the language defines nothing at its end. -/
inductive Action (ξ ο π : Type) where
  | construct (this : ξ) (ptr : Option π) (owner : Option ο)
  | moveConstruct (this other : ξ)
  | moveAssign (this other : ξ) (returns : Bool)
  | take (this : ξ)
  | destroy (this : ξ)

namespace System

section Steps

variable [DecidableEq ξ] [DecidableEq ο] [DecidableEq π] (s : System ξ ο π)

def start : System ξ ο π := ⟨fun _ => none, [], false⟩

def put (name : ξ) (owned : Option (OwnedPtr ο π)) : System ξ ο π :=
  { s with objects := Function.update s.objects name owned }

/-- The pointer of an owner passes. -/
def record (passage : Passage) (owned : OwnedPtr ο π) : System ξ ο π :=
  match owned.owner with
  | none => s
  | some owner => { s with log := s.log ++ [⟨passage, owner, owned.ptr⟩] }

/-- How a pointer passed so far. -/
def history (owner : ο) (ptr : π) : List Passage :=
  (s.log.filter fun event => event.owner = owner ∧ event.ptr = some ptr).map Event.passage

/-- An owner lends a pointer that is not out. -/
def Lends (owned : OwnedPtr ο π) : Prop :=
  ∀ owner ∈ owned.owner, ∀ ptr ∈ owned.ptr, settled Passage.opens (s.history owner ptr) = true

instance (owned : OwnedPtr ο π) : Decidable (s.Lends owned) :=
  inferInstanceAs (Decidable (∀ owner ∈ owned.owner, ∀ ptr ∈ owned.ptr, _ = true))

/-- The two assignments to the fields of one pointer, then those to the other's. -/
def transfer (this other : ξ) (source : OwnedPtr ο π) : System ξ ο π :=
  (s.put this (some source)).put other (some .null)

/-- The constructors, `operator=`, `Take` and the destructor, which returns what `Take`
    gives it if there is an owner. -/
def act : Action ξ ο π → Option (System ξ ο π)
  | .construct this ptr owner =>
      match s.objects this with
      | some _ => none
      | none =>
          if s.Lends ⟨ptr, owner⟩ then
            some ((s.put this (some ⟨ptr, owner⟩)).record .obtained ⟨ptr, owner⟩)
          else none
  | .moveConstruct this other =>
      match s.objects this, s.objects other with
      | none, some source => some (s.transfer this other source)
      | _, _ => none
  | .moveAssign this other returns =>
      match s.objects this, s.objects other with
      | some _, some source => some { s.transfer this other source with undefined := !returns }
      | _, _ => none
  | .take this =>
      (s.objects this).map fun owned => (s.put this (some .null)).record .taken owned
  | .destroy this =>
      (s.objects this).map fun owned => (s.put this none).record .returned owned

def step (action : Action ξ ο π) : Option (System ξ ο π) :=
  if s.undefined then none else s.act action

/-- The owned pointer of this name has what the owner lent. -/
def Holds (name : ξ) (owner : ο) (ptr : π) : Prop :=
  s.objects name = some ⟨some ptr, some owner⟩

end Steps

end System

/-! ## One lent pointer -/

/-- Where a pointer of an owner is: with the owner or with who took it, in an owned
    pointer, or nowhere. -/
inductive Loan (ξ : Type) where
  | home
  | held (name : ξ)
  | lost

namespace Loan

variable [DecidableEq ξ] [DecidableEq ο] [DecidableEq π]

/-- What was in the target of a move is nowhere any more. -/
def moved (this other : ξ) : Loan ξ → Loan ξ
  | .held name =>
      if name = this then .lost else if name = other then .held this else .held name
  | loan => loan

def released (this : ξ) : Loan ξ → Loan ξ
  | .held name => if name = this then .home else .held name
  | loan => loan

def lent (this : ξ) : Loan ξ → Loan ξ
  | .home => .held this
  | loan => loan

/-- What an action means for one pointer of one owner. -/
def next (owner : ο) (ptr : π) (loan : Loan ξ) : Action ξ ο π → Loan ξ
  | .construct this ptr' owner' =>
      if (⟨ptr', owner'⟩ : OwnedPtr ο π) = ⟨some ptr, some owner⟩ then loan.lent this else loan
  | .moveConstruct this other | .moveAssign this other _ => loan.moved this other
  | .take this | .destroy this => loan.released this

end Loan

namespace System

variable {s s' : System ξ ο π} {owner : ο} {ptr : π} {loan : Loan ξ}

section Holders

variable [DecidableEq ξ]

@[simp] theorem holds_put {name other : ξ} {owned : Option (OwnedPtr ο π)} :
    (s.put other owned).Holds name owner ptr ↔
      if name = other then owned = some ⟨some ptr, some owner⟩ else s.Holds name owner ptr := by
  simp only [Holds, put, Function.update_apply]
  split <;> rfl

/-- The target of a move has what the source had, and the source nothing. -/
theorem holds_transfer {this other name : ξ} {source : OwnedPtr ο π}
    (found : s.objects other = some source) :
    (s.transfer this other source).Holds name owner ptr ↔
      name ≠ other ∧
        if name = this then s.Holds other owner ptr else s.Holds name owner ptr := by
  rw [transfer, holds_put, holds_put]
  by_cases self : name = other
  · simp [self, OwnedPtr.null]
  · simp only [self, if_false, ne_eq, not_false_eq_true, true_and]
    rw [Holds, Holds, found]

end Holders

section History

variable [DecidableEq ο] [DecidableEq π]

/-- The loan tells who has the pointer, and how it passed so far. -/
def Standing (s : System ξ ο π) (owner : ο) (ptr : π) : Loan ξ → Prop
  | .home => settled Passage.opens (s.history owner ptr) = true ∧ ∀ name, ¬s.Holds name owner ptr
  | .held holder =>
      Pending Passage.opens (s.history owner ptr) ∧ ∀ name, s.Holds name owner ptr ↔ name = holder
  | .lost => Pending Passage.opens (s.history owner ptr) ∧ ∀ name, ¬s.Holds name owner ptr

/-- Only the history of the pointer that passes becomes longer. -/
@[simp] theorem history_record (passage : Passage) (owned : OwnedPtr ο π) :
    (s.record passage owned).history owner ptr =
      s.history owner ptr ++ if owned = ⟨some ptr, some owner⟩ then [passage] else [] := by
  obtain ⟨ptr', owner'⟩ := owned
  cases owner' with
  | none => simp [record]
  | some owner' =>
      by_cases same : owner' = owner ∧ ptr' = some ptr
      · obtain ⟨rfl, rfl⟩ := same
        simp [record, history]
      · have other : ¬(ptr' = some ptr ∧ owner' = owner) := fun both => same both.symm
        simp [record, history, same, other]

end History

@[simp] theorem holds_record {passage : Passage} {owned : OwnedPtr ο π} {name : ξ} :
    (s.record passage owned).Holds name owner ptr ↔ s.Holds name owner ptr := by
  unfold record
  split <;> rfl

@[simp] theorem undefined_record (passage : Passage) (owned : OwnedPtr ο π) :
    (s.record passage owned).undefined = s.undefined := by
  unfold record
  split <;> rfl

section Outcomes

/-- A move assignment returns, and its target has nothing that an owner lent. -/
def Fits (s : System ξ ο π) : Action ξ ο π → Prop
  | .moveAssign this _ returns =>
      returns = true ∧ ∀ owned ∈ s.objects this, owned.ptr = none ∨ owned.owner = none
  | .construct _ _ _ | .moveConstruct _ _ | .take _ | .destroy _ => True

instance (action : Action ξ ο π) : Decidable (s.Fits action) :=
  match action with
  | .moveAssign this _ returns =>
      inferInstanceAs (Decidable (returns = true ∧ ∀ owned ∈ s.objects this, _ ∨ _))
  | .construct _ _ _ | .moveConstruct _ _ | .take _ | .destroy _ =>
      inferInstanceAs (Decidable True)

variable [DecidableEq ο] [DecidableEq π]

/-- No loan is lost. -/
def Kept (s : System ξ ο π) : Prop :=
  s.undefined = false ∧ ∀ owner ptr, ∃ loan, s.Standing owner ptr loan ∧ loan ≠ .lost

/-- The program has no defined state, or some pointer is lost. -/
def Spoiled (s : System ξ ο π) : Prop :=
  s.undefined = true ∨ ∃ owner ptr, s.Standing owner ptr .lost

/-- Nothing exists any more, or nothing is defined. -/
def Ended (s : System ξ ο π) : Prop := s.undefined = true ∨ ∀ name, s.objects name = none

/-- No two owned pointers have the same pointer of an owner; and once all are
    destroyed, each pointer was returned or taken, once, as often as it was obtained. -/
structure ReturnsOnce (s : System ξ ο π) : Prop where
  defined : s.undefined = false
  exclusive : ∀ owner ptr name other,
    s.Holds name owner ptr → s.Holds other owner ptr → name = other
  returned : (∀ name, s.objects name = none) →
    ∀ owner ptr, settled Passage.opens (s.history owner ptr) = true

theorem Kept.returnsOnce (kept : s.Kept) : s.ReturnsOnce where
  defined := kept.1
  exclusive owner ptr name other holds holds' := by
    obtain ⟨loan, standing, -⟩ := kept.2 owner ptr
    cases loan with
    | home | lost => exact absurd holds (standing.2 name)
    | held holder => exact ((standing.2 name).mp holds).trans ((standing.2 other).mp holds').symm
  returned destroyed owner ptr := by
    obtain ⟨loan, standing, present⟩ := kept.2 owner ptr
    cases loan with
    | home => exact standing.1
    | lost => exact absurd rfl present
    | held holder =>
        have holds : s.objects holder = _ := (standing.2 holder).mpr rfl
        simp [destroyed] at holds

theorem Spoiled.not_returnsOnce (spoiled : s.Spoiled) (ended : s.Ended) : ¬s.ReturnsOnce := by
  intro once
  have destroyed := ended.resolve_left (by simp [once.defined])
  obtain undefined | ⟨owner, ptr, pending, -⟩ := spoiled
  · simp [once.defined] at undefined
  · have done := once.returned destroyed owner ptr
    simp [pending.not_settled] at done

theorem standing_start (owner : ο) (ptr : π) :
    (start : System ξ ο π).Standing owner ptr .home :=
  ⟨rfl, by simp [Holds, start]⟩

end Outcomes

section Standings

variable [DecidableEq ξ] [DecidableEq ο] [DecidableEq π]

@[simp] theorem history_put (name : ξ) (owned : Option (OwnedPtr ο π)) :
    (s.put name owned).history owner ptr = s.history owner ptr := rfl

theorem Standing.transfer {this other : ξ} {source : OwnedPtr ο π}
    (standing : s.Standing owner ptr loan) (found : s.objects other = some source) :
    (s.transfer this other source).Standing owner ptr (loan.moved this other) := by
  cases loan with
  | home | lost =>
      refine ⟨standing.1, ?_⟩
      intro name
      simp [holds_transfer found, standing.2]
  | held holder =>
      obtain ⟨pending, holds⟩ := standing
      have holders : ∀ name, (s.transfer this other source).Holds name owner ptr ↔
          name ≠ other ∧ if name = this then other = holder else name = holder := by
        intro name
        rw [holds_transfer found, holds, holds]
      rw [Loan.moved]
      split
      · refine ⟨pending, ?_⟩
        grind
      · split
        · refine ⟨pending, ?_⟩
          grind
        · refine ⟨pending, ?_⟩
          grind

/-- `Take` and the destructor end the loan of what they find. -/
theorem Standing.release {this : ξ} {owned : OwnedPtr ο π} {rest : Option (OwnedPtr ο π)}
    {passage : Passage} (standing : s.Standing owner ptr loan)
    (found : s.objects this = some owned) (empty : rest ≠ some ⟨some ptr, some owner⟩)
    (closes : passage.opens = false) :
    ((s.put this rest).record passage owned).Standing owner ptr (loan.released this) := by
  have holders : ∀ name, ((s.put this rest).record passage owned).Holds name owner ptr ↔
      name ≠ this ∧ s.Holds name owner ptr := by
    intro name
    rw [holds_record, holds_put]
    split
    · rename_i same
      simp [same, empty]
    · rename_i different
      simp [different]
  have passed : owned = ⟨some ptr, some owner⟩ ↔ s.Holds this owner ptr := by
    rw [Holds, found, Option.some_inj]
  cases loan with
  | home | lost =>
      have other : ¬owned = ⟨some ptr, some owner⟩ := fun same => standing.2 this (passed.mp same)
      refine ⟨?_, ?_⟩
      · rw [history_record, if_neg other, List.append_nil]
        exact standing.1
      · intro name holds
        exact standing.2 name ((holders name).mp holds).2
  | held holder =>
      obtain ⟨pending, holds⟩ := standing
      rw [holds] at passed
      rw [Loan.released]
      split
      · rename_i same
        refine ⟨?_, ?_⟩
        · rw [history_record, if_pos (passed.mpr same.symm), history_put]
          exact pending.close closes
        · intro name still
          obtain ⟨different, has⟩ := (holders name).mp still
          exact different (((holds name).mp has).trans same)
      · rename_i different
        refine ⟨?_, ?_⟩
        · rw [history_record, if_neg (fun same => different (passed.mp same).symm),
            List.append_nil]
          exact pending
        · intro name
          rw [holders, holds]
          grind

/-- A new owned pointer holds what its owner lends it. -/
theorem Standing.construct {this : ξ} {owned : OwnedPtr ο π}
    (standing : s.Standing owner ptr loan) (absent : s.objects this = none)
    (lends : s.Lends owned) :
    ((s.put this (some owned)).record .obtained owned).Standing owner ptr
      (if owned = ⟨some ptr, some owner⟩ then loan.lent this else loan) := by
  have vacant : ¬s.Holds this owner ptr := by simp [Holds, absent]
  have holders : ∀ name, ((s.put this (some owned)).record .obtained owned).Holds name owner ptr ↔
      if name = this then owned = ⟨some ptr, some owner⟩ else s.Holds name owner ptr := by
    intro name
    rw [holds_record, holds_put, Option.some_inj]
  by_cases same : owned = ⟨some ptr, some owner⟩
  · have home : settled Passage.opens (s.history owner ptr) = true := by
      rw [same] at lends
      exact lends owner rfl ptr rfl
    cases loan with
    | home =>
        rw [if_pos same]
        refine ⟨?_, ?_⟩
        · rw [history_record, if_pos same]
          exact pending_of_settled home rfl
        · intro name
          simp [same, standing.2]
    | held | lost => simp [standing.1.not_settled] at home
  · have history : ((s.put this (some owned)).record .obtained owned).history owner ptr =
        s.history owner ptr := by
      rw [history_record, if_neg same, List.append_nil, history_put]
    have holds : ∀ name, ((s.put this (some owned)).record .obtained owned).Holds name owner ptr ↔
        s.Holds name owner ptr := by
      intro name
      rw [holders]
      split
      · rename_i here
        simp [here, vacant, same]
      · rfl
    rw [if_neg same]
    cases loan with
    | home | held | lost => simpa only [Standing, history, holds] using standing

/-! ## Runs -/

theorem step_eq_some_iff {action : Action ξ ο π} :
    s.step action = some s' ↔ s.undefined = false ∧ s.act action = some s' := by
  rw [step]
  cases s.undefined <;> simp

/-- The action does to each loan what it means for it. -/
theorem Standing.act {action : Action ξ ο π} (standing : s.Standing owner ptr loan)
    (taken : s.act action = some s') : s'.Standing owner ptr (loan.next owner ptr action) := by
  cases action with
  | construct this ptr' owner' =>
      rw [System.act] at taken
      split at taken
      · cases taken
      · rename_i absent
        split at taken
        · rename_i lends
          cases taken
          exact standing.construct absent lends
        · cases taken
  | moveConstruct this other =>
      rw [System.act] at taken
      split at taken
      · rename_i source absent found
        cases taken
        exact standing.transfer found
      · cases taken
  | moveAssign this other returns =>
      rw [System.act] at taken
      split at taken
      · rename_i target source held found
        cases taken
        exact standing.transfer found
      · cases taken
  | take this =>
      obtain ⟨owned, found, rfl⟩ := Option.map_eq_some_iff.mp taken
      exact standing.release found (by simp [OwnedPtr.null]) rfl
  | destroy this =>
      obtain ⟨owned, found, rfl⟩ := Option.map_eq_some_iff.mp taken
      exact standing.release found (by simp) rfl

/-- No pointer is lost in a step that fits. -/
theorem Standing.next_ne_lost {action : Action ξ ο π} (standing : s.Standing owner ptr loan)
    (present : loan ≠ .lost) (fits : s.Fits action) (taken : s.act action = some s') :
    loan.next owner ptr action ≠ .lost := by
  cases loan with
  | home =>
      cases action with
      | construct => rw [Loan.next]; split <;> simp [Loan.lent]
      | moveConstruct | moveAssign => simp [Loan.next, Loan.moved]
      | take | destroy => simp [Loan.next, Loan.released]
  | lost => exact absurd rfl present
  | held holder =>
      have holds : s.objects holder = some ⟨some ptr, some owner⟩ := (standing.2 holder).mpr rfl
      cases action with
      | construct => rw [Loan.next]; split <;> simp [Loan.lent]
      | moveConstruct this other =>
          have different : holder ≠ this := by
            rintro rfl
            simp [System.act, holds] at taken
          rw [Loan.next, Loan.moved, if_neg different]
          split <;> simp
      | moveAssign this other returns =>
          have different : holder ≠ this := by
            rintro rfl
            simpa using fits.2 _ holds
          rw [Loan.next, Loan.moved, if_neg different]
          split <;> simp
      | take | destroy => rw [Loan.next, Loan.released]; split <;> simp

theorem defined_of_fits {action : Action ξ ο π} (defined : s.undefined = false)
    (fits : s.Fits action) (taken : s.act action = some s') : s'.undefined = false := by
  cases action with
  | construct this ptr owner =>
      rw [act] at taken
      split at taken
      · cases taken
      · split at taken <;> cases taken
        simpa [put] using defined
  | moveConstruct this other =>
      rw [act] at taken
      split at taken <;> cases taken
      exact defined
  | moveAssign this other returns =>
      rw [act] at taken
      split at taken <;> cases taken
      simp [fits.1]
  | take this | destroy this =>
      obtain ⟨owned, -, rfl⟩ := Option.map_eq_some_iff.mp taken
      simpa [put] using defined

theorem Kept.step {action : Action ξ ο π} (kept : s.Kept) (fits : s.Fits action)
    (taken : s.step action = some s') : s'.Kept := by
  obtain ⟨defined, acts⟩ := step_eq_some_iff.mp taken
  constructor
  · exact defined_of_fits defined fits acts
  · intro owner ptr
    obtain ⟨loan, standing, present⟩ := kept.2 owner ptr
    exact ⟨_, standing.act acts, standing.next_ne_lost present fits acts⟩

theorem Spoiled.step {action : Action ξ ο π} (spoiled : s.Spoiled)
    (taken : s.step action = some s') : s'.Spoiled := by
  obtain ⟨defined, acts⟩ := step_eq_some_iff.mp taken
  obtain undefined | ⟨owner, ptr, standing⟩ := spoiled
  · simp [defined] at undefined
  · right
    refine ⟨owner, ptr, ?_⟩
    have lost : (Loan.lost : Loan ξ).next owner ptr action = .lost := by
      cases action with
      | construct => simp [Loan.next, Loan.lent]
      | moveConstruct | moveAssign | take | destroy => rfl
    rw [← lost]
    exact standing.act acts

/-- A move assignment that does not fit loses what its target holds. -/
theorem spoiled_of_unfit {action : Action ξ ο π}
    (standing : ∀ owner ptr, ∃ loan, s.Standing owner ptr loan) (unfit : ¬s.Fits action)
    (taken : s.step action = some s') : s'.Spoiled := by
  obtain ⟨-, acts⟩ := step_eq_some_iff.mp taken
  cases action with
  | construct | moveConstruct | take | destroy => exact absurd trivial unfit
  | moveAssign this other returns =>
      cases returns with
      | false =>
          left
          rw [act] at acts
          split at acts <;> cases acts
          rfl
      | true =>
          right
          simp only [Fits, true_and, not_forall, not_or] at unfit
          obtain ⟨⟨ptr', owner'⟩, found, somePtr, someOwner⟩ := unfit
          obtain ⟨ptr, rfl⟩ := Option.ne_none_iff_exists'.mp somePtr
          obtain ⟨owner, rfl⟩ := Option.ne_none_iff_exists'.mp someOwner
          have holds : s.Holds this owner ptr := found
          refine ⟨owner, ptr, ?_⟩
          obtain ⟨loan, standing⟩ := standing owner ptr
          have after := standing.act acts
          cases loan with
          | home | lost => exact absurd holds (standing.2 this)
          | held holder =>
              obtain rfl := (standing.2 this).mp holds
              simpa [Loan.next, Loan.moved] using after

/-- Pointers have one holder and are returned once in the runs whose move assignments
    return and are onto pointers that hold nothing; and in no other run that ends. -/
theorem ownedPtrs_returnOnce {actions : List (Action ξ ο π)}
    (reached : exec step start actions = some s) :
    (Meets step Fits start actions → s.ReturnsOnce) ∧
      (s.Ended → s.ReturnsOnce → Meets step Fits start actions) := by
  constructor
  · intro fits
    have initially : (start : System ξ ο π).Kept :=
      ⟨rfl, fun owner ptr => ⟨.home, standing_start owner ptr, by simp⟩⟩
    have kept : s.Kept :=
      invariant Fits Kept initially (fun _ _ _ kept fits taken => kept.step fits taken) fits
        reached
    exact kept.returnsOnce
  · intro ended once before action after t split arrived
    by_contra unfit
    have standing : ∀ owner ptr, ∃ loan, t.Standing owner ptr loan := by
      apply invariant_always
        (fun t : System ξ ο π => ∀ owner ptr, ∃ loan, t.Standing owner ptr loan)
        (fun owner ptr => ⟨.home, standing_start owner ptr⟩) ?_ arrived
      intro t action u standing taken owner ptr
      obtain ⟨loan, standing⟩ := standing owner ptr
      exact ⟨_, standing.act (step_eq_some_iff.mp taken).2⟩
    rw [split, exec_append, arrived, Option.bind_some, exec_cons] at reached
    obtain ⟨u, taken, later⟩ := Option.bind_eq_some_iff.mp reached
    have spoiled : s.Spoiled :=
      invariant_always Spoiled (spoiled_of_unfit standing unfit taken)
        (fun _ _ _ spoiled taken => spoiled.step taken) later
    exact spoiled.not_returnsOnce ended once

/-- A pointer is moved twice and returned, and another one is taken. -/
def movesAndTake : List (Action Bool Unit Bool) :=
  [.construct false (some false) (some ()), .moveConstruct true false,
    .moveAssign false true true, .destroy false, .construct false (some true) (some ()),
    .take false, .destroy false, .destroy true]

theorem movesAndTake_returnsOnce :
    ∃ s, exec step start movesAndTake = some s ∧ s.ReturnsOnce := by
  have runs : (exec step start movesAndTake).isSome = true := by decide
  obtain ⟨s, reached⟩ := Option.isSome_iff_exists.mp runs
  exact ⟨s, reached, (ownedPtrs_returnOnce reached).1 (by decide)⟩

/-- A pointer is moved onto one that holds another one of the same owner. -/
def overwritten : List (Action Bool Unit Bool) :=
  [.construct false (some false) (some ()), .construct true (some true) (some ()),
    .moveAssign false true true, .destroy false, .destroy true]

/-- The pointer that was there is not returned. -/
theorem overwritten_not_returned :
    ∃ s, exec step start overwritten = some s ∧ (∀ name, s.objects name = none) ∧
      s.history () false = [.obtained] ∧ ¬s.ReturnsOnce := by
  have seen : ((exec step start overwritten).map fun s =>
      decide ((∀ name, s.objects name = none) ∧ s.history () false = [.obtained])) =
        some true := by decide
  obtain ⟨s, reached, ends⟩ := Option.map_eq_some_iff.mp seen
  obtain ⟨destroyed, obtained⟩ := of_decide_eq_true ends
  refine ⟨s, reached, destroyed, obtained, ?_⟩
  intro once
  have done := once.returned destroyed () false
  rw [obtained] at done
  cases done

end Standings

end System

end Spoor.Memory
