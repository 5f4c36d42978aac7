import Mathlib.Data.List.TakeWhile

/-! # Searching a text for a pattern

A pattern is a sequence of character classes, each for one character or for a
greedy repetition.  A backtracking matcher tries the ways to match in an order
in which longer repetitions come first, and the first way counts.  A search
finds the leftmost place where the pattern matches, and the next search starts
behind the match.
-/

namespace Spoor.Lib.Regex

variable {γ : Type}

inductive Pattern (γ : Type) where
  | one (accepts : γ → Bool)
  /-- One or more characters of a class, as many as possible. -/
  | many (accepts : γ → Bool)
  | seq (first second : Pattern γ)

/-- The lengths of the matches at the start of a text, in the order in which
    they are tried. -/
def Pattern.lengths : Pattern γ → List γ → List Nat
  | .one _, [] => []
  | .one accepts, c :: _ => if accepts c then [1] else []
  | .many accepts, text => (List.range (text.takeWhile accepts).length).reverse.map (· + 1)
  | .seq first second, text =>
      (first.lengths text).flatMap fun length =>
        (second.lengths (text.drop length)).map (length + ·)

/-- The length of the match at the start of a text. -/
def Pattern.matchLength (pattern : Pattern γ) (text : List γ) : Option Nat :=
  (pattern.lengths text).head?

/-- How much of a text is in front of the leftmost match, and how long it is. -/
def search (pattern : Pattern γ) : List γ → Option (Nat × Nat)
  | [] => (pattern.matchLength []).map fun length => (0, length)
  | c :: rest =>
      match pattern.matchLength (c :: rest) with
      | some length => some (0, length)
      | none => (search pattern rest).map fun found => (found.1 + 1, found.2)

/-- The matches in the rest of a text that starts at the position, as positions
    of their first character and of the one behind their last. -/
def matchesFrom (pattern : Pattern γ) : Nat → Nat → List γ → List (Nat × Nat)
  | 0, _, _ => []
  | fuel + 1, position, rest =>
      match search pattern rest with
      | none => []
      | some (skipped, length) =>
          (position + skipped, position + skipped + length) ::
            matchesFrom pattern fuel (position + skipped + length) (rest.drop (skipped + length))

/-- The matches in a text.  Each takes at least one character, so there are no
    more of them than characters. -/
def tokenMatches (pattern : Pattern γ) (text : List γ) : List (Nat × Nat) :=
  matchesFrom pattern (text.length + 1) 0 text

variable {pattern : Pattern γ}

/-- A greedy repetition takes all characters of its class. -/
theorem matchLength_many (accepts : γ → Bool) (text : List γ) :
    (Pattern.many accepts).matchLength text =
      if text.takeWhile accepts = [] then none else some (text.takeWhile accepts).length := by
  rw [Pattern.matchLength, Pattern.lengths]
  cases run : text.takeWhile accepts with
  | nil => rfl
  | cons c rest => simp [List.range_succ]

/-- A class in front of a repetition. -/
theorem matchLength_one_many (accepts repeats : γ → Bool) (text : List γ) :
    (Pattern.seq (.one accepts) (.many repeats)).matchLength text =
      match text with
      | [] => none
      | c :: rest =>
          if accepts c then ((Pattern.many repeats).matchLength rest).map (1 + ·) else none := by
  cases text with
  | nil => rfl
  | cons c rest =>
      by_cases accepted : accepts c
      · simp [Pattern.matchLength, Pattern.lengths, accepted]
      · simp [Pattern.matchLength, Pattern.lengths, accepted]

theorem matchesFrom_nil (pattern : Pattern γ) (unmatched : pattern.matchLength [] = none)
    (fuel position : Nat) : matchesFrom pattern fuel position [] = [] := by
  cases fuel with
  | zero => rfl
  | succ fuel => simp [matchesFrom, search, unmatched]

/-- A character at which no match starts is passed by. -/
theorem matchesFrom_skip {c : γ} {rest : List γ}
    (unmatched : pattern.matchLength (c :: rest) = none)
    (fuel position : Nat) :
    matchesFrom pattern fuel position (c :: rest) =
      matchesFrom pattern fuel (position + 1) rest := by
  cases fuel with
  | zero => rfl
  | succ fuel =>
      simp only [matchesFrom, search, unmatched]
      cases search pattern rest with
      | none => rfl
      | some found =>
          have moved : position + (found.1 + 1) = position + 1 + found.1 := by omega
          have dropped : found.1 + 1 + found.2 = found.1 + found.2 + 1 := by omega
          simp only [Option.map_some, moved, dropped, List.drop_succ_cons]

/-- A match at the start of the text is the first one, and the others follow it. -/
theorem matchesFrom_match {text : List γ} {length : Nat}
    (matched : pattern.matchLength text = some length) (fuel position : Nat) :
    matchesFrom pattern (fuel + 1) position text =
      (position, position + length) ::
        matchesFrom pattern fuel (position + length) (text.drop length) := by
  have found : search pattern text = some (0, length) := by
    cases text with
    | nil => simp [search, matched]
    | cons c rest => simp [search, matched]
  simp [matchesFrom, found]

end Spoor.Lib.Regex
