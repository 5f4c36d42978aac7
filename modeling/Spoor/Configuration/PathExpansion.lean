import Mathlib.Data.List.Chain
import Spoor.Lib.Path
import Spoor.Lib.Regex

/-! # Expansion of paths

A tilde at the start of a path stands for the home directory, and a dollar sign
with a name stands for a variable of the environment.  A variable that is unset
or empty leaves its token as it is.
-/

namespace Spoor.Configuration

open Lib.Path Lib.Regex

/-- `StdGetEnv`: the value of a variable, unless it is unset. -/
abbrev Environment := Text → Option Text

/-- `OkOr`. -/
def okOr {ε α : Type} (result : Except ε α) (fallback : α) : α :=
  match result with
  | .ok value => value
  | .error _ => fallback

/-- `GetEnv` of a text. -/
def getEnv (key : Text) (emptyStringIsNullopt : Bool) (env : Environment) :
    Option (Except Unit Text) :=
  match env key with
  | none => none
  | some userValue =>
      if emptyStringIsNullopt && userValue.isEmpty then none else some (.ok userValue)

def kHomeKey : Text := "HOME".toList

def expandTilde (path : Text) (env : Environment) : Text :=
  if !(path = ['~'] || ['~', separator].isPrefixOf path) then path
  else
    match (getEnv kHomeKey true env).getD (.ok ['~']) with
    | .ok home => home ++ path.drop 1
    | .error _ => path

def isWordCharacter (c : Char) : Bool := c.isAlphanum || c = '_'

def environmentVariablePattern : Pattern Char := .seq (.one (· = '$')) (.many isWordCharacter)

/-- The text between two iterators. -/
def slice (path : Text) (first second : Nat) : Text := (path.drop first).take (second - first)

/-- One round of the loop over the matches: what is written so far, and the
    iterator behind the match before. -/
def expandMatch (path : Text) (env : Environment) (written : Text × Nat) (found : Nat × Nat) :
    Text × Nat :=
  let key := slice path (found.1 + 1) found.2
  let fallbackValue := slice path found.1 found.2
  let value := okOr ((getEnv key true env).getD (.ok fallbackValue)) fallbackValue
  (written.1 ++ slice path written.2 found.1 ++ value, found.2)

/-- What is written after the loop. -/
def copyRest (path : Text) (written : Text × Nat) : Text := written.1 ++ path.drop written.2

def expandEnvironmentVariables (path : Text) (env : Environment) : Text :=
  copyRest path
    ((tokenMatches environmentVariablePattern path).foldl (expandMatch path env) ([], 0))

structure PathExpansionOptions where
  getEnv : Environment
  expandTilde : Bool
  expandEnvironmentVariables : Bool

def expandPath (path : Text) (options : PathExpansionOptions) : Text :=
  let path := if options.expandTilde then expandTilde path options.getEnv else path
  if options.expandEnvironmentVariables then expandEnvironmentVariables path options.getEnv
  else path

/-! ## The tokens of a path -/

/-- A path is read as variables and single characters. -/
inductive Piece where
  | plain (c : Char)
  | token (name : Text)
  deriving Repr, DecidableEq

namespace Piece

def text : Piece → Text
  | plain c => [c]
  | token name => '$' :: name

/-- The name of a variable has word characters only, and at least one. -/
def Named : Piece → Prop
  | plain _ => True
  | token name => name ≠ [] ∧ ∀ c ∈ name, isWordCharacter c = true

/-- A word character follows neither a dollar sign nor a variable: it would
    belong to the token. -/
def Apart : Piece → Piece → Prop
  | plain c, plain next => c = '$' → isWordCharacter next = false
  | token _, plain next => isWordCharacter next = false
  | _, token _ => True

/-- What stands for the piece after the expansion. -/
def expanded (env : Environment) : Piece → Text
  | plain c => [c]
  | token name =>
      match env name with
      | some value => if value = [] then '$' :: name else value
      | none => '$' :: name

end Piece

/-- The path is made of these pieces, and its variables are maximal. -/
structure Tokenizes (path : Text) (pieces : List Piece) : Prop where
  text : pieces.flatMap Piece.text = path
  named : ∀ piece ∈ pieces, piece.Named
  apart : pieces.IsChain Piece.Apart

/-- The start of a text is no token. -/
def NoToken : Text → Prop
  | c :: next :: _ => c = '$' → isWordCharacter next = false
  | _ => True

theorem Tokenizes.nil_path {pieces : List Piece} (tokenized : Tokenizes [] pieces) :
    pieces = [] := by
  cases pieces with
  | nil => rfl
  | cons piece rest =>
      have empty := tokenized.text
      cases piece <;> simp [Piece.text] at empty

theorem Tokenizes.tail {path : Text} {piece : Piece} {rest : List Piece}
    (tokenized : Tokenizes path (piece :: rest)) :
    Tokenizes (rest.flatMap Piece.text) rest :=
  ⟨rfl, fun other listed => tokenized.named other (List.mem_cons_of_mem _ listed),
    tokenized.apart.of_cons⟩

theorem matchLength_variable {name rest : Text} (some : name ≠ [])
    (word : ∀ c ∈ name, isWordCharacter c = true)
    (ended : ∀ c more, rest = c :: more → isWordCharacter c = false) :
    environmentVariablePattern.matchLength ('$' :: (name ++ rest)) =
      Option.some (1 + name.length) := by
  have run : (name ++ rest).takeWhile isWordCharacter = name := by
    rw [List.takeWhile_append_of_pos word]
    cases rest with
    | nil => simp
    | cons c more => simp [ended c more rfl]
  rw [environmentVariablePattern, matchLength_one_many]
  simp [matchLength_many, run, some]

theorem matchLength_noToken {path : Text} (plain : NoToken path) :
    environmentVariablePattern.matchLength path = none := by
  rw [environmentVariablePattern, matchLength_one_many]
  cases path with
  | nil => rfl
  | cons c rest =>
      by_cases dollar : c = '$'
      · cases rest with
        | nil => simp [matchLength_many]
        | cons next rest =>
            have ended := plain dollar
            simp [matchLength_many, ended]
      · simp [dollar]

/-- What follows a piece starts with no word character, unless the piece is a
    character other than a dollar sign. -/
theorem Tokenizes.ended {path : Text} {piece : Piece} {rest : List Piece}
    (tokenized : Tokenizes path (piece :: rest))
    (starting : piece = .plain '$' ∨ ∃ name, piece = .token name) :
    ∀ c more, rest.flatMap Piece.text = c :: more → isWordCharacter c = false := by
  intro c more starts
  cases rest with
  | nil => simp at starts
  | cons next rest =>
      have apart := (List.isChain_cons_cons.mp tokenized.apart).1
      cases next with
      | plain d =>
          obtain ⟨rfl, -⟩ : d = c ∧ rest.flatMap Piece.text = more := by
            simpa [Piece.text] using starts
          rcases starting with rfl | ⟨name, rfl⟩
          · exact apart rfl
          · exact apart
      | token name =>
          obtain ⟨rfl, -⟩ : '$' = c ∧ name ++ rest.flatMap Piece.text = more := by
            simpa [Piece.text] using starts
          rfl

theorem matchLength_plain {path : Text} {c : Char} {rest : List Piece}
    (tokenized : Tokenizes path (.plain c :: rest)) :
    environmentVariablePattern.matchLength (c :: rest.flatMap Piece.text) = none := by
  apply matchLength_noToken
  cases following : rest.flatMap Piece.text with
  | nil => trivial
  | cons next more =>
      rintro rfl
      exact tokenized.ended (.inl rfl) next more following

/-! ## The loop over the matches -/

theorem slice_append (before found after : Text) :
    slice (before ++ found ++ after) before.length (before.length + found.length) = found := by
  simp [slice]

theorem slice_concat {path : Text} {first second : Nat} {c : Char} {rest : Text}
    (order : first ≤ second) (next : path.drop second = c :: rest) :
    slice path first (second + 1) = slice path first second ++ [c] := by
  have inside : path[second]? = some c := by
    rw [← List.head?_drop, next, List.head?_cons]
  have length : second + 1 - first = second - first + 1 := by omega
  have position : first + (second - first) = second := by omega
  rw [slice, slice, length, List.take_add_one, List.getElem?_drop, position, inside]
  rfl

/-- The value that is written for a match. -/
theorem expandMatch_token {path before rest : Text} {name : Text} (env : Environment)
    (split : path = before ++ ('$' :: name ++ rest)) (written : Text) (iterator : Nat) :
    expandMatch path env (written, iterator) (before.length, before.length + (1 + name.length)) =
      (written ++ slice path iterator before.length ++ (Piece.token name).expanded env,
        before.length + (1 + name.length)) := by
  have fallback : slice path before.length (before.length + (1 + name.length)) = '$' :: name := by
    have whole := slice_append before ('$' :: name) rest
    rw [List.append_assoc, ← split, List.length_cons, Nat.add_comm name.length] at whole
    exact whole
  have key : slice path (before.length + 1) (before.length + (1 + name.length)) = name := by
    have inner := slice_append (before ++ ['$']) name rest
    simp only [List.append_assoc, List.singleton_append, List.length_append, List.length_singleton,
      Nat.add_assoc] at inner
    rw [split]
    exact inner
  simp only [expandMatch, fallback, key, getEnv, Piece.expanded]
  cases env name with
  | none => rfl
  | some value =>
      cases value with
      | nil => rfl
      | cons c value => rfl

/-- What the loop writes from a position on is the expansion of the pieces there,
    behind what is still to be copied. -/
theorem foldl_expandMatch {path before : Text} {pieces : List Piece} (env : Environment)
    {fuel iterator : Nat} (written : Text) (order : iterator ≤ before.length)
    (tokenized : Tokenizes (pieces.flatMap Piece.text) pieces)
    (split : path = before ++ pieces.flatMap Piece.text)
    (enough : (pieces.flatMap Piece.text).length < fuel) :
    copyRest path ((matchesFrom environmentVariablePattern fuel before.length
        (pieces.flatMap Piece.text)).foldl (expandMatch path env) (written, iterator)) =
      written ++ slice path iterator before.length ++ pieces.flatMap (Piece.expanded env) := by
  induction pieces generalizing before fuel iterator written with
  | nil =>
      have unmatched : environmentVariablePattern.matchLength [] = none :=
        matchLength_noToken trivial
      obtain rfl : path = before := by simpa using split
      rw [List.flatMap_nil, matchesFrom_nil _ unmatched, List.foldl_nil, copyRest, slice,
        List.take_of_length_le (by simp), List.flatMap_nil, List.append_nil]
  | cons piece rest ih =>
      cases piece with
      | plain c =>
          have text : (Piece.plain c :: rest).flatMap Piece.text =
            c :: rest.flatMap Piece.text := rfl
          have unmatched := matchLength_plain tokenized
          have longer : path = (before ++ [c]) ++ rest.flatMap Piece.text := by
            rw [split, text]
            simp
          have behind : path.drop before.length = c :: rest.flatMap Piece.text := by
            rw [split, text, List.drop_left]
          rw [text, List.length_cons] at enough
          have position : (before ++ [c]).length = before.length + 1 := List.length_append
          have reached : iterator ≤ (before ++ [c]).length := by omega
          have later := ih written reached tokenized.tail longer (Nat.lt_of_succ_lt enough)
          rw [position, slice_concat order behind] at later
          rw [text, matchesFrom_skip unmatched, later]
          simp [Piece.expanded]
      | token name =>
          have text : (Piece.token name :: rest).flatMap Piece.text =
            '$' :: (name ++ rest.flatMap Piece.text) := rfl
          obtain ⟨some, word⟩ := tokenized.named _ List.mem_cons_self
          have matched := matchLength_variable some word (tokenized.ended (.inr ⟨name, rfl⟩))
          have whole : path = before ++ ('$' :: name ++ rest.flatMap Piece.text) := by
            rw [split, text, List.cons_append]
          have longer : path = (before ++ '$' :: name) ++ rest.flatMap Piece.text := by
            rw [whole, List.append_assoc]
          rw [text, List.length_cons, List.length_append] at enough
          obtain ⟨fuel, rfl⟩ : ∃ less, fuel = less + 1 := ⟨fuel - 1, by omega⟩
          have position : (before ++ '$' :: name).length = before.length + (1 + name.length) := by
            rw [List.length_append, List.length_cons, Nat.add_comm name.length]
          have dropped : ('$' :: (name ++ rest.flatMap Piece.text)).drop (1 + name.length) =
              rest.flatMap Piece.text := by
            rw [Nat.add_comm, List.drop_succ_cons, List.drop_left]
          have shorter : (rest.flatMap Piece.text).length < fuel := by omega
          have later := ih (written ++ slice path iterator before.length ++
              (Piece.token name).expanded env) (Nat.le_refl (before ++ '$' :: name).length)
            tokenized.tail longer shorter
          have nothing : slice path (before ++ '$' :: name).length
              (before ++ '$' :: name).length = [] := by simp [slice]
          rw [nothing, List.append_nil, position] at later
          rw [text, matchesFrom_match matched, dropped, List.foldl_cons,
            expandMatch_token env whole, later, List.flatMap_cons, List.append_assoc]

theorem Tokenizes.expanded {path : Text} {pieces : List Piece} (tokenized : Tokenizes path pieces)
    (env : Environment) :
    expandEnvironmentVariables path env = pieces.flatMap (Piece.expanded env) := by
  obtain rfl := tokenized.text
  have start : pieces.flatMap Piece.text = [] ++ pieces.flatMap Piece.text := rfl
  have loop := foldl_expandMatch env [] (Nat.zero_le 0) tokenized start (Nat.lt_succ_self _)
  rw [expandEnvironmentVariables, tokenMatches]
  simpa only [slice, List.length_nil, Nat.sub_self, List.take_zero, List.append_nil,
    List.nil_append] using loop

/-- A piece may stand in front of others if it ends where their text starts. -/
theorem Tokenizes.cons {rest : Text} {piece : Piece} {pieces : List Piece}
    (tokenized : Tokenizes rest pieces) (named : piece.Named)
    (ended : ∀ c more, rest = c :: more → piece.Apart (.plain c)) :
    Tokenizes (piece.text ++ rest) (piece :: pieces) := by
  refine ⟨?_, ?_, ?_⟩
  · rw [List.flatMap_cons, tokenized.text]
  · intro other listed
    rcases List.mem_cons.mp listed with rfl | later
    · exact named
    · exact tokenized.named other later
  · apply tokenized.apart.cons
    intro next first
    cases next with
    | plain c =>
        obtain ⟨more, rfl⟩ := List.head?_eq_some_iff.mp first
        exact ended c _ tokenized.text.symm
    | token name => cases piece <;> trivial

/-- Every path has its tokens. -/
theorem exists_tokenizes (path : Text) : ∃ pieces, Tokenizes path pieces := by
  generalize bound : path.length = length
  induction length using Nat.strong_induction_on generalizing path with
  | h length ih =>
      cases path with
      | nil => exact ⟨[], rfl, by simp, .nil⟩
      | cons c rest =>
          rw [List.length_cons] at bound
          have run := List.takeWhile_append_dropWhile (p := isWordCharacter) (l := rest)
          by_cases token : c = '$' ∧ rest.takeWhile isWordCharacter ≠ []
          · obtain ⟨rfl, some⟩ := token
            have shorter : (rest.dropWhile isWordCharacter).length < length := by
              have parts := congrArg List.length run
              rw [List.length_append] at parts
              omega
            obtain ⟨pieces, tokenized⟩ := ih _ shorter _ rfl
            have word : (Piece.token (rest.takeWhile isWordCharacter)).Named :=
              ⟨some, fun d listed => List.mem_takeWhile_imp listed⟩
            have ended : ∀ d more, rest.dropWhile isWordCharacter = d :: more →
                isWordCharacter d = false := by
              intro d more starts
              simpa [starts] using List.head?_dropWhile_not isWordCharacter rest
            have whole := tokenized.cons word ended
            rw [Piece.text, List.cons_append, run] at whole
            exact ⟨_, whole⟩
          · obtain ⟨pieces, tokenized⟩ := ih rest.length (by omega) rest rfl
            have plain : (Piece.plain c).Named := trivial
            have whole := tokenized.cons plain fun next more starts dollar => by
              have none : rest.takeWhile isWordCharacter = [] := by
                by_contra some
                exact token ⟨dollar, some⟩
              simpa [starts] using none
            exact ⟨_, whole⟩

/-- A path without tokens is read character by character. -/
theorem Tokenizes.text_eq {path : Text} {pieces : List Piece} (tokenized : Tokenizes path pieces)
    (plain : ∀ before after, path = before ++ after → NoToken after) (env : Environment) :
    pieces.flatMap (Piece.expanded env) = path := by
  have same : ∀ piece ∈ pieces, piece.expanded env = piece.text := by
    intro piece listed
    cases piece with
    | plain c => rfl
    | token name =>
        obtain ⟨front, back, rfl⟩ := List.append_of_mem listed
        obtain ⟨some, word⟩ := tokenized.named _ listed
        have inside := plain (front.flatMap Piece.text) (('$' :: name) ++ back.flatMap Piece.text)
          (by rw [← tokenized.text]; simp [Piece.text])
        cases name with
        | nil => contradiction
        | cons c name =>
            have ended := inside rfl
            rw [word c List.mem_cons_self] at ended
            contradiction
  rw [List.flatMap_congr same, tokenized.text]

/-- The expansion of a path writes each of its tokens in its place, by the value
    of the variable if there is one that is not empty, and keeps everything else;
    a path without tokens stays as it is. -/
theorem expandEnvironmentVariables_tokens (path : Text) (env : Environment) :
    (∃ pieces, Tokenizes path pieces) ∧
      (∀ pieces, Tokenizes path pieces →
        expandEnvironmentVariables path env = pieces.flatMap (Piece.expanded env)) ∧
      ((∀ before after, path = before ++ after → NoToken after) →
        expandEnvironmentVariables path env = path) := by
  obtain ⟨pieces, tokenized⟩ := exists_tokenizes path
  refine ⟨⟨pieces, tokenized⟩, fun other tokenized => tokenized.expanded env, ?_⟩
  intro plain
  rw [tokenized.expanded env, tokenized.text_eq plain env]

/-- The text of a value is not expanded again, and an empty value is none. -/
example : expandEnvironmentVariables "$A$B/$$C.$".toList
    (fun key => if key = ['A'] then some "$B".toList else if key = ['B'] then some [] else
      if key = ['C'] then some ['c'] else none) = "$B$B/$c.$".toList := by decide

end Spoor.Configuration
