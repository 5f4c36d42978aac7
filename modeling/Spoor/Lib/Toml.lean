import Mathlib.Data.List.Basic

/-! # Parsed configuration documents

A document is a table of nodes, and a node is a scalar, a list of nodes or a table
again.  What a scalar can be read as without loss is left to the parser and comes
in as `Conversions`; an integer type adds the bounds of its range.
-/

namespace Spoor.Lib.Toml

inductive Node (β : Type) where
  | scalar (value : β)
  | array (elements : List (Node β))
  | table (entries : List (String × Node β))

abbrev Table (β : Type) : Type := List (String × Node β)

/-- A file that is to be read as a document. -/
inductive File (β : Type) where
  | unopened
  | malformed (description : String)
  | parsed (table : Table β)

/-- What the scalars of a document are without loss. -/
structure Conversions (β : Type) where
  text : β → Option String
  integer : β → Option Int
  boolean : β → Option Bool

variable {β : Type}

def Table.get (table : Table β) (key : String) : Option (Node β) := table.lookup key

namespace Node

def asArray : Node β → Option (List (Node β))
  | array elements => some elements
  | scalar _ | table _ => none

def asTable : Node β → Option (Table β)
  | table entries => some entries
  | scalar _ | array _ => none

/-- The scalar of a node as a value of some type. -/
def value {α : Type} (convert : β → Option α) : Node β → Option α
  | scalar value => convert value
  | array _ | table _ => none

/-- A value of an integer type with these bounds. -/
def integerValue (conversions : Conversions β) (low high : Int) (node : Node β) : Option Int :=
  (node.value conversions.integer).filter fun number => low ≤ number && number ≤ high

theorem integerValue_eq_some {conversions : Conversions β} {low high number : Int}
    {node : Node β} : node.integerValue conversions low high = some number ↔
      node.value conversions.integer = some number ∧ low ≤ number ∧ number ≤ high := by
  simp [integerValue, Option.filter_eq_some_iff]

end Node

/-! ## Scalars that are read as what they are -/

inductive Scalar where
  | text (value : String)
  | integer (value : Int)
  | boolean (value : Bool)
  deriving Repr, DecidableEq

def strictConversions : Conversions Scalar where
  text
    | .text value => some value
    | _ => none
  integer
    | .integer value => some value
    | _ => none
  boolean
    | .boolean value => some value
    | _ => none

end Spoor.Lib.Toml
