/-
# Filter trees

A filter is a tree.  Its leaves compare one field each, and its groups join
their children with `AND` or `OR` (`Glue`).  The order of the children is the
order of the conditions in the SQL text.
-/

import SqlFilter.Operand

namespace SqlFilter

/-- The connective of a group. -/
inductive Glue where
  /-- Every child must hold. -/
  | and
  /-- At least one child must hold. -/
  | or
  deriving DecidableEq, Inhabited

namespace Glue

/-- The connective a word names: `or`, in upper or lower case letters, is the
disjunction, and every other word the conjunction. -/
def ofName (name : String) : Glue :=
  if name.toList.map Char.toLower = ['o', 'r'] then or else and

/-- The text between two conditions of a group. -/
def separator : Glue → String
  | and => " AND "
  | or => " OR "

end Glue

/-- One comparison. -/
structure Leaf where
  /-- The field as the caller names it: a column, or a reference into a JSON
  column.  A leaf with an empty field asks for nothing. -/
  field : String := ""
  /-- The operator's name.  A leaf with an empty operator asks for nothing but
  membership in `includes`. -/
  operator : String := ""
  operand : Option Operand := none
  /-- Membership values.  If there are any, they take the operator's place. -/
  includes : Option (List Value) := none
  /-- The name of a configured operand that takes the place of `operand`. -/
  aliasName : Option String := none
  /-- The name of a configured predicate that wraps the field. -/
  predicate : Option String := none
  deriving Inhabited

/-- A filter tree. -/
inductive Node where
  | leaf (leaf : Leaf)
  | group (glue : Glue) (rules : List Node)

namespace Node

instance : Inhabited Node := ⟨.leaf {}⟩

/-- A leaf without a field.  An empty group is not an empty node. -/
def isEmpty : Node → Bool
  | leaf l => l.field.isEmpty
  | group _ _ => false

end Node

end SqlFilter
