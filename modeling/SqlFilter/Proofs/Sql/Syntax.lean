/-
# SQL conditions

The syntax of the conditions that can stand behind `WHERE`, with the bound values in
the places of the placeholders (`Expr`), and the truth of a condition.

Conditions are joined by `AND` and `OR`.  What is not joined is atomic: a field, a kind
of comparison, and the values the field is compared with (`Atom`).  A condition is read
as an atom by what it does and not by its words, so `INSTR(f, v) > 0` and
`f LIKE '%' || v || '%'` are the same atom.  The truth of a condition follows from the
truth of its atoms, about which nothing is assumed (`Expr.truth`).
-/

import SqlFilter.Filter.Basic
import SqlFilter.Operator

namespace SqlFilter
namespace Sql

/-- A name in a statement.  A delimited name is opaque. -/
structure Name where
  text : String
  delimited : Bool := false
  deriving DecidableEq

/-- An SQL expression. -/
inductive Expr where
  /-- A column, behind the names of what it belongs to. -/
  | column (path : List Name)
  | value (v : Value)
  | text (t : String)
  | number (digits : String)
  | call (function : String) (arguments : List Expr)
  | cast (e : Expr) (type : String)
  /-- `document -> key` -/
  | key (document key : Expr)
  | concat (parts : List Expr)
  | compare (c : Comparison) (left right : Expr)
  | like (negated : Bool) (left right : Expr)
  | isIn (left : Expr) (items : List Expr)
  | join (glue : Glue) (parts : List Expr)

/-! ### Atoms -/

/-- How a field is compared with values. -/
inductive Kind where
  | compare (c : Comparison)
  /-- The field matches a pattern; `quoted` says that the field's text has quotation
  marks around it, which the pattern has to match too. -/
  | pattern (p : Pattern) (negated quoted : Bool)
  | member
  deriving DecidableEq

/-- An atomic condition. -/
structure Atom where
  field : Expr
  kind : Kind
  values : List Value

/-- What is around the value in a pattern: the text before it, the value, and the text
behind it. -/
def affixes : List Expr → Option (String × Value × String)
  | [.text a, .value v] => some (a, v, "")
  | [.value v, .text b] => some ("", v, b)
  | [.text a, .value v, .text b] => some (a, v, b)
  | _ => none

/-- The pattern that a text before and a text behind a value make: where the value is
looked for, and whether quotation marks are expected around the text. -/
def patternOf : String → String → Option (Pattern × Bool)
  | "%", "%" => some (.contains, false)
  | "", "%" => some (.beginsWith, false)
  | "%", "" => some (.endsWith, false)
  | "\"%", "%\"" => some (.contains, true)
  | "\"", "%" => some (.beginsWith, true)
  | "%", "\"" => some (.endsWith, true)
  | _, _ => none

/-- The atom of a field that is `LIKE` the concatenation of some parts. -/
def likeAtom (negated : Bool) (field : Expr) (parts : List Expr) : Option Atom := do
  let (a, v, b) ← affixes parts
  let (p, quoted) ← patternOf a b
  return ⟨field, .pattern p negated quoted, [v]⟩

/-- The value of an expression that is a bound value. -/
def Expr.value? : Expr → Option Value
  | value v => some v
  | _ => none

theorem mapM_value? (values : List Value) :
    (values.map Expr.value).mapM Expr.value? = some values := by
  induction values with
  | nil => rfl
  | cons v vs ih => simp [Expr.value?, ih]

/-- The atom that a condition is. -/
def Expr.atom? : Expr → Option Atom
  | compare c field (value v) => some ⟨field, .compare c, [v]⟩
  | compare .greater (call "INSTR" [field, value v]) (number "0") =>
    some ⟨field, .pattern .contains false false, [v]⟩
  | compare .equal (call "INSTR" [field, value v]) (number "0") =>
    some ⟨field, .pattern .contains true false, [v]⟩
  | like negated field (concat parts) => likeAtom negated field parts
  | like negated field (call "CONCAT" parts) => likeAtom negated field parts
  | isIn field items => (items.mapM value?).map fun values => ⟨field, .member, values⟩
  | _ => none

/-! ### Truth -/

end Sql

/-- Whether a group holds, from whether its children do. -/
def Glue.holds : Glue → List Bool → Bool
  | and => (·.all id)
  | or => (·.any id)

namespace Sql

mutual

/-- Whether a condition holds, if `ρ` says which atoms do; `none` if the expression is
not a condition. -/
def Expr.truth (ρ : Atom → Bool) : Expr → Option Bool
  | .join glue parts => (truthAll ρ parts).map glue.holds
  | e => e.atom?.map ρ

/-- Which of several conditions hold. -/
def truthAll (ρ : Atom → Bool) : List Expr → Option (List Bool)
  | [] => some []
  | e :: es => (e.truth ρ).bind fun b => (truthAll ρ es).map (b :: ·)

end

end Sql
end SqlFilter
