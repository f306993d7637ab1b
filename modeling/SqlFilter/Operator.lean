/-
# Built-in operators

The operators fall into three families, and each family has its own way of
becoming SQL:

| family | operators | condition |
| --- | --- | --- |
| `compare` | `equal`, `notEqual`, `less`, `greater`, `lessOrEqual`, `greaterOrEqual` | `field < value` |
| `pattern` | `contains`, `beginsWith`, `endsWith`, and their negations | `field LIKE …` |
| `between` | `between`, `notBetween` | `( field > start AND field < stop )` |
-/

namespace SqlFilter

/-- An order comparison of a field with one value. -/
inductive Comparison where
  | equal
  | notEqual
  | less
  | greater
  | lessOrEqual
  | greaterOrEqual
  deriving DecidableEq

/-- The SQL sign of a comparison. -/
def Comparison.symbol : Comparison → String
  | equal => "="
  | notEqual => "<>"
  | less => "<"
  | greater => ">"
  | lessOrEqual => "<="
  | greaterOrEqual => ">="

/-- Where in a field's text a value is looked for. -/
inductive Pattern where
  | contains
  | beginsWith
  | endsWith
  deriving DecidableEq

/-- A built-in operator. -/
inductive Operator where
  | compare (c : Comparison)
  | pattern (p : Pattern) (negated : Bool)
  /-- Strictly inside a range or, negated, strictly outside it. -/
  | between (negated : Bool)
  deriving DecidableEq

namespace Operator

/-- The name a filter calls an operator by. -/
def name : Operator → String
  | compare .equal => "equal"
  | compare .notEqual => "notEqual"
  | compare .less => "less"
  | compare .greater => "greater"
  | compare .lessOrEqual => "lessOrEqual"
  | compare .greaterOrEqual => "greaterOrEqual"
  | pattern .contains false => "contains"
  | pattern .contains true => "notContains"
  | pattern .beginsWith false => "beginsWith"
  | pattern .beginsWith true => "notBeginsWith"
  | pattern .endsWith false => "endsWith"
  | pattern .endsWith true => "notEndsWith"
  | between false => "between"
  | between true => "notBetween"

/-- Every operator, in the order in which they are listed to callers. -/
def all : List Operator :=
  [compare .equal, compare .notEqual, compare .less, compare .greater,
   compare .lessOrEqual, compare .greaterOrEqual,
   pattern .contains false, pattern .contains true,
   pattern .beginsWith false, pattern .beginsWith true,
   pattern .endsWith false, pattern .endsWith true,
   between false, between true]

/-- The operator of a name; letter case counts. -/
def ofName? (name : String) : Option Operator :=
  all.find? (·.name == name)

/-- A name belongs to one operator. -/
theorem ofName?_eq_some_iff {name : String} {op : Operator} :
    ofName? name = some op ↔ op.name = name := by
  constructor
  · intro h
    simpa using List.find?_some h
  · rintro rfl
    rcases op with c | ⟨p, negated⟩ | negated
    · cases c <;> rfl
    · cases p <;> cases negated <;> rfl
    · cases negated <;> rfl

/-- How many values an operator takes. -/
def arity : Operator → Nat
  | between _ => 2
  | _ => 1

end Operator
end SqlFilter
