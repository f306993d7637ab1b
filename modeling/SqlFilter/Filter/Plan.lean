/-
# Plans

The plan of a leaf is what there is to write for it.  Planning looks at nothing
but the leaf, the configuration and the dialect's expression for its field,
and draws no placeholder.  So everything that can be wrong with a leaf of a
built-in operator is found before its first placeholder is drawn.

A leaf is planned in this order; the first line that applies decides:

| the leaf has | plan |
| --- | --- |
| no field | nothing |
| a field the whitelist rejects | error |
| a JSON reference of an invalid type | error |
| a predicate that is unknown or refuses | error |
| membership values | `field IN(…)` |
| no operator | nothing |
| a built-in operator | its condition, or an error of count |
| a configured operation | what the operation draws |
| another operator | error |
-/

import SqlFilter.Condition
import SqlFilter.Config

namespace SqlFilter

/-- What there is to write for a leaf. -/
inductive Plan where
  | nothing
  | condition (field : FieldExpr) (condition : Condition)
  | custom (operator : String) (drawing : Drawing (Except CompileError (String × List Value)))

namespace Leaf

/-- The field's expression after the leaf's predicate. -/
def wrap (config : Config) (predicate : Option String) (field : FieldExpr) :
    Except CompileError FieldExpr :=
  match predicate with
  | none => .ok field
  | some name =>
    match config.predicates.find? name with
    | none => .error (.unknownPredicate name)
    | some wrapper => do return { field with sql := ← wrapper field.sql name }

/-- The operand of a leaf: the one its alias names, if that is configured, and
its own otherwise. -/
def effectiveOperand (config : Config) (leaf : Leaf) : Option Operand :=
  (leaf.aliasName.bind config.aliases.find?).or leaf.operand

/-- What the operator of a leaf asks of the field. -/
def planOperator (config : Config) (leaf : Leaf) (field : FieldExpr) :
    Except CompileError Plan :=
  let operand := leaf.effectiveOperand config
  match Operator.ofName? leaf.operator with
  | some op => do return .condition field (← op.condition operand)
  | none =>
    match config.operations.find? leaf.operator with
    | some operation =>
      .ok (.custom leaf.operator
        (operation field.sql leaf.operator (Operand.arguments operand)))
    | none => .error (.unknownOperator leaf.operator)

/-- What there is to write for a leaf, where `resolve` gives the expression of a
field. -/
def plan (resolve : String → Except CompileError FieldExpr) (config : Config) (leaf : Leaf) :
    Except CompileError Plan :=
  if leaf.field.isEmpty then .ok .nothing
  else if !config.whitelist.admits leaf.field then .error (.fieldRejected leaf.field)
  else do
    let field ← wrap config leaf.predicate (← resolve leaf.field)
    match leaf.includes with
    | some (item :: items) => return .condition field (.member (item :: items))
    | _ => if leaf.operator.isEmpty then return .nothing else leaf.planOperator config field

end Leaf

end SqlFilter
