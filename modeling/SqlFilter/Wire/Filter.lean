/-
# Filters as JSON

A node of a filter is a record:

| field | meaning |
| --- | --- |
| `rules`, also written `data` | the children; with it, even if empty, the node is a group |
| `glue` | the connective of a group |
| `field`, `alias`, `predicate`, `includes` | the parts of a leaf that have these names |
| `condition`: `type`, `filter` | the operator and the operand |
| `type`, `filter`, `value` | the same without `condition` |

With a `condition` its two fields count.  Otherwise, with a `type`, this is the
operator, and `filter` or else `value` the operand.  Otherwise `filter` is the
operator, if it is a string, and `value` the operand.  A field that is `null` is
absent, and fields that a node has no use for are still read.
-/

import SqlFilter.Filter.Basic
import SqlFilter.Wire.Value

namespace SqlFilter

open Json (Problem Written)

namespace Wire

/-- The fields of a `condition`. -/
inductive ConditionKey where
  | type
  | filter
  deriving DecidableEq

/-- A `condition` as a record. -/
def conditionShape : Written.Shape ConditionKey where
  order := [.type, .filter]
  ofName?
    | "type" => some .type
    | "filter" => some .filter
    | _ => none
  skipsOthers := true

/-- A `condition` as it is read. -/
structure ConditionRecord where
  type : Option String := none
  filter : Option Json := none
  deriving Inhabited

/-- Reads a field of a `condition`. -/
def readConditionField (depth : Nat) (key : ConditionKey) (w : Written) (raw : ConditionRecord) :
    Except Problem ConditionRecord :=
  match key with
  | .type => do return { raw with type := ← w.readOptional Written.readString }
  | .filter => do return { raw with filter := ← w.readOptional (Written.readJson depth) }

/-- Reads a `condition`; `depth` more arrays and objects may be opened. -/
def readCondition : (depth : Nat) → Written → Except Problem ConditionRecord
  | 0, w => .error (w.tooDeep Written.isRecord)
  | depth + 1, w => w.readRecord conditionShape {} (readConditionField depth)

/-- The fields of a node. -/
inductive NodeKey where
  | glue
  | rules
  | field
  | aliasName
  | predicate
  | includes
  | condition
  | type
  | filter
  | value
  deriving DecidableEq

/-- A node as a record. -/
def nodeShape : Written.Shape NodeKey where
  order := [.glue, .rules, .field, .aliasName, .predicate, .includes, .condition, .type, .filter,
    .value]
  ofName?
    | "glue" => some .glue
    | "rules" => some .rules
    | "data" => some .rules
    | "field" => some .field
    | "alias" => some .aliasName
    | "predicate" => some .predicate
    | "includes" => some .includes
    | "condition" => some .condition
    | "type" => some .type
    | "filter" => some .filter
    | "value" => some .value
    | _ => none
  skipsOthers := true

/-- A node as it is read. -/
structure NodeRecord where
  glue : Option String := none
  rules : Option (List Node) := none
  field : Option String := none
  aliasName : Option String := none
  predicate : Option String := none
  includes : Option (List Json) := none
  condition : Option ConditionRecord := none
  type : Option String := none
  filter : Option Json := none
  value : Option Json := none
  deriving Inhabited

namespace NodeRecord

/-- The operator and the operand of a leaf. -/
def question (raw : NodeRecord) : String × Option Json :=
  match raw.condition, raw.type, raw.filter with
  | some condition, _, _ => (condition.type.getD "", condition.filter)
  | none, some type, _ => (type, raw.filter.or raw.value)
  | none, none, some (.str name) => (name, raw.value)
  | none, none, _ => ("", raw.value)

/-- The node that is meant. -/
def toNode (raw : NodeRecord) : Node :=
  match raw.rules with
  | some rules => .group ((raw.glue.map Glue.ofName).getD .and) rules
  | none =>
    let (operator, operand) := raw.question
    .leaf
      { field := raw.field.getD ""
        operator := operator
        operand := operand.map Operand.ofJson
        includes := raw.includes.map Value.ofJsonItems
        aliasName := raw.aliasName
        predicate := raw.predicate }

end NodeRecord

/-- Reads a field of a node, where `readRules` reads the children. -/
def readNodeField (readRules : Written → Except Problem (List Node)) (depth : Nat)
    (key : NodeKey) (w : Written) (raw : NodeRecord) : Except Problem NodeRecord :=
  match key with
  | .glue => do return { raw with glue := ← w.readOptional Written.readString }
  | .rules => do return { raw with rules := ← w.readOptional readRules }
  | .field => do return { raw with field := ← w.readOptional Written.readString }
  | .aliasName => do return { raw with aliasName := ← w.readOptional Written.readString }
  | .predicate => do return { raw with predicate := ← w.readOptional Written.readString }
  | .includes => do
    return { raw with includes := ← w.readOptional (Written.readList Written.readJson depth) }
  | .condition => do return { raw with condition := ← w.readOptional (readCondition depth) }
  | .type => do return { raw with type := ← w.readOptional Written.readString }
  | .filter => do return { raw with filter := ← w.readOptional (Written.readJson depth) }
  | .value => do return { raw with value := ← w.readOptional (Written.readJson depth) }

mutual

/-- Reads a node; `depth` more arrays and objects may be opened. -/
def readNode : (depth : Nat) → Written → Except Problem Node
  | 0, w => .error (w.tooDeep Written.isRecord)
  | depth + 1, w => do
    let raw ← w.readRecord nodeShape {} (readNodeField (readRules depth) depth)
    return raw.toNode

/-- Reads the children of a node. -/
def readRules : (depth : Nat) → Written → Except Problem (List Node)
  | 0, w => .error (w.tooDeep Written.isArray)
  | depth + 1, w => w.readItems (readNode depth)

end

end Wire

/-- **Reads a filter** from its JSON text. -/
def Node.parse (text : String) : Except Problem Node :=
  Json.read (Wire.readNode Json.maxDepth) text

end SqlFilter
