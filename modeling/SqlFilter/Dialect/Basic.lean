/-
# Dialects

A dialect is what one database needs to know about writing conditions: how its
placeholders look and which one comes next, how a key of a JSON column is
addressed, and how a pattern is matched.

A dialect has a state, which says which placeholder comes next.  The contract of
dialects (specification, section 3) is that they are "stateless except for a
running placeholder counter", and the clauses keep to it by their type.  They
may look at the state, but they are drawings (`Drawing`): a clause changes the
state by the placeholders it takes, and in no other way.

A field is resolved by `Dialect.resolve`: a reference into a JSON column becomes
the dialect's own expression, if the dialect has one, and every other field
stays as it is.
-/

import SqlFilter.CompileError
import SqlFilter.Drawing
import SqlFilter.FieldRef
import SqlFilter.Identifier
import SqlFilter.Operator

namespace SqlFilter

/-- The membership condition `field IN(…)` with `count` placeholders. -/
def listMembership (field : String) (count : Nat) : Drawing String := do
  let marks ← Drawing.placeholders count
  return field ++ " IN(" ++ ",".intercalate marks ++ ")"

/-- A database's way of writing conditions.  A state of type `σ` says which
placeholder comes next; `placeholder` and `reset` are the only parts that change
it, and a clause (`pattern`, `member`) does so by what it draws.  A dialect whose
clauses keep a state of their own is none, by the contract cited above. -/
structure Dialect (σ : Type) where
  name : String
  /-- The next placeholder, and the state after it. -/
  placeholder : σ → String × σ
  /-- The state at the start of a statement. -/
  reset : σ → σ := id
  /-- The expression for a reference into a JSON column, if the database has
  one. -/
  jsonExpr : σ → FieldRef → Option String := fun _ _ => none
  /-- The condition that a field's text matches a pattern; `isJson` says that
  the field is an expression into a JSON column. -/
  pattern (s : σ) (p : Pattern) (field : String) (negated isJson : Bool) : Drawing String
  /-- The condition that a field is one of `count` values. -/
  member : σ → (field : String) → (count : Nat) → Drawing String := fun _ => listMembership

/-- A field as it stands in the SQL text. -/
structure FieldExpr where
  sql : String
  /-- Whether `sql` is an expression into a JSON column. -/
  isJson : Bool
  deriving DecidableEq

namespace Dialect

variable {σ : Type}

/-- A field as the dialect writes it.  The declared type of a reference is
checked only when the dialect has an expression for it, because only then is it
spliced into the text. -/
def resolve (d : Dialect σ) (s : σ) (raw : String) : Except CompileError FieldExpr :=
  match FieldRef.parse raw with
  | none => .ok ⟨raw, false⟩
  | some ref =>
    match d.jsonExpr s ref with
    | none => .ok ⟨raw, false⟩
    | some sql =>
      match ref.type with
      | some type =>
        if Identifier.isPlain type then .ok ⟨sql, true⟩
        else .error (.invalidCastType raw type)
      | none => .ok ⟨sql, true⟩

/-- Runs a drawing on the dialect's placeholders. -/
def draw {α : Type} (d : Dialect σ) (drawing : Drawing α) : StateM σ α :=
  drawing.run d.placeholder

end Dialect

/-- The operator of a pattern match, between blanks. -/
def likeOperator (negated : Bool) : String :=
  if negated then " NOT LIKE " else " LIKE "

end SqlFilter
