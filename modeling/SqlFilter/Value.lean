/-
# Bind values

A condition never carries its values inside the SQL text.  Each value travels
beside the text and is bound to a placeholder.  `Value` is the type of these
values: the scalars of a database, and arrays of them.
-/

namespace SqlFilter

/-- A value that is bound to a placeholder. -/
inductive Value where
  /-- SQL `NULL`. -/
  | null
  | bool (b : Bool)
  | int (i : Int64)
  | float (x : Float)
  | str (s : String)
  | arr (items : List Value)
  deriving Inhabited

namespace Value

/-- Whether a value is SQL `NULL`. -/
def isNull : Value → Bool
  | null => true
  | _ => false

@[simp] theorem isNull_eq_true_iff {v : Value} : v.isNull = true ↔ v = null := by
  cases v <;> simp [isNull]

/-- A value that may be missing: what is missing binds as `NULL`. -/
def ofOption : Option Value → Value
  | none => null
  | some v => v

end Value

end SqlFilter
