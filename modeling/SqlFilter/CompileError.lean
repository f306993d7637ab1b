/-
# Why a filter does not compile

Every cause is either a filter that asks for something it may not have, or a
configuration that lacks what the filter names.  Compiling the same filter
again fails again.

That a text is no filter is not among the causes.  A text is decoded before there
is a filter to compile, and fails with a problem of its own (`Json.Problem`).
-/

namespace SqlFilter

/-- Why a filter does not compile.

A configured handler may fail with any of these, and its error is passed on as it is.  That
a handler passes on a decoding problem of its own is left out: the compiler does not look
into the error of a handler, so this one would go the way of `refused`. -/
inductive CompileError where
  /-- The whitelist rejects a leaf's field. -/
  | fieldRejected (field : String)
  /-- An operator is neither built in nor a configured operation. -/
  | unknownOperator (operator : String)
  /-- A leaf names a predicate that is not configured. -/
  | unknownPredicate (predicate : String)
  /-- An operator does not take this number of values. -/
  | wrongCount (operator : String) (expected actual : Nat)
  /-- A JSON reference declares a type that is no plain identifier. -/
  | invalidCastType (field type : String)
  /-- A configured operation or predicate refuses its input. -/
  | refused (operator message : String)
  deriving DecidableEq, Inhabited

/-- The text shown for an error. -/
def CompileError.message : CompileError → String
  | fieldRejected field => "field name is not in whitelist: " ++ field
  | unknownOperator operator => "unknown operation: " ++ operator
  | unknownPredicate predicate => "unknown predicate: " ++ predicate
  | wrongCount operator expected actual =>
    "wrong number of parameters for " ++ operator ++ " operation: expected "
      ++ toString expected ++ ", got " ++ toString actual
  | invalidCastType field type =>
    "invalid type '" ++ type ++ "' in JSON field reference: " ++ field
  | refused operator message => operator ++ ": " ++ message

end SqlFilter
