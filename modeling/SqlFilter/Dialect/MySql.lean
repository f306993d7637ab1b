/-
# MySQL

Every placeholder is `?`, so there is nothing to count.  JSON columns are not
addressed: a reference into one stays as it is written.
-/

import SqlFilter.Dialect.Basic

namespace SqlFilter

/-- MySQL. -/
def mysql : Dialect Unit where
  name := "mysql"
  placeholder s := ("?", s)
  pattern _ p field negated _ := do
    let mark ← Drawing.placeholder
    return match p with
      | .contains => "INSTR(" ++ field ++ ", " ++ mark ++ ")" ++ if negated then " = 0" else " > 0"
      | .beginsWith => field ++ likeOperator negated ++ "CONCAT(" ++ mark ++ ", '%')"
      | .endsWith => field ++ likeOperator negated ++ "CONCAT('%', " ++ mark ++ ")"

end SqlFilter
