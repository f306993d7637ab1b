/-
# Compiled filters as JSON

A compiled filter travels as an object of its SQL text and its values.
-/

import SqlFilter.Condition
import SqlFilter.Wire.Value

namespace SqlFilter

/-- A compiled filter as a document. -/
def Compiled.toJson (c : Compiled) : Json :=
  .obj [("sql", .str c.sql), ("values", .arr (Value.toJsonItems c.values))]

end SqlFilter
