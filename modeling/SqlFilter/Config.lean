/-
# Configurations

What a filter may use beyond the built-in operators, and which fields it may
name.  A configuration is only read while a filter is compiled.
-/

import SqlFilter.CompileError
import SqlFilter.Drawing
import SqlFilter.Operand
import SqlFilter.Registry
import SqlFilter.Whitelist

namespace SqlFilter

/-- A configured operation: from the field's expression, the operator's name and
the operand's values to an SQL text and the values it binds.  It draws its own
placeholders, one for each value it binds. -/
abbrev Operation :=
  (field operator : String) → List Value → Drawing (Except CompileError (String × List Value))

/-- A configured predicate: from the field's expression and the predicate's name
to the expression that takes its place. -/
abbrev Predicate :=
  (field predicate : String) → Except CompileError String

/-- What a filter may use. -/
structure Config where
  whitelist : Whitelist := {}
  operations : Registry Operation := {}
  predicates : Registry Predicate := {}
  /-- Operands that a filter takes by name. -/
  aliases : Registry Operand := {}
  deriving Inhabited

namespace Config

/-- Takes another whitelist in place of the one so far. -/
def withWhitelist (config : Config) (whitelist : Whitelist) : Config :=
  { config with whitelist }

/-- Admits more names, as `Whitelist.addNames` does. -/
def addNames (config : Config) (names : List String) : Config :=
  { config with whitelist := config.whitelist.addNames names }

/-- Sets the test of the whitelist, as `Whitelist.setTest` does. -/
def setTest (config : Config) (test : String → Bool) : Config :=
  { config with whitelist := config.whitelist.setTest test }

end Config
end SqlFilter
