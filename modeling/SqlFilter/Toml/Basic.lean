/-
# TOML documents

A TOML document is a table.  Next to the values that JSON has, TOML has dates
and times (`moment`), numbers that are not finite, and no null.  As JSON, a
number that is not finite is `null`, and a moment is an object with its text
under one reserved name.
-/

import SqlFilter.Json.Basic

namespace SqlFilter

/-- A value of a TOML document. -/
inductive Toml where
  | str (s : String)
  | integer (n : Int)
  | float (x : Float)
  | bool (b : Bool)
  /-- A date, a time, or both, as a normal text. -/
  | moment (written : String)
  | array (items : List Toml)
  | table (entries : List (String × Toml))
  deriving Inhabited

namespace Toml

/-- The name under which the text of a moment stands. -/
def momentName : String := "$__toml_private_datetime"

/-- The entries of a value that has entries. -/
def entries? : Toml → Option (List (String × Toml))
  | table entries => some entries
  | moment written => some [(momentName, .str written)]
  | _ => none

mutual

/-- A value as a JSON document. -/
def toJson : Toml → Json
  | str s => .str s
  | integer n => .num (.int n)
  | float x => if x.isFinite then .num (.float x) else .null
  | bool b => .bool b
  | moment written => .obj [(momentName, .str written)]
  | array items => .arr (toJsonItems items)
  | table entries => Json.ofMembers (toJsonEntries entries)

/-- Values as JSON documents. -/
def toJsonItems : List Toml → List Json
  | [] => []
  | v :: vs => toJson v :: toJsonItems vs

/-- Entries as members of a JSON object. -/
def toJsonEntries : List (String × Toml) → List (String × Json)
  | [] => []
  | (k, v) :: es => (k, toJson v) :: toJsonEntries es

end

end Toml
end SqlFilter
