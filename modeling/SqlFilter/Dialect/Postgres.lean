/-
# Postgres

Placeholders are numbered `$1`, `$2`, … over the whole statement.  A key of a
JSON column is taken out by `->` and cast to its type; the names and the key are
quoted.  The text of a JSON string keeps its quotes, so a pattern on a JSON
field has to match them too.
-/

import SqlFilter.Dialect.Basic

namespace SqlFilter
namespace Postgres

/-- A text with `quote` around it and every `quote` inside it written twice. -/
def enclose (quote : Char) (text : String) : String :=
  String.ofList
    (quote :: text.toList.flatMap (fun c => if c = quote then [c, c] else [c]) ++ [quote])

/-- A delimited identifier. -/
def quoteName (name : String) : String :=
  enclose '"' name

/-- A string literal. -/
def quoteText (text : String) : String :=
  enclose '\'' text

/-- The column of a reference, with its table. -/
def column (ref : FieldRef) : String :=
  match ref.table with
  | some table => quoteName table ++ "." ++ quoteName ref.column
  | none => quoteName ref.column

/-- The value under a reference's key. -/
def extraction (ref : FieldRef) : String :=
  "(" ++ column ref ++ "->" ++ quoteText ref.key ++ ")"

/-- The value under a reference's key, cast to its type. -/
def jsonExpr (ref : FieldRef) : String :=
  match ref.cast with
  | .date => "CAST(" ++ extraction ref ++ "::text AS DATE)"
  | .to type => extraction ref ++ "::" ++ type

/-- What a field is matched with, where `mark` is the placeholder of the text
looked for. -/
def template (p : Pattern) (isJson : Bool) (mark : String) : String :=
  match p, isJson with
  | .contains, false => "'%' || " ++ mark ++ " || '%'"
  | .contains, true => "'\"%' || " ++ mark ++ " || '%\"'"
  | .beginsWith, false => mark ++ " || '%'"
  | .beginsWith, true => "'\"' || " ++ mark ++ " || '%'"
  | .endsWith, false => "'%' || " ++ mark
  | .endsWith, true => "'%' || " ++ mark ++ " || '\"'"

end Postgres

/-- Postgres; the state is the number of the last placeholder. -/
def postgres : Dialect Nat where
  name := "postgres"
  placeholder n := ("$" ++ toString (n + 1), n + 1)
  reset _ := 0
  jsonExpr _ ref := some (Postgres.jsonExpr ref)
  pattern _ p field negated isJson := do
    let mark ← Drawing.placeholder
    return field ++ likeOperator negated ++ Postgres.template p isJson mark

end SqlFilter
