/-
# Showing values to a programmer

The text of a value, an operand or a configuration that names its constructor
and fields, such as `Range { start: Some(Int(1)), end: None }`.  Functions
have no text, so an operation or a predicate shows as its name and the test of a
whitelist as its type.
-/

import SqlFilter.Config
import SqlFilter.Decimal.Layout
import SqlFilter.Text.Shown

namespace SqlFilter
namespace Inspect

/-- Texts with commas between them. -/
def commas (texts : List String) : String :=
  ", ".intercalate texts

/-- A constructor and its argument. -/
def applied (name argument : String) : String :=
  name ++ "(" ++ argument ++ ")"

/-- A list. -/
def list (texts : List String) : String :=
  "[" ++ commas texts ++ "]"

/-- Texts between braces, with the given space inside the braces. -/
def braces (space : String) (texts : List String) : String :=
  if texts.isEmpty then "\x7b\x7d" else "\x7b" ++ space ++ commas texts ++ space ++ "\x7d"

/-- A structure and its fields. -/
def record (name : String) (fields : List (String × String)) : String :=
  name ++ " " ++ braces " " (fields.map fun (field, text) => field ++ ": " ++ text)

/-- Something that may be absent. -/
def optional {α : Type} (inspect : α → String) : Option α → String
  | none => "None"
  | some a => applied "Some" (inspect a)

/-- A character inside a string: what does not show as itself is escaped. -/
def char (c : Char) : List Char :=
  match c with
  | '\x00' => ['\\', '0']
  | '\t' => ['\\', 't']
  | '\r' => ['\\', 'r']
  | '\n' => ['\\', 'n']
  | '"' => ['\\', '"']
  | '\\' => ['\\', '\\']
  | c =>
    if Text.isShown c then [c]
    else ['\\', 'u', '\x7b'] ++ Nat.toDigits 16 c.toNat ++ ['\x7d']

/-- A string with its quotes. -/
def string (s : String) : String :=
  String.ofList ('"' :: s.toList.flatMap char ++ ['"'])

/-- A truth value. -/
def bool (b : Bool) : String :=
  if b then "true" else "false"

/-- A floating point number. -/
def float (x : Float) : String :=
  match Decimal.Binary64.ofFloat x with
  | .nan => "NaN"
  | .infinite false => "inf"
  | .infinite true => "-inf"
  | .finite negative m => String.ofList (Decimal.writeFinite Decimal.inspectStyle negative m)

mutual

/-- A value. -/
def value : Value → String
  | .null => "Null"
  | .bool b => applied "Bool" (bool b)
  | .int i => applied "Int" (toString i.toInt)
  | .float x => applied "Float" (float x)
  | .str s => applied "String" (string s)
  | .arr items => applied "Array" (list (values items))

/-- Values, one text each. -/
def values : List Value → List String
  | [] => []
  | v :: vs => value v :: values vs

end

/-- An operand. -/
def operand : Operand → String
  | .scalar v => applied "Scalar" (value v)
  | .range start stop =>
    record "Range" [("start", optional value start), ("end", optional value stop)]
  | .list items => applied "List" (list (values items))

/-- A whitelist. -/
def whitelist (w : Whitelist) : String :=
  record "Whitelist"
    [("fields", optional (fun fields => braces "" (fields.map string)) w.fields),
     ("predicate", optional (fun _ => string "Fn(&str) -> bool") w.test)]

/-- A configuration. -/
def config (c : Config) : String :=
  record "SqlConfig"
    [("whitelist", whitelist c.whitelist),
     ("operations", list (c.operations.names.map string)),
     ("predicates", list (c.predicates.names.map string)),
     ("aliases",
       braces "" (c.aliases.entries.map fun (name, o) => string name ++ ": " ++ operand o))]

end Inspect
end SqlFilter
