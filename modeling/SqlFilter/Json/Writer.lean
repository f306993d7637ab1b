/-
# Writing JSON

`compact` writes a document without blanks, and `pretty` with one item or
member to a line, indented by two blanks a level.  Inside a string only the
quote, the backslash and the control characters are escaped, so the text of a
document never holds a raw line break inside a string, and a compact text holds
none at all.  A floating point number that is not finite is written as `null`.
-/

import SqlFilter.Decimal.Layout
import SqlFilter.Json.Basic

namespace SqlFilter
namespace Json

/-- The escape letter of a character, if it has one. -/
def escapeLetter? : Char → Option Char
  | '"' => some '"'
  | '\\' => some '\\'
  | '\x08' => some 'b'
  | '\x0c' => some 'f'
  | '\n' => some 'n'
  | '\r' => some 'r'
  | '\t' => some 't'
  | _ => none

/-- A character as it stands inside a string. -/
def escapeChar (c : Char) : List Char :=
  match escapeLetter? c with
  | some letter => ['\\', letter]
  | none =>
    if c.toNat < 0x20 then
      ['\\', 'u', '0', '0', Nat.digitChar (c.toNat / 16), Nat.digitChar (c.toNat % 16)]
    else [c]

/-- A string with its quotes. -/
def writeString (s : String) : List Char :=
  '"' :: s.toList.flatMap escapeChar ++ ['"']

/-- The word `null`. -/
def nullWord : List Char := ['n', 'u', 'l', 'l']

/-- A truth value. -/
def writeBool (b : Bool) : List Char :=
  if b then ['t', 'r', 'u', 'e'] else ['f', 'a', 'l', 's', 'e']

/-- An integer in decimal. -/
def writeInt (n : Int) : List Char :=
  if n < 0 then '-' :: Nat.toDigits 10 n.natAbs else Nat.toDigits 10 n.natAbs

/-- A floating point number. -/
def writeFloat (x : Float) : List Char :=
  match Decimal.Binary64.ofFloat x with
  | .finite negative m => Decimal.writeFinite Decimal.jsonStyle negative m
  | _ => nullWord

/-- A number. -/
def Number.write : Number → List Char
  | int n => writeInt n
  | float x => writeFloat x

mutual

/-- The compact text of a document. -/
def compact : Json → List Char
  | null => nullWord
  | bool b => writeBool b
  | num n => n.write
  | str s => writeString s
  | arr items => '[' :: compactItems items ++ [']']
  | obj members => '{' :: compactMembers members ++ ['}']

/-- Items with commas between them. -/
def compactItems : List Json → List Char
  | [] => []
  | [j] => compact j
  | j :: js => compact j ++ ',' :: compactItems js

/-- Members with commas between them. -/
def compactMembers : List (String × Json) → List Char
  | [] => []
  | [(k, j)] => writeString k ++ ':' :: compact j
  | (k, j) :: ms => writeString k ++ ':' :: compact j ++ ',' :: compactMembers ms

end

/-- The compact text of a document, as a string. -/
def compactText (j : Json) : String :=
  String.ofList (compact j)

/-- A line break and the indentation of a level. -/
def lineBreak (level : Nat) : List Char :=
  '\n' :: List.replicate (2 * level) ' '

mutual

/-- The text of a document over several lines, inside `level` levels. -/
def pretty (level : Nat) : Json → List Char
  | null => nullWord
  | bool b => writeBool b
  | num n => n.write
  | str s => writeString s
  | arr [] => ['[', ']']
  | arr (j :: js) =>
    '[' :: lineBreak (level + 1) ++ pretty (level + 1) j ++ prettyItems (level + 1) js
      ++ lineBreak level ++ [']']
  | obj [] => ['{', '}']
  | obj ((k, j) :: ms) =>
    '{' :: lineBreak (level + 1) ++ writeString k ++ ':' :: ' ' :: pretty (level + 1) j
      ++ prettyMembers (level + 1) ms ++ lineBreak level ++ ['}']

/-- The items after the first, each after a comma on a line of its own. -/
def prettyItems (level : Nat) : List Json → List Char
  | [] => []
  | j :: js => ',' :: lineBreak level ++ pretty level j ++ prettyItems level js

/-- The members after the first, each after a comma on a line of its own. -/
def prettyMembers (level : Nat) : List (String × Json) → List Char
  | [] => []
  | (k, j) :: ms =>
    ',' :: lineBreak level ++ writeString k ++ ':' :: ' ' :: pretty level j
      ++ prettyMembers level ms

end

/-- The text of a document over several lines, as a string. -/
def prettyText (j : Json) : String :=
  String.ofList (pretty 0 j)

end Json
end SqlFilter
