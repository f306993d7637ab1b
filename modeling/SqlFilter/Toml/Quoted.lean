/-
# Strings in TOML

| delimiter | escapes | line breaks |
| --- | --- | --- |
| `"` | yes | no |
| `'` | no | no |
| `"""` | yes | yes |
| `'''` | no | yes |

A line break right after the opening delimiter of the last two does not belong
to the string, and one or two quotes may stand before the closing delimiter.  A
backslash at the end of a line of a `"""` string takes away the blanks and line
breaks that follow.  A tab is the only control character that may stand for
itself.
-/

import SqlFilter.Json.Quoted

namespace SqlFilter
namespace Toml
namespace Quoted

/-- The blanks of a line. -/
def isBlank (c : Char) : Bool :=
  c == ' ' || c == '\t'

/-- The characters that may stand in a comment or a string on one line. -/
def isPlain (c : Char) : Bool :=
  c == '\t' || (decide (0x20 ≤ c.toNat) && c.toNat != 0x7F)

/-- The text after a line break. -/
def newline? : List Char → Option (List Char)
  | '\n' :: cs => some cs
  | '\r' :: '\n' :: cs => some cs
  | _ => none

/-- The character that `count` hexadecimal digits at the front of a text name,
and the text after them. -/
def codePoint? (count : Nat) (text : List Char) : Option (Char × List Char) := do
  let digits := text.take count
  if digits.length < count then none
  else
    let n ← Json.Quoted.hexValue? digits
    if n.isValidChar then some (Char.ofNat n, text.drop count) else none

/-- The character of an escape, from the text after the backslash, and the text
after the escape. -/
def escape? : List Char → Option (Char × List Char)
  | 'b' :: cs => some ('\x08', cs)
  | 't' :: cs => some ('\t', cs)
  | 'n' :: cs => some ('\n', cs)
  | 'f' :: cs => some ('\x0c', cs)
  | 'r' :: cs => some ('\r', cs)
  | 'e' :: cs => some ('\x1b', cs)
  | '"' :: cs => some ('"', cs)
  | '\\' :: cs => some ('\\', cs)
  | 'x' :: cs => codePoint? 2 cs
  | 'u' :: cs => codePoint? 4 cs
  | 'U' :: cs => codePoint? 8 cs
  | _ => none

/-- The text after the blanks and line breaks at its front. -/
def skipBreaks : List Char → List Char
  | '\r' :: '\n' :: cs => skipBreaks cs
  | c :: cs => if isBlank c || c == '\n' then skipBreaks cs else c :: cs
  | [] => []

/-- The text after a line break that a backslash just before the text takes
away, with all blanks and line breaks after it. -/
def lineContinuation? (text : List Char) : Option (List Char) :=
  (newline? (text.dropWhile isBlank)).map skipBreaks

/-- A string and the text after it. -/
abbrev Scan := Option (List Char × List Char)

/-- Characters in front of a string. -/
def Scan.prepend (cs : List Char) (s : Scan) : Scan :=
  s.map fun (string, rest) => (cs ++ string, rest)

/-- A string on one line, up to its closing delimiter `quote`. -/
def line (quote : Char) (escapes : Bool) : (fuel : Nat) → List Char → Scan
  | 0, _ => none
  | _ + 1, [] => none
  | fuel + 1, c :: cs =>
    if c = quote then some ([], cs)
    else if escapes ∧ c = '\\' then
      match escape? cs with
      | some (d, rest) => (line quote escapes fuel rest).prepend [d]
      | none => none
    else if isPlain c then (line quote escapes fuel cs).prepend [c]
    else none

/-- A string over several lines, up to its closing delimiter of three `quote`.
Of more than three quotes the last three are the delimiter. -/
def lines (quote : Char) (escapes : Bool) : (fuel : Nat) → List Char → Scan
  | 0, _ => none
  | _ + 1, [] => none
  | fuel + 1, c :: cs =>
    if c = quote then
      let count := (c :: cs).takeWhile (· == quote) |>.length
      if count < 3 then (lines quote escapes fuel cs).prepend [c]
      else some (List.replicate (min count 5 - 3) quote, (c :: cs).drop (min count 5))
    else if escapes ∧ c = '\\' then
      match lineContinuation? cs with
      | some rest => lines quote escapes fuel rest
      | none =>
        match escape? cs with
        | some (d, rest) => (lines quote escapes fuel rest).prepend [d]
        | none => none
    else
      match newline? (c :: cs) with
      | some rest =>
        (lines quote escapes fuel rest).prepend ((c :: cs).take ((c :: cs).length - rest.length))
      | none => if isPlain c then (lines quote escapes fuel cs).prepend [c] else none

/-- The string after one opening quote. -/
def single (quote : Char) (text : List Char) : Scan :=
  line quote (quote == '"') (text.length + 1) text

/-- The string after three opening quotes. -/
def triple (quote : Char) (text : List Char) : Scan :=
  let text := (newline? text).getD text
  lines quote (quote == '"') (text.length + 1) text

/-- The string whose opening quote is just before the text. -/
def scan (quote : Char) (text : List Char) : Scan :=
  match text with
  | c :: d :: rest =>
    if c = quote ∧ d = quote then triple quote rest else single quote text
  | _ => single quote text

end Quoted
end Toml
end SqlFilter
