/-
# Quoted strings

The text of a string after its opening quote is a sequence of pieces: a
character, which may be written as an escape letter, or a UTF-16 unit written as
`\u` and four hexadecimal digits.  A unit of the surrogate range stands for
nothing by itself; a high one and a low one right after it stand for one
character beyond U+FFFF.

The pieces of a string that nobody looks at need not make sense as characters,
so scanning (`Quoted.scan`) and decoding (`Quoted.value`) are two steps.
-/

import SqlFilter.Json.Problem

namespace SqlFilter
namespace Json

/-- A piece of a quoted string. -/
inductive Piece where
  | char (c : Char)
  /-- A UTF-16 unit that is written as four hexadecimal digits. -/
  | unit (n : Nat)
  deriving DecidableEq

/-- What follows an opening quote: pieces, and then the text after the closing
quote or the problem that was met before it. -/
structure Quoted where
  pieces : List Piece
  rest : Except Problem (List Char)

namespace Quoted

/-- A piece in front of others. -/
def cons (p : Piece) (q : Quoted) : Quoted :=
  { q with pieces := p :: q.pieces }

/-- Nothing but a problem. -/
def fault (p : Problem) : Quoted := ⟨[], .error p⟩

/-- The character of an escape letter. -/
def unescape? : Char → Option Char
  | '"' => some '"'
  | '\\' => some '\\'
  | '/' => some '/'
  | 'b' => some '\x08'
  | 'f' => some '\x0c'
  | 'n' => some '\n'
  | 'r' => some '\r'
  | 't' => some '\t'
  | _ => none

/-- The value of a hexadecimal digit of either case. -/
def hexDigit? (c : Char) : Option Nat :=
  if '0' ≤ c ∧ c ≤ '9' then some (c.toNat - '0'.toNat)
  else if 'a' ≤ c ∧ c ≤ 'f' then some (c.toNat - 'a'.toNat + 10)
  else if 'A' ≤ c ∧ c ≤ 'F' then some (c.toNat - 'A'.toNat + 10)
  else none

/-- The value of hexadecimal digits; none if one of them is something else. -/
def hexValue? (digits : List Char) : Option Nat :=
  digits.foldlM (fun n c => (hexDigit? c).map (16 * n + ·)) 0

/-- The number of bytes of a text. -/
def byteCount (text : List Char) : Nat :=
  text.foldl (fun n c => n + c.utf8Size) 0

/-- The problem of a `\u` with fewer than four characters after it: the text
ends too early if these are fewer than four bytes, too. -/
def shortUnit (rest : List Char) : Problem :=
  if byteCount rest < 4 then .truncated else .malformed

mutual

/-- The pieces of the string whose opening quote is just before the text. -/
def scan : List Char → Quoted
  | [] => fault .truncated
  | c :: cs =>
    if c = '"' then ⟨[], .ok cs⟩
    else if c = '\\' then scanEscape cs
    else if c.toNat < 0x20 then fault .malformed
    else (scan cs).cons (.char c)

/-- The same after a backslash. -/
def scanEscape : List Char → Quoted
  | [] => fault .truncated
  | e :: cs =>
    if e = 'u' then
      match cs with
      | a :: b :: c :: d :: rest =>
        match hexValue? [a, b, c, d] with
        | some n => (scan rest).cons (.unit n)
        | none => fault .malformed
      | short => fault (shortUnit short)
    else
      match unescape? e with
      | some c => (scan cs).cons (.char c)
      | none => fault .malformed

end

/-- Whether a UTF-16 unit is the first of a pair. -/
def isHigh (n : Nat) : Bool := decide (0xD800 ≤ n ∧ n < 0xDC00)

/-- Whether a UTF-16 unit is the second of a pair. -/
def isLow (n : Nat) : Bool := decide (0xDC00 ≤ n ∧ n < 0xE000)

/-- The character of a pair of UTF-16 units. -/
def ofPair (high low : Nat) : Char :=
  Char.ofNat (0x10000 + (high - 0xD800) * 0x400 + (low - 0xDC00))

/-- The characters of pieces that are followed by `ending`.  A high unit at the
very end shares the problem of what follows; before the closing quote it is a
problem of its own. -/
def decode (ending : Except Problem Unit) : List Piece → Except Problem (List Char)
  | [] => ending.map fun _ => []
  | .char c :: ps => (decode ending ps).map (c :: ·)
  | .unit n :: ps =>
    if isLow n then .error .malformed
    else if isHigh n then
      match ps with
      | [] => match ending with
        | .error p => .error p
        | .ok _ => .error .malformed
      | .char _ :: _ => .error .malformed
      | .unit m :: qs =>
        if isLow m then (decode ending qs).map (ofPair n m :: ·) else .error .malformed
    else (decode ending ps).map (Char.ofNat n :: ·)

/-- The string that the pieces spell. -/
def value (q : Quoted) : Except Problem String :=
  (decode (q.rest.map fun _ => ()) q.pieces).map String.ofList

end Quoted
end Json
end SqlFilter
