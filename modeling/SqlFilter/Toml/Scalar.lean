/-
# Values without delimiters in TOML

Truth values, numbers and moments.  An integer is written in decimal, or after
`0x`, `0o` or `0b` in another base and then without a sign.  Underscores may
stand between digits.  A number has no zeros in front, except in an exponent.
An integer fits in 64 bits with or without a sign, and a floating point number
is finite unless it is written as `inf` or `nan`.
-/

import SqlFilter.Decimal.Rounding
import SqlFilter.Json.Quoted
import SqlFilter.Toml.Basic
import SqlFilter.Toml.Moment

namespace SqlFilter
namespace Toml
namespace Scalar

/-- The digits of a text in which every underscore stands between two digits;
`afterDigit` says whether a digit comes just before the text. -/
def digitsFrom (isDigit : Char → Bool) (afterDigit : Bool) : List Char → Option (List Char)
  | [] => if afterDigit then some [] else none
  | c :: cs =>
    if c = '_' then if afterDigit then digitsFrom isDigit false cs else none
    else if isDigit c then (digitsFrom isDigit true cs).map (c :: ·)
    else none

/-- The digits of a text, at least one. -/
def digits? (isDigit : Char → Bool) (text : List Char) : Option (List Char) :=
  digitsFrom isDigit false text

/-- Decimal digits without a zero in front. -/
def whole? (text : List Char) : Option (List Char) := do
  match ← digits? Char.isDigit text with
  | '0' :: _ :: _ => none
  | ds => some ds

/-- The sign of a number, true for minus, and the text after it. -/
def sign : List Char → Bool × List Char
  | '-' :: cs => (true, cs)
  | '+' :: cs => (false, cs)
  | cs => (false, cs)

/-- An integer that 64 bits hold. -/
def ranged (n : Int) : Option Toml :=
  if Int64.minValue.toInt ≤ n ∧ n < UInt64.size then some (.integer n) else none

/-- The digits of a base after its mark. -/
def based? (base : Nat) (text : List Char) : Option Toml := do
  let ds ← digits? (fun c => (Json.Quoted.hexDigit? c).any (· < base)) text
  let n := ds.foldl (fun n c => base * n + (Json.Quoted.hexDigit? c).getD 0) 0
  ranged n

/-- A text before and after its first exponent mark. -/
def cutExponent (text : List Char) : List Char × Option (List Char) :=
  let isMark (c : Char) : Bool := c == 'e' || c == 'E'
  match text.dropWhile (!isMark ·) with
  | [] => (text, none)
  | _ :: exponent => (text.takeWhile (!isMark ·), some exponent)

/-- A text before and after its first point. -/
def cutPoint (text : List Char) : List Char × Option (List Char) :=
  match text.dropWhile (· != '.') with
  | [] => (text, none)
  | _ :: fraction => (text.takeWhile (· != '.'), some fraction)

/-- The value of an exponent. -/
def exponent? (text : List Char) : Option Int := do
  let (negative, text) := sign text
  let n := Nat.ofDigitChars 10 (← digits? Char.isDigit text) 0
  some (if negative then -n else n)

/-- A number in decimal. -/
def decimal? (text : List Char) : Option Toml := do
  let (negative, unsigned) := sign text
  let (mantissa, exponent) := cutExponent unsigned
  let (whole, fraction) := cutPoint mantissa
  let whole ← whole? whole
  match fraction, exponent with
  | none, none =>
    let n : Int := Nat.ofDigitChars 10 whole 0
    ranged (if negative then -n else n)
  | _, _ =>
    let fraction ← match fraction with
      | none => some []
      | some ds => digits? Char.isDigit ds
    let exponent ← match exponent with
      | none => some 0
      | some e => exponent? e
    (Decimal.nearest? negative (Nat.ofDigitChars 10 (whole ++ fraction) 0)
      (exponent - fraction.length)).map .float

/-- The numbers that are not finite. -/
def special? (text : List Char) : Option Toml :=
  let (negative, word) := sign text
  if word = ['i', 'n', 'f'] then some (.float (if negative then -1.0 / 0.0 else 1.0 / 0.0))
  else if word = ['n', 'a', 'n'] then some (.float (0.0 / 0.0))
  else none

/-- The value that a text is. -/
def parse? (text : List Char) : Option Toml :=
  match text with
  | ['t', 'r', 'u', 'e'] => some (.bool true)
  | ['f', 'a', 'l', 's', 'e'] => some (.bool false)
  | '0' :: 'x' :: ds => based? 16 ds
  | '0' :: 'o' :: ds => based? 8 ds
  | '0' :: 'b' :: ds => based? 2 ds
  | _ =>
    match Moment.parse? text with
    | some m => some (.moment (String.ofList m))
    | none => (special? text).or (decimal? text)

/-- The characters of values without delimiters. -/
def isPart (c : Char) : Bool :=
  c.isAlphanum || c == '_' || c == '+' || c == '-' || c == '.' || c == ':'

/-- The value at the front of a text, and the text after it.  A blank may stand
between a date and a time. -/
def scan (text : List Char) : Option (Toml × List Char) :=
  let word := text.takeWhile isPart
  let rest := text.dropWhile isPart
  match Moment.date word, rest with
  | some (_, []), ' ' :: next =>
    match next with
    | d :: _ =>
      if d.isDigit then
        (parse? (word ++ ' ' :: next.takeWhile isPart)).map (·, next.dropWhile isPart)
      else (parse? word).map (·, rest)
    | [] => (parse? word).map (·, rest)
  | _, _ => (parse? word).map (·, rest)

end Scalar
end Toml
end SqlFilter
