/-
# Dates and times

```text
date          1979-05-27
time          07:32:00.999
date-time     1979-05-27T07:32:00Z, 1979-05-27 07:32:00-07:00
```

The seconds of a time may be left out, and are zero then.  A date-time may have an offset from UTC,
and a date or a time alone has none.  The normal text of a moment has a `T`
between date and time, no zeros at the end of a fraction of a second, at most
nine digits of it, and `Z` or a sign for the offset.
-/

namespace SqlFilter
namespace Toml
namespace Moment

/-- What is left of a text after a part of a moment, and the part's value. -/
abbrev Part (α : Type) := List Char → Option (α × List Char)

/-- Exactly `count` digits. -/
def digits (count : Nat) : Part (List Char) := fun text =>
  let ds := text.take count
  if ds.length = count ∧ ds.all Char.isDigit then some (ds, text.drop count) else none

/-- A number of two digits that is at most `greatest`. -/
def upTo (greatest : Nat) : Part (List Char) := fun text => do
  let (ds, rest) ← digits 2 text
  if Nat.ofDigitChars 10 ds 0 ≤ greatest then some (ds, rest) else none

/-- One expected character. -/
def expect (c : Char) : Part Unit
  | d :: rest => if d = c then some ((), rest) else none
  | [] => none

/-- Whether a year has a 29th of February. -/
def isLeap (year : Nat) : Bool :=
  year % 4 == 0 && (year % 100 != 0 || year % 400 == 0)

/-- The number of days of a month. -/
def daysIn (year month : Nat) : Nat :=
  if month = 2 then if isLeap year then 29 else 28
  else if month = 4 ∨ month = 6 ∨ month = 9 ∨ month = 11 then 30
  else 31

/-- A date. -/
def date : Part (List Char) := fun text => do
  let (year, rest) ← digits 4 text
  let ((), rest) ← expect '-' rest
  let (month, rest) ← upTo 12 rest
  let ((), rest) ← expect '-' rest
  let (day, rest) ← upTo 31 rest
  let m := Nat.ofDigitChars 10 month 0
  let d := Nat.ofDigitChars 10 day 0
  if 1 ≤ m ∧ 1 ≤ d ∧ d ≤ daysIn (Nat.ofDigitChars 10 year 0) m then
    some (year ++ '-' :: month ++ '-' :: day, rest)
  else none

/-- A list without the zeros at its end. -/
def dropZeros (ds : List Char) : List Char :=
  (ds.reverse.dropWhile (· == '0')).reverse

/-- The fraction of a second, if there is one. -/
def fraction : Part (List Char)
  | '.' :: text =>
    match text.takeWhile Char.isDigit with
    | [] => none
    | ds =>
      let kept := dropZeros (ds.take 9)
      some (if kept.isEmpty then [] else '.' :: kept, text.dropWhile Char.isDigit)
  | text => some ([], text)

/-- The seconds, which are zero if they are not given; a leap second is the
60th. -/
def seconds : Part (List Char)
  | ':' :: text => do
    let (s, rest) ← upTo 60 text
    let (f, rest) ← fraction rest
    some (':' :: s ++ f, rest)
  | text => some ([':', '0', '0'], text)

/-- A time. -/
def time : Part (List Char) := fun text => do
  let (hour, rest) ← upTo 23 text
  let ((), rest) ← expect ':' rest
  let (minute, rest) ← upTo 59 rest
  let (s, rest) ← seconds rest
  some (hour ++ ':' :: minute ++ s, rest)

/-- The offset from UTC, if there is one; an offset of nothing is positive. -/
def offset : Part (List Char) := fun text =>
  match text with
  | [] => some ([], [])
  | c :: rest =>
    if c = 'Z' ∨ c = 'z' then some (['Z'], rest)
    else if c = '+' ∨ c = '-' then do
      let (hour, rest) ← upTo 23 rest
      let ((), rest) ← expect ':' rest
      let (minute, rest) ← upTo 59 rest
      let isZero := (hour ++ minute).all (· == '0')
      some ((if isZero then '+' else c) :: hour ++ ':' :: minute, rest)
    else none

/-- The date-time that goes on after a date. -/
def timeAndOffset (date text : List Char) : Option (List Char) := do
  let (t, rest) ← time text
  let (o, rest) ← offset rest
  if rest.isEmpty then some (date ++ 'T' :: t ++ o) else none

/-- The normal text of the moment that a text is. -/
def parse? (text : List Char) : Option (List Char) :=
  match date text with
  | some (d, []) => some d
  | some (d, c :: rest) =>
    if c = 'T' ∨ c = 't' ∨ c = ' ' then timeAndOffset d rest else none
  | none =>
    match time text with
    | some (t, []) => some t
    | _ => none

end Moment
end Toml
end SqlFilter
