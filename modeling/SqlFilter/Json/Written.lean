/-
# Documents as they are written

`Written` is the tree of a text before anything is known about the shape it
should have.  It keeps what a plain `Json` document forgets, namely the order
and the repetitions of members, and it is partial: where the text goes wrong the
tree holds the problem (`fault`, or the `stop` of an array or object), and
nothing comes after that place.

Whether a number or a string is in order depends on whether anybody looks at it.
`Lexeme` holds both answers: a skipped string may hold lone surrogates, and a
skipped number may be as large as it likes.
-/

import SqlFilter.Json.Numeral
import SqlFilter.Json.Quoted

namespace SqlFilter
namespace Json

/-- A number or a string of a text. -/
structure Lexeme (α : Type) where
  /-- What it denotes. -/
  value : Except Problem α
  /-- Whether it may be passed over. -/
  skipped : Except Problem Unit

/-- A document as it is written. -/
inductive Written where
  | null
  | bool (b : Bool)
  | number (n : Lexeme Number)
  | string (s : Lexeme String)
  /-- The items of an array, and what is wrong after them instead of the closing
  bracket. -/
  | array (items : List Written) (stop : Option Problem)
  /-- The members of an object, and what is wrong after them instead of the
  closing brace. -/
  | object (members : List (Lexeme String × Written)) (stop : Option Problem)
  /-- No value at all. -/
  | fault (p : Problem)
  deriving Inhabited

/-- The blanks between the parts of a document. -/
def isBlank (c : Char) : Bool :=
  c == ' ' || c == '\t' || c == '\n' || c == '\r'

/-- A text without the blanks in front of it. -/
def skipBlanks (text : List Char) : List Char :=
  text.dropWhile isBlank

/-- The text after an expected word. -/
def expectWord : (word text : List Char) → Except Problem (List Char)
  | [], text => .ok text
  | _ :: _, [] => .error .truncated
  | w :: word, c :: text => if w = c then expectWord word text else .error .malformed

namespace Written

/-- A tree, and the text after it unless the tree ends in a problem. -/
abbrev Scanned (α : Type) := α × Option (List Char)

/-- No value at all. -/
def broken (p : Problem) : Scanned Written := (.fault p, none)

/-- A word whose first letter is already taken off. -/
def scanWord (value : Written) (word text : List Char) : Scanned Written :=
  match expectWord word text with
  | .ok rest => (value, some rest)
  | .error p => broken p

/-- The number at the front of a text. -/
def scanNumber (text : List Char) : Scanned Written :=
  let skipped := Numeral.scan .malformed text
  let value : Except Problem Number := match Numeral.scan .truncated text with
    | .error p => .error p
    | .ok (n, _) => match n.value with
      | some v => .ok v
      | none => .error .malformed
  (.number ⟨value, skipped.map fun _ => ()⟩, skipped.toOption.map (·.2))

/-- The string whose opening quote is just before the text. -/
def scanString (text : List Char) : Scanned (Lexeme String) :=
  let q := Quoted.scan text
  (⟨q.value, q.rest.map fun _ => ()⟩, q.rest.toOption)

mutual

/-- The value at the front of a text. -/
def scanValue : (fuel : Nat) → List Char → Scanned Written
  | 0, _ => broken .truncated
  | fuel + 1, text =>
    match skipBlanks text with
    | [] => broken .truncated
    | c :: cs =>
      if c = '"' then
        let (s, rest) := scanString cs
        (.string s, rest)
      else if c = '[' then
        match skipBlanks cs with
        | [] => (.array [] (some .truncated), none)
        | d :: ds =>
          if d = ']' then (.array [] none, some ds)
          else
            let (items, stop, rest) := scanItems fuel (d :: ds)
            (.array items stop, rest)
      else if c = '\x7b' then
        match skipBlanks cs with
        | [] => (.object [] (some .truncated), none)
        | d :: ds =>
          if d = '\x7d' then (.object [] none, some ds)
          else
            let (members, stop, rest) := scanMembers fuel (d :: ds)
            (.object members stop, rest)
      else if c = 'n' then scanWord .null ['u', 'l', 'l'] cs
      else if c = 't' then scanWord (.bool true) ['r', 'u', 'e'] cs
      else if c = 'f' then scanWord (.bool false) ['a', 'l', 's', 'e'] cs
      else if c = '-' ∨ c.isDigit then scanNumber (c :: cs)
      else broken .malformed

/-- The items of an array up to its end, the first of which stands at the front
of the text. -/
def scanItems : (fuel : Nat) → List Char → List Written × Option Problem × Option (List Char)
  | 0, _ => ([], some .truncated, none)
  | fuel + 1, text =>
    match scanValue fuel text with
    | (item, none) => ([item], none, none)
    | (item, some rest) =>
      match skipBlanks rest with
      | [] => ([item], some .truncated, none)
      | c :: cs =>
        if c = ']' then ([item], none, some cs)
        else if c = ',' then
          let (items, stop, rest) := scanItems fuel cs
          (item :: items, stop, rest)
        else ([item], some .malformed, none)

/-- The members of an object up to its end, the first of which stands at the
front of the text. -/
def scanMembers : (fuel : Nat) → List Char →
    List (Lexeme String × Written) × Option Problem × Option (List Char)
  | 0, _ => ([], some .truncated, none)
  | fuel + 1, text =>
    match skipBlanks text with
    | [] => ([], some .truncated, none)
    | q :: cs =>
      if q = '"' then
        match scanString cs with
        | (name, none) => ([(name, .fault .truncated)], none, none)
        | (name, some rest) =>
          match scanColonValue fuel rest with
          | (value, none) => ([(name, value)], none, none)
          | (value, some rest) =>
            match skipBlanks rest with
            | [] => ([(name, value)], some .truncated, none)
            | c :: cs =>
              if c = '\x7d' then ([(name, value)], none, some cs)
              else if c = ',' then
                let (members, stop, rest) := scanMembers fuel cs
                ((name, value) :: members, stop, rest)
              else ([(name, value)], some .malformed, none)
      else ([], some .malformed, none)

/-- A colon and the value after it. -/
def scanColonValue : (fuel : Nat) → List Char → Scanned Written
  | 0, _ => broken .truncated
  | fuel + 1, text =>
    match skipBlanks text with
    | [] => broken .truncated
    | c :: cs => if c = ':' then scanValue fuel cs else broken .malformed

end

/-- The document of a text, and the text after it unless the document ends in a
problem.  A scan leaves less than it was given, so a number of steps in proportion
to the length is enough: with more of them the result is the same (`ofText_eq`). -/
def ofText (text : String) : Scanned Written :=
  let chars := text.toList
  scanValue (4 * chars.length + 4) chars

end Written
end Json
end SqlFilter
