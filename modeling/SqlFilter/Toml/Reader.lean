/-
# Reading TOML

A document is a sequence of lines.  A line is blank, a header in brackets, a
header of an array's table in double brackets, or a key and a value; every line
may end in a comment.  A key has from one to `maxParts` parts with dots between
them, all on one line.  Arrays and inline tables may be laid out over several
lines, with comments, and with a comma after the last item, and may be nested
`maxDepth` deep.
-/

import SqlFilter.Toml.Quoted
import SqlFilter.Toml.Scalar
import SqlFilter.Toml.Tables

namespace SqlFilter
namespace Toml

/-- How deep arrays and inline tables may be nested. -/
def maxDepth : Nat := 80

/-- How many parts a key may have. -/
def maxParts : Nat := 80

namespace Reader

/-- A text without the blanks in front of it. -/
def skipBlanks (text : List Char) : List Char :=
  text.dropWhile Quoted.isBlank

/-- The text after a comment, if there is one. -/
def skipComment : List Char → List Char
  | '#' :: cs => cs.dropWhile Quoted.isPlain
  | cs => cs

/-- The text after the end of a line. -/
def endLine (text : List Char) : Option (List Char) :=
  match skipComment (skipBlanks text) with
  | [] => some []
  | rest => Quoted.newline? rest

/-- The text after blanks, comments and line breaks; none if something in a
comment is not allowed there. -/
def skipLines : (fuel : Nat) → List Char → Option (List Char)
  | 0, _ => none
  | fuel + 1, text =>
    match skipBlanks text with
    | [] => some []
    | c :: cs =>
      if c = '#' ∨ c = '\n' ∨ c = '\r' then
        match endLine (c :: cs) with
        | some rest => skipLines fuel rest
        | none => none
      else some (c :: cs)

/-- The characters of a key without quotes. -/
def isBare (c : Char) : Bool :=
  c.isAlphanum || c == '_' || c == '-'

/-- One part of a key. -/
def keyPart : List Char → Option (String × List Char)
  | [] => none
  | c :: cs =>
    if c = '"' ∨ c = '\'' then do
      let (part, rest) ← Quoted.single c cs
      some (String.ofList part, rest)
    else if isBare c then
      some (String.ofList (c :: cs.takeWhile isBare), cs.dropWhile isBare)
    else none

/-- The parts of a key that follow its first part, and the text after the key
and the blanks behind it. -/
def keyRest : (fuel : Nat) → List Char → Option (List String × List Char)
  | 0, _ => none
  | fuel + 1, text =>
    match skipBlanks text with
    | '.' :: cs => do
      let (part, rest) ← keyPart (skipBlanks cs)
      let (parts, rest) ← keyRest fuel rest
      some (part :: parts, rest)
    | rest => some ([], rest)

/-- A key: the path of its table and its last part. -/
structure Key where
  path : List String
  last : String

/-- A key from its first part and the others. -/
def Key.ofParts (first : String) : List String → Key
  | [] => ⟨[], first⟩
  | second :: rest => let key := ofParts second rest; ⟨first :: key.path, key.last⟩

/-- A key, and the text after it and the blanks behind it. -/
def key (text : List Char) : Option (Key × List Char) := do
  let (first, rest) ← keyPart (skipBlanks text)
  let (parts, rest) ← keyRest (rest.length + 1) rest
  if parts.length < maxParts then some (Key.ofParts first parts, rest) else none

/-- The text after an expected character. -/
def expect (c : Char) : List Char → Option (List Char)
  | d :: rest => if d = c then some rest else none
  | [] => none

mutual

/-- A value; `depth` more arrays and inline tables may be opened. -/
def value : (fuel depth : Nat) → List Char → Option (Toml × List Char)
  | 0, _, _ => none
  | fuel + 1, depth, text =>
    match text with
    | [] => none
    | c :: cs =>
      if c = '"' ∨ c = '\'' then do
        let (s, rest) ← Quoted.scan c cs
        some (.str (String.ofList s), rest)
      else if c = '[' then
        match depth with
        | 0 => none
        | depth + 1 => do
          let (items, rest) ← items fuel depth cs
          some (.array items, rest)
      else if c = '\x7b' then
        match depth with
        | 0 => none
        | depth + 1 => do
          let (t, rest) ← entries fuel depth [] cs
          some (.table (Table.finish t), rest)
      else Scalar.scan text

/-- The items of an array up to its closing bracket. -/
def items : (fuel depth : Nat) → List Char → Option (List Toml × List Char)
  | 0, _, _ => none
  | fuel + 1, depth, text => do
    match ← skipLines (text.length + 1) text with
    | ']' :: rest => some ([], rest)
    | start =>
      let (item, rest) ← value fuel depth start
      match ← skipLines (rest.length + 1) rest with
      | ']' :: rest => some ([item], rest)
      | ',' :: rest =>
        let (others, rest) ← items fuel depth rest
        some (item :: others, rest)
      | _ => none

/-- The entries of an inline table up to its closing brace, added to `t`. -/
def entries : (fuel depth : Nat) → (t : Table) → List Char → Option (Table × List Char)
  | 0, _, _, _ => none
  | fuel + 1, depth, t, text => do
    match ← skipLines (text.length + 1) text with
    | '\x7d' :: rest => some (t, rest)
    | start =>
      let (k, rest) ← key start
      let rest ← expect '=' (← skipLines (rest.length + 1) rest)
      let (v, rest) ← value fuel depth (← skipLines (rest.length + 1) rest)
      let t ← t.assign v k.path k.last
      match ← skipLines (rest.length + 1) rest with
      | '\x7d' :: rest => some (t, rest)
      | ',' :: rest => entries fuel depth t rest
      | _ => none

end

/-- A line that is not blank. -/
inductive Line where
  | header (key : Key)
  | arrayHeader (key : Key)
  | entry (key : Key) (value : Toml)

/-- The line at the front of a text, and the text after its end. -/
def line (text : List Char) : Option (Line × List Char) := do
  let (found, rest) ← (match text with
    | '[' :: '[' :: cs => do
      let (k, rest) ← key cs
      let rest ← expect ']' (← expect ']' rest)
      some (Line.arrayHeader k, rest)
    | '[' :: cs => do
      let (k, rest) ← key cs
      let rest ← expect ']' rest
      some (Line.header k, rest)
    | _ => do
      let (k, rest) ← key text
      let rest ← expect '=' rest
      let (v, rest) ← value (2 * rest.length + 2) maxDepth (skipBlanks rest)
      some (Line.entry k v, rest))
  some (found, ← endLine rest)

/-- A document that is read in part: its tables, and the path of the table that
entries go to. -/
structure Progress where
  root : Table := []
  current : List String := []

/-- Adds a line to a document. -/
def Progress.add (p : Progress) : Line → Option Progress
  | .header k => do
    return ⟨← p.root.descend (Table.openTable k.last) k.path, k.path ++ [k.last]⟩
  | .arrayHeader k => do
    return ⟨← p.root.descend (Table.openArray k.last) k.path, k.path ++ [k.last]⟩
  | .entry k v => do
    return { p with root := ← p.root.descend (Table.assign v k.path k.last) p.current }

/-- Adds the lines of a text to a document. -/
def lines : (fuel : Nat) → Progress → List Char → Option Progress
  | 0, _, _ => none
  | fuel + 1, p, text => do
    match ← skipLines (text.length + 1) text with
    | [] => some p
    | start =>
      let (found, rest) ← line start
      lines fuel (← p.add found) rest

end Reader

/-- The entries of the document that a text is, if it is one.  A byte order mark
may stand in front of it. -/
def parse? (text : String) : Option (List (String × Toml)) := do
  let chars := match text.toList with
    | '\ufeff' :: cs => cs
    | cs => cs
  let document ← Reader.lines (chars.length + 1) {} chars
  return Table.finish document.root

end Toml
end SqlFilter
