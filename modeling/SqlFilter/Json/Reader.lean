/-
# Reading documents into a shape

A reader takes the tree of a text (`Written`) and either finds the shape it
wants or reports the first problem in the order of the text.  The readers of
this module are the parts from which readers of whole documents are made: plain
documents, strings, lists, and records.

A record is written as an object or as an array of its fields in a fixed order
(`Shape`); an array may be too short, and then the last fields are absent.  An
object that names a field twice is a mismatch, even if the value is `null` both
times, and a name that is no field is skipped or refused as the shape says.

At most `maxDepth` arrays and objects may be open at a time where anybody looks;
skipped values may be nested as deeply as they like.
-/

import SqlFilter.Json.Written

namespace SqlFilter
namespace Json

/-- How many arrays and objects may be open at a time. -/
def maxDepth : Nat := 127

namespace Written

variable {α κ : Type}

/-- The result of an array or object, if nothing is wrong at its end. -/
def ended (stop : Option Problem) (result : α) : Except Problem α :=
  match stop with
  | none => .ok result
  | some p => .error p

/-- The problem of a value that is not of the shape wanted.  What is wrong with
a number or a string by itself comes before that. -/
def refusal : Written → Problem
  | number n => match n.value with
    | .error p => p
    | .ok _ => .mismatch
  | string s => match s.value with
    | .error p => p
    | .ok _ => .mismatch
  | fault p => p
  | null => .mismatch
  | bool _ => .mismatch
  | array _ _ => .mismatch
  | object _ _ => .mismatch

mutual

/-- Passes over a value. -/
def skip : Written → Except Problem Unit
  | null => .ok ()
  | bool _ => .ok ()
  | number n => n.skipped
  | string s => s.skipped
  | array items stop => do
    skipItems items
    ended stop ()
  | object members stop => do
    skipMembers members
    ended stop ()
  | fault p => .error p

/-- Passes over the items of an array. -/
def skipItems : List Written → Except Problem Unit
  | [] => .ok ()
  | w :: ws => do
    skip w
    skipItems ws

/-- Passes over the members of an object. -/
def skipMembers : List (Lexeme String × Written) → Except Problem Unit
  | [] => .ok ()
  | (name, w) :: ms => do
    name.skipped
    skip w
    skipMembers ms

end

/-- The members of an object, each value read by `read`. -/
def readMembers (read : Written → Except Problem α) (members : List (Lexeme String × Written))
    (stop : Option Problem) : Except Problem (List (String × α)) := do
  let read ← members.mapM fun (name, w) => do
    let name ← name.value
    return (name, ← read w)
  ended stop read

/-- A plain document; `depth` more arrays and objects may be opened. -/
def readJson : (depth : Nat) → Written → Except Problem Json
  | depth, w =>
    match w with
    | null => .ok .null
    | bool b => .ok (.bool b)
    | number n => n.value.map .num
    | string s => s.value.map .str
    | array items stop =>
      match depth with
      | 0 => .error .malformed
      | depth + 1 => do
        let items ← items.mapM (readJson depth)
        ended stop (.arr items)
    | object members stop =>
      match depth with
      | 0 => .error .malformed
      | depth + 1 => do return ofMembers (← readMembers (readJson depth) members stop)
    | fault p => .error p

/-- What may be `null`, and is absent then. -/
def readOptional (read : Written → Except Problem α) : Written → Except Problem (Option α)
  | null => .ok none
  | w => (read w).map some

/-- A string. -/
def readString : Written → Except Problem String
  | string s => s.value
  | w => .error w.refusal

/-- Whether a value is written as an array. -/
def isArray : Written → Bool
  | array _ _ => true
  | _ => false

/-- Whether a value is written as an object. -/
def isObject : Written → Bool
  | object _ _ => true
  | _ => false

/-- The problem of a value where no more arrays and objects may be opened;
`opens` tells whether the value would be opened. -/
def tooDeep (opens : Written → Bool) (w : Written) : Problem :=
  if opens w then .malformed else w.refusal

/-- A list whose items are read by `read`. -/
def readItems (read : Written → Except Problem α) : Written → Except Problem (List α)
  | array items stop => do
    let items ← items.mapM read
    ended stop items
  | w => .error w.refusal

/-- A list; `read` reads an item inside the list's own level. -/
def readList (read : Nat → Written → Except Problem α) :
    (depth : Nat) → Written → Except Problem (List α)
  | 0, w => .error (w.tooDeep isArray)
  | depth + 1, w => w.readItems (read depth)

/-- Entries under names; of several with one name all are given.  `read` reads
an entry inside the level of the entries. -/
def readEntries (read : Nat → Written → Except Problem α) :
    (depth : Nat) → Written → Except Problem (List (String × α))
  | depth + 1, object members stop => readMembers (read depth) members stop
  | _, w => .error (w.tooDeep isObject)

/-- The fields of a record. -/
structure Shape (κ : Type) where
  /-- The fields in the order in which an array gives them. -/
  order : List κ
  /-- The field of a name. -/
  ofName? : String → Option κ
  /-- Whether other names are skipped. -/
  skipsOthers : Bool

/-- The fields that a text gives, in the order of the text, and the problem with
the record itself that comes after them. -/
structure Fields (κ : Type) where
  given : List (κ × Written)
  stop : Option Problem

/-- A field in front of others. -/
def Fields.cons (key : κ) (w : Written) (fields : Fields κ) : Fields κ :=
  { fields with given := (key, w) :: fields.given }

/-- The fields of a record that is written as an array. -/
def itemFields : List κ → List Written → Option Problem → Fields κ
  | _, [], stop => ⟨[], stop⟩
  | [], _ :: _, _ => ⟨[], some .malformed⟩
  | key :: keys, w :: ws, stop => (itemFields keys ws stop).cons key w

/-- The fields of a record that is written as an object, where `seen` have been
given before. -/
def memberFields [DecidableEq κ] (shape : Shape κ) (seen : List κ) :
    List (Lexeme String × Written) → Option Problem → Fields κ
  | [], stop => ⟨[], stop⟩
  | (name, w) :: ms, stop =>
    match name.value with
    | .error p => ⟨[], some p⟩
    | .ok name =>
      match shape.ofName? name with
      | some key =>
        if key ∈ seen then ⟨[], some .mismatch⟩
        else (memberFields shape (key :: seen) ms stop).cons key w
      | none =>
        if shape.skipsOthers then
          match w.skip with
          | .error p => ⟨[], some p⟩
          | .ok () => memberFields shape seen ms stop
        else ⟨[], some .mismatch⟩

/-- The fields of a record. -/
def recordFields [DecidableEq κ] (shape : Shape κ) : Written → Except Problem (Fields κ)
  | array items stop => .ok (itemFields shape.order items stop)
  | object members stop => .ok (memberFields shape [] members stop)
  | w => .error w.refusal

/-- Whether a value is written as a record. -/
def isRecord (w : Written) : Bool :=
  w.isArray || w.isObject

/-- A record: `read` puts one field after the other into what is read so far. -/
def readRecord [DecidableEq κ] (shape : Shape κ) (start : α)
    (read : κ → Written → α → Except Problem α) (w : Written) : Except Problem α := do
  let fields ← w.recordFields shape
  let record ← fields.given.foldlM (fun record (key, w) => read key w record) start
  ended fields.stop record

end Written

/-- Reads a whole text: a document of the shape wanted, and nothing but blanks
after it. -/
def read {α : Type} (reader : Written → Except Problem α) (text : String) :
    Except Problem α := do
  let (w, rest) := Written.ofText text
  let result ← reader w
  if (rest.getD []).all isBlank then .ok result else .error .malformed

/-- Reads a plain document. -/
def parse (text : String) : Except Problem Json :=
  read (Written.readJson maxDepth) text

end Json
end SqlFilter
