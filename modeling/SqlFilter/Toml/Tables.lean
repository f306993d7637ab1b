/-
# Building the tables of a TOML document

A document defines its tables in three ways: by a header, by a header of a table
inside them, and by a dotted key.  Each table is defined once, and the way it
was defined decides what may still be added:

| table | a header may open it | a header may go through it | a dotted key may add to it |
| --- | --- | --- | --- |
| `implied` by a longer header | once, and it is `explicit` then | yes | no, but may go through it |
| `dotted` by a key | no | yes | yes |
| `explicit` by its own header | no | yes | no |

A header of a table of an array adds a table to the array, and every longer path
leads into the last table of the array.  A value, also one that is an array or a
table, is never added to.
-/

import SqlFilter.Toml.Basic

namespace SqlFilter
namespace Toml

/-- How a table was defined. -/
inductive Origin where
  | implied
  | dotted
  | explicit
  deriving DecidableEq

/-- What stands under a key while a document is read. -/
inductive Item where
  | value (v : Toml)
  | table (origin : Origin) (entries : List (String × Item))
  /-- The tables of an array, the last one first. -/
  | tables (items : List (List (String × Item)))

/-- A table while a document is read. -/
abbrev Table := List (String × Item)

namespace Table

/-- Sets what stands under a key. -/
def set (key : String) (item : Item) : Table → Table
  | [] => [(key, item)]
  | (k, i) :: rest => if k = key then (k, item) :: rest else (k, i) :: set key item rest

/-- Changes the table that a header's path leads to. -/
def descend (change : Table → Option Table) : (path : List String) → Table → Option Table
  | [], t => change t
  | key :: path, t =>
    let within := descend change path
    match t.lookup key with
    | none => do return t.set key (.table .implied (← within []))
    | some (.table origin entries) => do return t.set key (.table origin (← within entries))
    | some (.tables (last :: others)) => do
      return t.set key (.tables ((← within last) :: others))
    | some (.tables []) => none
    | some (.value _) => none

/-- Opens the table `key` by its header. -/
def openTable (key : String) (t : Table) : Option Table :=
  match t.lookup key with
  | none => some (t.set key (.table .explicit []))
  | some (.table .implied entries) => some (t.set key (.table .explicit entries))
  | some _ => none

/-- Adds a table to the array `key` by its header. -/
def openArray (key : String) (t : Table) : Option Table :=
  match t.lookup key with
  | none => some (t.set key (.tables [[]]))
  | some (.tables items) => some (t.set key (.tables ([] :: items)))
  | some _ => none

/-- Sets a value under a dotted key. -/
def assign (value : Toml) : (path : List String) → (key : String) → Table → Option Table
  | [], key, t =>
    match t.lookup key with
    | none => some (t.set key (.value value))
    | some _ => none
  | first :: path, key, t =>
    let within := assign value path key
    match t.lookup first with
    | none => do return t.set first (.table .dotted (← within []))
    | some (.table .dotted entries) => do return t.set first (.table .dotted (← within entries))
    | some (.table .implied entries) =>
      if path.isEmpty then none
      else do return t.set first (.table .implied (← within entries))
    | some (.tables (last :: others)) =>
      if path.isEmpty then none
      else do return t.set first (.tables ((← within last) :: others))
    | some _ => none

mutual

/-- The finished value under a key. -/
def finishItem : Item → Toml
  | .value v => v
  | .table _ entries => .table (finish entries)
  | .tables items => .array (finishTables items).reverse

/-- The finished entries of a table. -/
def finish : List (String × Item) → List (String × Toml)
  | [] => []
  | (k, i) :: rest => (k, finishItem i) :: finish rest

/-- The finished tables of an array. -/
def finishTables : List (List (String × Item)) → List Toml
  | [] => []
  | t :: ts => .table (finish t) :: finishTables ts

end

end Table
end Toml
end SqlFilter
