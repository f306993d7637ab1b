/-
# Configuration files

The part of a configuration that needs no code: a list of fields and a list of
prefixes for the whitelist, and aliases.  A field is admitted if it is in the
list or starts with one of the prefixes.

| entry | when it is missing |
| --- | --- |
| `whitelist` | there is no list, which is not the same as an empty one |
| `whitelist_prefixes` | no prefixes, which is the same as an empty list |
| `aliases` | no aliases |

No other entry is allowed.  A file is written as JSON (`parse`) or as TOML
(`parseToml?`).
-/

import SqlFilter.Config
import SqlFilter.Toml.Reader
import SqlFilter.Wire.Value

namespace SqlFilter

open Json (Problem Written)

/-- A configuration file. -/
structure Settings where
  whitelist : Option (List String) := none
  prefixes : List String := []
  aliases : Registry Operand := {}
  deriving Inhabited

namespace Settings

/-- Whether a field starts with one of the prefixes. -/
def startsWithAny (prefixes : List String) (field : String) : Bool :=
  prefixes.any fun p => p.toList.isPrefixOf field.toList

/-- The whitelist that a file describes. -/
def toWhitelist (file : Settings) : Whitelist :=
  let listed : Whitelist := match file.whitelist with
    | some fields => Whitelist.addNames {} fields
    | none => {}
  if file.prefixes.isEmpty then listed else listed.setTest (startsWithAny file.prefixes)

/-- The configuration that a file describes. -/
def toConfig (file : Settings) : Config where
  whitelist := file.toWhitelist
  aliases := file.aliases

/-- The entries of a file. -/
inductive Key where
  | whitelist
  | prefixes
  | aliases
  deriving DecidableEq

/-- The entry of a name. -/
def Key.ofName? : String → Option Key
  | "whitelist" => some .whitelist
  | "whitelist_prefixes" => some .prefixes
  | "aliases" => some .aliases
  | _ => none

/-- A configuration file as a record. -/
def shape : Written.Shape Key where
  order := [.whitelist, .prefixes, .aliases]
  ofName? := Key.ofName?
  skipsOthers := false

/-- Entries under names, of which the last of a name counts. -/
def registry (entries : List (String × Json)) : Registry Operand :=
  entries.foldl (fun r e => r.insert e.1 (Operand.ofJson e.2)) {}

/-- Reads an entry of a file. -/
def readEntry (depth : Nat) (key : Key) (w : Written) (file : Settings) :
    Except Problem Settings :=
  let readNames := Written.readList (fun _ => Written.readString) depth
  match key with
  | .whitelist => do return { file with whitelist := ← w.readOptional readNames }
  | .prefixes => do return { file with prefixes := ← readNames w }
  | .aliases => do
    return { file with aliases := registry (← w.readEntries Written.readJson depth) }

/-- Reads a file; `depth` more arrays and objects may be opened. -/
def readFile : (depth : Nat) → Written → Except Problem Settings
  | 0, w => .error (w.tooDeep Written.isRecord)
  | depth + 1, w => w.readRecord shape {} (readEntry depth)

/-- Reads a configuration file that is written as JSON. -/
def parse (text : String) : Except Problem Settings :=
  Json.read (readFile Json.maxDepth) text

/-- The strings of an array of strings. -/
def names? : Toml → Option (List String)
  | .array items => items.mapM fun
    | .str s => some s
    | _ => none
  | _ => none

/-- Reads an entry of a file that is written as TOML. -/
def addToml (file : Settings) : String × Toml → Option Settings
  | (name, value) =>
    match Key.ofName? name with
    | none => none
    | some .whitelist => do return { file with whitelist := some (← names? value) }
    | some .prefixes => do return { file with prefixes := ← names? value }
    | some .aliases => do
      return { file with aliases := registry (Toml.toJsonEntries (← value.entries?)) }

/-- Reads a configuration file that is written as TOML. -/
def parseToml? (text : String) : Option Settings := do
  (← Toml.parse? text).foldlM addToml {}

end Settings
end SqlFilter
