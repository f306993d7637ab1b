/-
# Command line arguments

| option | value | meaning |
| --- | --- | --- |
| `-d`, `--dialect` | `postgres` or `mysql` | the database, `postgres` if not given |
| `-c`, `--config` | a path | the configuration file |
| `-f`, `--format` | `text` or `json` | the output, `text` if not given |
| `-v`, `--verbose` | | report more |
| `-V`, `--version` | | show the version and stop |
| `-h`, `--help` | | show the usage and stop |

One more argument is the path of the filter.  Short options may stand together
behind one dash, of which the last may have its value right behind it, with or
without `=`; a long option may have its value behind `=`.  A value that is an
argument of its own does not look like an option, but `-` alone is a value.
After `--` every argument is a path.  Each option is given once at most, and no
path is empty.

Arguments are taken from left to right, and the first that stops or is wrong
decides (`parse`).
-/

namespace SqlFilter
namespace CommandLine

/-- The database to write for. -/
inductive Target where
  | postgres
  | mysql
  deriving DecidableEq, Inhabited

/-- The layout of the output. -/
inductive Format where
  | text
  | json
  deriving DecidableEq, Inhabited

/-- What a command line asks for. -/
structure Invocation where
  input : Option String := none
  target : Option Target := none
  config : Option String := none
  format : Option Format := none
  verbose : Bool := false
  deriving DecidableEq, Inhabited

/-- Why a command line asks for no run. -/
inductive Stop where
  | version
  | help
  | usage
  deriving DecidableEq, Inhabited

/-- An option that has a value. -/
inductive Parameter where
  | dialect
  | config
  | format
  deriving DecidableEq

/-- An option. -/
inductive Flag where
  | parameter (p : Parameter)
  | verbose
  | version
  | help
  deriving DecidableEq

/-- The option of a letter. -/
def Flag.ofLetter? : Char → Option Flag
  | 'd' => some (.parameter .dialect)
  | 'c' => some (.parameter .config)
  | 'f' => some (.parameter .format)
  | 'v' => some .verbose
  | 'V' => some .version
  | 'h' => some .help
  | _ => none

/-- The option of a long name. -/
def Flag.ofName? : String → Option Flag
  | "dialect" => some (.parameter .dialect)
  | "config" => some (.parameter .config)
  | "format" => some (.parameter .format)
  | "verbose" => some .verbose
  | "version" => some .version
  | "help" => some .help
  | _ => none

/-- The database of a name. -/
def Target.ofName? : String → Option Target
  | "postgres" => some .postgres
  | "mysql" => some .mysql
  | _ => none

/-- The layout of a name. -/
def Format.ofName? : String → Option Format
  | "text" => some .text
  | "json" => some .json
  | _ => none

namespace Invocation

/-- Gives an option its value, once. -/
def assign (i : Invocation) (value : String) : Parameter → Except Stop Invocation
  | .dialect =>
    match i.target, Target.ofName? value with
    | none, some target => .ok { i with target := some target }
    | _, _ => .error .usage
  | .config =>
    if i.config.isSome ∨ value.isEmpty then .error .usage
    else .ok { i with config := some value }
  | .format =>
    match i.format, Format.ofName? value with
    | none, some format => .ok { i with format := some format }
    | _, _ => .error .usage

/-- Takes an option that has no value. -/
def raise (i : Invocation) : Flag → Except Stop Invocation
  | .verbose => if i.verbose then .error .usage else .ok { i with verbose := true }
  | .version => .error .version
  | .help => .error .help
  | .parameter _ => .error .usage

/-- Takes the path of the filter. -/
def setInput (i : Invocation) (path : String) : Except Stop Invocation :=
  if i.input.isSome ∨ path.isEmpty then .error .usage else .ok { i with input := some path }

end Invocation

/-- What is left to do after an argument. -/
inductive Pending where
  | nothing
  /-- The next argument is the value of an option. -/
  | value (p : Parameter)
  deriving DecidableEq

/-- Takes the letters behind one dash. -/
def takeLetters (i : Invocation) : List Char → Except Stop (Invocation × Pending)
  | [] => .ok (i, .nothing)
  | c :: cs =>
    match Flag.ofLetter? c with
    | none => .error .usage
    | some (.parameter p) =>
      match cs with
      | [] => .ok (i, .value p)
      | '=' :: value => do return (← i.assign (String.ofList value) p, .nothing)
      | value => do return (← i.assign (String.ofList value) p, .nothing)
    | some flag => do takeLetters (← i.raise flag) cs

/-- Takes what is behind two dashes. -/
def takeLong (i : Invocation) (text : List Char) : Except Stop (Invocation × Pending) :=
  let name := String.ofList (text.takeWhile (· != '='))
  match Flag.ofName? name, text.dropWhile (· != '=') with
  | none, _ => .error .usage
  | some (.parameter p), [] => .ok (i, .value p)
  | some (.parameter p), _ :: value => do return (← i.assign (String.ofList value) p, .nothing)
  | some flag, [] => do return (← i.raise flag, .nothing)
  | some _, _ :: _ => .error .usage

/-- Takes the arguments after `--`. -/
def takePaths (i : Invocation) : List String → Except Stop Invocation
  | [] => .ok i
  | path :: paths => do takePaths (← i.setInput path) paths

/-- Takes arguments from left to right. -/
def take (i : Invocation) : Pending → List String → Except Stop Invocation
  | .nothing, [] => .ok i
  | .value _, [] => .error .usage
  | pending, argument :: arguments =>
    match argument.toList, pending with
    | '-' :: '-' :: [], .nothing => takePaths i arguments
    | '-' :: '-' :: text, .nothing => do
      let (i, pending) ← takeLong i text
      take i pending arguments
    | '-' :: c :: text, .nothing => do
      let (i, pending) ← takeLetters i (c :: text)
      take i pending arguments
    | '-' :: _ :: _, .value _ => .error .usage
    | _, .nothing => do take (← i.setInput argument) .nothing arguments
    | _, .value p => do take (← i.assign argument p) .nothing arguments

/-- What a command line asks for, or why it asks for no run. -/
def parse (arguments : List String) : Except Stop Invocation :=
  take {} .nothing arguments

end CommandLine
end SqlFilter
