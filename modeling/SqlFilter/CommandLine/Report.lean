/-
# What a run of the command prints

A run reads a filter and perhaps a configuration file, compiles the filter, and
prints the result.  `report` is the run without the reading: from the texts that
were read to the text to print or the cause of failure.  The texts are looked at
in a fixed order, so of several things that are wrong the first one is reported:
the filter cannot be read, the configuration cannot be read or is invalid, the
filter is no filter, the filter does not compile.

As plain text the output is the SQL text, a line break, and one line with the
values as compact JSON.
-/

import SqlFilter.CommandLine.Arguments
import SqlFilter.Filter.Compile
import SqlFilter.Config.Settings
import SqlFilter.Dialect.MySql
import SqlFilter.Dialect.Postgres
import SqlFilter.Wire.Compiled
import SqlFilter.Wire.Filter

namespace SqlFilter
namespace CommandLine

/-- The line that shows the version. -/
def versionLine : String := "querysql-cli 0.1.0"

/-- The line that shows the usage. -/
def usageLine : String :=
  "usage: [-d postgres|mysql] [-c FILE] [-f text|json] [-v] [-V] [-h] [INPUT]"

/-- Why a run fails. -/
inductive Failure where
  | filterUnreadable (source : String)
  | configUnreadable (path : String)
  | configInvalid (path : String)
  | filterInvalid
  | notCompiled (error : CompileError)
  deriving DecidableEq

/-- A text with its later lines indented like its first. -/
def indent (text : String) : String :=
  "    " ++ String.ofList (text.toList.flatMap fun c =>
    if c = '\n' then ['\n', ' ', ' ', ' ', ' '] else [c])

/-- The part of a text before its first line break. -/
def firstLine (text : String) : String :=
  String.ofList (text.toList.takeWhile (· != '\n'))

/-- The text printed for a failure.  Only a filter that does not compile takes
more than one line, so the name of a file ends with its first line. -/
def Failure.message : Failure → String
  | filterUnreadable source => "Error: failed to read filter from " ++ firstLine source
  | configUnreadable path => "Error: failed to read config " ++ firstLine path
  | configInvalid path => "Error: invalid config " ++ firstLine path
  | filterInvalid => "Error: failed to decode filter tree"
  | notCompiled error =>
    "Error: failed to compile filter tree\n\nCaused by:\n" ++ indent error.message

/-- The texts that were read; a text that could not be read is missing. -/
structure Sources where
  filter : Option String := none
  config : Option String := none

/-- Whether a path names the standard input: it is `-`, and steps behind it that
stay where they are change nothing. -/
def isStandardInput (path : String) : Bool :=
  match path.splitOn "/" with
  | "-" :: steps => steps.all fun step => step.isEmpty || step == "."
  | _ => false

/-- The file that the filter is read from, or none for the standard input. -/
def Invocation.filterPath (i : Invocation) : Option String :=
  i.input.filter (!isStandardInput ·)

/-- A filter compiled for a database. -/
def Target.compile (target : Target) (config : Config) (node : Node) :
    Except CompileError Compiled :=
  match target with
  | .postgres => (SqlFilter.compile SqlFilter.postgres config node 0).1
  | .mysql => (SqlFilter.compile SqlFilter.mysql config node ()).1

/-- The introduction of the line of values. -/
def valuesMark : String := "-- values: "

/-- A compiled filter as plain text. -/
def plainText (c : Compiled) : String :=
  c.sql ++ "\n" ++ valuesMark ++ (Json.arr (Value.toJsonItems c.values)).compactText

/-- A compiled filter in a layout. -/
def Format.print (format : Format) (c : Compiled) : String :=
  match format with
  | .text => plainText c
  | .json => c.toJson.prettyText

/-- The configuration of a run. -/
def readConfig (i : Invocation) (text : Option String) : Except Failure Config :=
  match i.config with
  | none => .ok {}
  | some path =>
    match text with
    | none => .error (.configUnreadable path)
    | some text =>
      match Settings.parseToml? text with
      | none => .error (.configInvalid path)
      | some file => .ok file.toConfig

/-- What a run prints, without the last line break, or why it fails. -/
def report (i : Invocation) (sources : Sources) : Except Failure String := do
  let text ← match sources.filter with
    | some text => Except.ok text
    | none => Except.error (Failure.filterUnreadable (i.filterPath.getD "stdin"))
  let config ← readConfig i sources.config
  let node ← (Node.parse text).mapError fun _ => Failure.filterInvalid
  let compiled ← ((i.target.getD .postgres).compile config node).mapError Failure.notCompiled
  return (i.format.getD .text).print compiled

end CommandLine
end SqlFilter
