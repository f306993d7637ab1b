/-
# The command

Reads what the arguments name, prints the report, and sets the exit code: 0 for
a report, 1 for a failure, and 2 for a command line that is wrong.
-/

import SqlFilter.CommandLine.Report

namespace SqlFilter
namespace CommandLine

/-- The text that an action reads, if it can be read. -/
def attempt (action : IO String) : IO (Option String) := do
  try
    return some (← action)
  catch _ =>
    return none

/-- The text of the filter. -/
def readFilter (i : Invocation) : IO (Option String) :=
  match i.filterPath with
  | some path => attempt (IO.FS.readFile path)
  | none => attempt do (← IO.getStdin).readToEnd

/-- The text of the configuration file. -/
def readConfigFile (i : Invocation) : IO (Option String) :=
  match i.config with
  | some path => attempt (IO.FS.readFile path)
  | none => return none

/-- Does what a command line asks for. -/
def execute (i : Invocation) : IO UInt32 := do
  match report i ⟨← readFilter i, ← readConfigFile i⟩ with
  | .ok text =>
    IO.println text
    return 0
  | .error failure =>
    IO.eprintln failure.message
    return 1

/-- Runs the command. -/
def run (arguments : List String) : IO UInt32 := do
  match parse arguments with
  | .ok i => execute i
  | .error .version =>
    IO.println versionLine
    return 0
  | .error .help =>
    IO.println usageLine
    return 0
  | .error .usage =>
    IO.eprintln usageLine
    return 2

end CommandLine
end SqlFilter

/-- The program. -/
def main (arguments : List String) : IO UInt32 :=
  SqlFilter.CommandLine.run arguments
