/-
  EntityFormulas/Main.lean
  ========================
  **The program.**

  It reads the files that the command line names, looks at the clock, runs the
  command and writes the answer.  A command line that cannot be understood is
  answered with the forms that can, and with code 2.
-/
import Std.Time.DateTime
import EntityFormulas.CommandLine.Run
import EntityFormulas.CommandLine.Timestamp

namespace EntityFormulas.Program

/-- The forms of the command line. -/
def usage : String :=
  "usage: entity-formulas [--output text|json] [--quiet] [--config FILE] COMMAND\n\n" ++
  "  parse FORMULA\n" ++
  "  template TEXT\n" ++
  "  deps FORMULA\n" ++
  "  eval FORMULA --store FILE --tenant TENANT --entity ENTITY [--strict]\n" ++
  "  compute --store FILE --tenant TENANT --entity ENTITY [--only-stale]\n"

/-- Why a file cannot be read. -/
def reason : IO.Error → String
  | .noFileOrDirectory .. => "No such file or directory (os error 2)"
  | e => toString e

/-- Reads a file. -/
def readFile (name : String) : IO (String × Except String String) := do
  try
    return (name, .ok (← IO.FS.readFile name))
  catch e =>
    return (name, .error (reason e))

/-- The files that were read, by name. -/
def filesOf (read : List (String × Except String String)) : Files := fun name =>
  (Entries.find? name read).getD (.error "the file was not read")

/-- The time as it is put on record. -/
def now : IO String := do
  let time ← Std.Time.Timestamp.now
  return Timestamp.text time.toNanosecondsSinceUnixEpoch.val.toNat

end EntityFormulas.Program

/-- Runs the program. -/
def main (args : List String) : IO UInt32 := do
  match EntityFormulas.Invocation.ofArguments? args with
  | none =>
    IO.eprint EntityFormulas.Program.usage
    return 2
  | some i =>
    let read ← i.files.mapM EntityFormulas.Program.readFile
    let e := i.run (EntityFormulas.Program.filesOf read) (← EntityFormulas.Program.now)
    IO.print e.stdout
    IO.eprint e.stderr
    return e.code.toUInt32
