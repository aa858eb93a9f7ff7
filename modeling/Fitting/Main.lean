import Fitting.Command

/-!
# The program

Reads the command from the environment and the command line, looks at the files it may read, and
prints the report, or what went wrong on the error stream.
-/

namespace Fitting

/-- what is found at a path on disk -/
def fileState (path : String) : IO FileState := do
  try return .text (← IO.FS.readFile path)
  catch e =>
    match e with
    | .noFileOrDirectory _ _ _ => return .absent
    | .inappropriateType _ _ _ => return .directory
    | _ => return .unreadable

/-- the files a command may read, as they are on disk -/
def diskFiles (c : Command) : IO Files := do
  let states ← c.paths.mapM fun path => do return (path, ← fileState path)
  return fun path => ((states.find? (fun s => s.1 == path)).map Prod.snd).getD .absent

end Fitting

open Fitting in
def main (args : List String) : IO UInt32 := do
  let names := ["DOGMA_DATA_DIR", "DOGMA_LOADOUT", "DOGMA_OUTPUT", "DOGMA_LOG_DIR"]
  let environment ← names.mapM fun name => do return (name, ← IO.getEnv name)
  let lookUp (name : String) : Option String :=
    (environment.find? (fun v => v.1 == name)).bind Prod.snd
  let command := (Command.ofEnvironment lookUp).withArgument args.head?
  match command.run (← diskFiles command) with
  | .ok text =>
    IO.print text
    return 0
  | .error e =>
    IO.eprintln e.report
    return 1
