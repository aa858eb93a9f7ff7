import Fitting.DataDirectory
import Fitting.Report.Text
import Fitting.Simulation

/-!
# The command

A `Command` says which loadout is to be simulated, from which data directory, and how the report is
to be printed.  It is read from the environment and the command line, and `Command.run` gives the
printed report.
-/

namespace Fitting

/-! ### formats by name -/

/-- a format by its name, ASCII letters of either case -/
def ReportFormat.ofText (text : String) : Except String ReportFormat :=
  match Named.ofNameFolded? text with
  | some format => .ok format
  | none => .error ("unknown output format: " ++ text.toLower)

structure Command where
  dataDir : String := "./data"
  loadout : Option String := none
  format : ReportFormat := .json
  logDir : Option String := none
deriving DecidableEq, Repr

namespace Command

/-- the loadout of a run that names none -/
def standardLoadout : String := "rifter"

/-- the command an environment states; a format that is no format does not count -/
def ofEnvironment (lookUp : String → Option String) : Command where
  dataDir := (lookUp "DOGMA_DATA_DIR").getD "./data"
  loadout := lookUp "DOGMA_LOADOUT"
  format :=
    ((lookUp "DOGMA_OUTPUT").bind (fun text => (ReportFormat.ofText text).toOption)).getD .json
  logDir := lookUp "DOGMA_LOG_DIR"

/-- an argument of the command line counts before the environment -/
def withArgument (c : Command) (argument : Option String) : Command :=
  { c with loadout := argument <|> c.loadout }

/-- the name or the path of the loadout -/
def loadoutName (c : Command) : String := c.loadout.getD standardLoadout

end Command

/-! ### running a command -/

/-- why a run has no result -/
inductive RunError where
  /-- a file cannot be loaded; `context` says what was being done, the last step last -/
  | load (context : List String) (cause : LoadError)
  | source (cause : SourceError)
deriving DecidableEq, Repr

namespace RunError

/-- what was being done and what went wrong, from the outside in -/
def messages : RunError → List String
  | .load context cause => context ++ [cause.message]
  | .source cause => [cause.simulationMessage]

/-- the messages as they are shown to a user: the causes below what was being done -/
def report (e : RunError) : String :=
  match e.messages with
  | outer :: cause :: causes =>
    "Error: " ++ outer ++ "\n\nCaused by:" ++ String.join ((cause :: causes).map ("\n    " ++ ·))
  | messages => "Error: " ++ String.join messages

end RunError

namespace Command

/-- a loadout by its path, if that is a file of RON text, else by its name -/
def findLoadout (d : DataDirectory) (files : Files) (name : String) : Except LoadError Loadout :=
  if Path.hasExtension name "ron" ∧ (files name).isFile then loadLoadout files name
  else d.loadout files name

/-- the report a command asks for -/
def simulate (c : Command) (files : Files) : Except RunError Report := do
  let d : DataDirectory := ⟨c.dataDir⟩
  let snapshot ← (d.snapshot files).mapError (.load ["loading reference data from " ++ c.dataDir])
  let rules ← (d.rules files).mapError (.load [])
  let loadout ← (findLoadout d files c.loadoutName).mapError
    (.load ["loading loadout " ++ c.loadoutName])
  let engine ← (Engine.ofSources snapshot.sources rules).mapError .source
  (engine.simulate snapshot.sources loadout).mapError .source

def run (c : Command) (files : Files) : Except RunError String := do
  return (← c.simulate files).print c.format

/-- the paths of all files a command may read -/
def paths (c : Command) : List String :=
  ["types.ron", "attributes.ron", "effects.ron", "dbuffs.ron",
    "config.toml"].map (Path.join c.dataDir)
    ++ [c.loadoutName, DataDirectory.loadoutPath ⟨c.dataDir⟩ c.loadoutName]

end Command

end Fitting
