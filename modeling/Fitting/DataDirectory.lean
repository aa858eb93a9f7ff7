import Fitting.Document.Loadout
import Fitting.Document.Reference
import Fitting.Files
import Fitting.Json.Document
import Fitting.Ron.Document
import Fitting.Toml.Reader

/-!
# Data directories

A data directory holds the reference data in tables of RON text, the rules in a TOML text, and named
loadouts.  The tables of types, attributes and effects have to be there; without a table of warfare
buffs there are none, and without rules the standard ones hold.

* `DataDirectory.snapshot`   all tables; the first one that cannot be loaded is reported;
* `loadAttributes`           an attribute must not be defined twice;
* `DataDirectory.loadout`    a loadout by its name.
-/

namespace Fitting

/-- what a file of a data directory holds -/
inductive Content where
  | attributes | types | effects | dbuffs | rules | loadout
deriving DecidableEq, Repr

def Content.description : Content → String
  | .attributes => "attribute table RON"
  | .types => "type table RON"
  | .effects => "effect table RON"
  | .dbuffs => "dbuff table RON"
  | .rules => "config TOML"
  | .loadout => "loadout RON"

/-- why a file cannot be loaded -/
inductive LoadError where
  | unreadable (path : String)
  | malformed (content : Content)
  /-- an attribute that an earlier row defines already -/
  | duplicateAttribute (id : AttributeId) (name : String) (path : String)
deriving DecidableEq, Repr

def LoadError.message : LoadError → String
  | .unreadable path => "Failed to read file " ++ path
  | .malformed content => "Failed to parse " ++ content.description
  | .duplicateAttribute id name path =>
    "Duplicate attribute id " ++ id.digits ++ " (" ++ name ++ ") in " ++ path

/-! ### loading files -/

section
variable (files : Files) (path : String)

def readText : Except LoadError String :=
  match files path with
  | .text content => .ok content
  | _ => .error (.unreadable path)

/-- what a reader makes of the text of a file -/
def load {α : Type} (content : Content) (read : String → Option α) : Except LoadError α := do
  match read (← readText files path) with
  | some a => return a
  | none => throw (.malformed content)

/-- a RON text as a record -/
def readRon {α : Type} (read : Ron.Part → Option α) (text : String) : Option α :=
  (Ron.Part.parse? text).bind read

/-- the first row whose attribute an earlier row defines; `seen` holds the attributes before -/
def firstRepeated? (seen : List AttributeId) : List AttributeDefinition → Option AttributeDefinition
  | [] => none
  | row :: rows => if seen.contains row.id then some row else firstRepeated? (row.id :: seen) rows

/-- the rows of an attribute table, no attribute defined twice -/
def loadAttributes : Except LoadError (List AttributeDefinition) := do
  let rows ← load files path .attributes (readRon readAttributeTable?)
  match firstRepeated? [] rows with
  | some row => throw (.duplicateAttribute row.id row.name path)
  | none => return rows

def loadTypes : Except LoadError (List TypeEntry) := load files path .types (readRon readTypeTable?)

def loadEffects : Except LoadError (List EffectDefinition) :=
  load files path .effects (readRon readEffectTable?)

/-- a table of warfare buffs that is not there has no rows -/
def loadDbuffs : Except LoadError (List DbuffRow) :=
  if (files path).exists? then load files path .dbuffs (readRon readDbuffTable?) else return []

/-- rules that are not there are the standard ones -/
def loadRules : Except LoadError Rules :=
  if (files path).exists? then load files path .rules
    (fun text => (Toml.parse? text).bind Rules.read?)
  else return {}

def loadLoadout : Except LoadError Loadout := load files path .loadout (readRon Loadout.read?)

end

/-! ### the files of a data directory -/

/-- a directory with reference data, rules and loadouts -/
structure DataDirectory where
  path : String

namespace DataDirectory
variable (d : DataDirectory) (files : Files)

def attributes : Except LoadError (List AttributeDefinition) :=
  loadAttributes files (Path.join d.path "attributes.ron")

def types : Except LoadError (List TypeEntry) := loadTypes files (Path.join d.path "types.ron")

def effects : Except LoadError (List EffectDefinition) :=
  loadEffects files (Path.join d.path "effects.ron")

def dbuffs : Except LoadError (List DbuffRow) := loadDbuffs files (Path.join d.path "dbuffs.ron")

def rules : Except LoadError Rules := loadRules files (Path.join d.path "config.toml")

/-- all reference data; the types are loaded first, then attributes, effects and warfare buffs -/
def snapshot : Except LoadError Snapshot := do
  let entries ← d.types files
  let attributes ← d.attributes files
  let effects ← d.effects files
  let dbuffs ← d.dbuffs files
  return { TypeEntry.snapshot entries with attributes, effects, dbuffs }

/-- where the loadout of a name is kept -/
def loadoutPath (name : String) : String :=
  Path.join (Path.join d.path "loadouts") (name ++ ".ron")

def loadout (name : String) : Except LoadError Loadout := loadLoadout files (d.loadoutPath name)

end DataDirectory

end Fitting
