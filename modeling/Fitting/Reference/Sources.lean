import Fitting.Severity
import Fitting.Reference.Catalog
import Fitting.Reference.Rows

/-!
# Where reference data comes from

The engine asks four sources, each about a whole set of keys at once.  A source answers with rows,
and keys it does not know are simply absent.  A `Snapshot` holds all rows in memory and is itself
all four sources.

* `Sources.types?` …        only the absence of a source is an error;
* `Snapshot.sources`        the rows of the requested keys, in the order they were added.
-/

namespace Fitting

/-- item types and their attributes -/
structure ItemTypeSource where
  records : KeySet .itemType → List ItemType
  attributes : KeySet .itemType → List AttributeRow

/-- effects and the item types that carry them -/
structure EffectSource where
  links : KeySet .itemType → List EffectLink
  definitions : KeySet .effect → List EffectDefinition

/-- attribute definitions -/
structure AttributeSource where
  definitions : List AttributeDefinition

/-- warfare buffs and the item types that own them -/
structure DbuffSource where
  collections : KeySet .itemType → List DbuffRow

/-- a source the engine cannot do without is missing -/
inductive SourceError where
  | noTypes | noEffects | noAttributes
deriving DecidableEq, Repr

namespace SourceError

def code : SourceError → String
  | .noTypes => "ORACLE_TYPES_NOT_AVAILABLE"
  | .noEffects => "ORACLE_EFFECTS_NOT_AVAILABLE"
  | .noAttributes => "ORACLE_ATTRIBUTES_NOT_AVAILABLE"

def message : SourceError → String
  | .noTypes => "TypeOracle not available"
  | .noEffects => "EffectOracle not available"
  | .noAttributes => "AttributeOracle not available"

/-- how a simulation reports that it could not start -/
def simulationMessage (e : SourceError) : String := "reference data unavailable: " ++ e.message

/-- nothing can be computed without the data -/
def severity (_ : SourceError) : Severity := .fatal

end SourceError

/-- the sources a simulation draws on; each may be missing -/
structure Sources where
  types : Option ItemTypeSource := none
  effects : Option EffectSource := none
  attributes : Option AttributeSource := none
  dbuffs : Option DbuffSource := none

namespace Sources

def types? (s : Sources) : Except SourceError ItemTypeSource :=
  match s.types with
  | some source => .ok source
  | none => .error .noTypes

def effects? (s : Sources) : Except SourceError EffectSource :=
  match s.effects with
  | some source => .ok source
  | none => .error .noEffects

def attributes? (s : Sources) : Except SourceError AttributeSource :=
  match s.attributes with
  | some source => .ok source
  | none => .error .noAttributes

end Sources

/-- all rows of the reference data -/
structure Snapshot where
  attributes : List AttributeDefinition := []
  types : List ItemType := []
  typeAttributes : List AttributeRow := []
  typeEffects : List EffectLink := []
  effects : List EffectDefinition := []
  dbuffs : List DbuffRow := []

namespace Snapshot

def addAttribute (s : Snapshot) (d : AttributeDefinition) : Snapshot :=
  { s with attributes := s.attributes ++ [d] }

/-- an item type together with its attribute values -/
def addType (s : Snapshot) (t : ItemType) (values : List (AttributeId × Float)) : Snapshot :=
  { s with
    types := s.types ++ [t]
    typeAttributes := s.typeAttributes ++ values.map (fun (a, v) => ⟨t.id, a, v⟩) }

def addEffect (s : Snapshot) (e : EffectDefinition) : Snapshot :=
  { s with effects := s.effects ++ [e] }

def linkEffect (s : Snapshot) (type : TypeId) (effect : EffectId) : Snapshot :=
  { s with typeEffects := s.typeEffects ++ [{ type := type, effect := effect }] }

def addDbuff (s : Snapshot) (row : DbuffRow) : Snapshot :=
  { s with dbuffs := s.dbuffs ++ [row] }

/-- the rows of `s`, then those of `other` -/
def merge (s other : Snapshot) : Snapshot where
  attributes := s.attributes ++ other.attributes
  types := s.types ++ other.types
  typeAttributes := s.typeAttributes ++ other.typeAttributes
  typeEffects := s.typeEffects ++ other.typeEffects
  effects := s.effects ++ other.effects
  dbuffs := s.dbuffs ++ other.dbuffs

def typeSource (s : Snapshot) : ItemTypeSource where
  records keys := s.types.filter (fun t => keys.contains t.id)
  attributes keys := s.typeAttributes.filter (fun row => keys.contains row.type)

def effectSource (s : Snapshot) : EffectSource where
  links keys := s.typeEffects.filter (fun link => keys.contains link.type)
  definitions keys := s.effects.filter (fun e => keys.contains e.id)

def attributeSource (s : Snapshot) : AttributeSource where
  definitions := s.attributes

def dbuffSource (s : Snapshot) : DbuffSource where
  collections keys := s.dbuffs.filter (fun row => keys.contains row.type)

/-- the snapshot as all four sources -/
def sources (s : Snapshot) : Sources where
  types := some s.typeSource
  effects := some s.effectSource
  attributes := some s.attributeSource
  dbuffs := some s.dbuffSource

end Snapshot

end Fitting
