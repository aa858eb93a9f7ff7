import Fitting.Key

/-!
# Attribute definitions

The `Catalog` is the look-up table over all attribute definitions.  Of several definitions of one
attribute the last one counts, and an attribute without any is plain: default zero, penalized when
stacked, better when higher, named by its number.
-/

namespace Fitting

/-- the definition of an attribute -/
structure AttributeDefinition where
  id : AttributeId
  name : String
  /-- the value where an item does not state one -/
  defaultValue : Float := 0.0
  /-- modifiers of a stackable attribute are never penalized -/
  stackable : Bool := false
  /-- assignments keep the largest value if set, else the smallest -/
  highIsGood : Bool := true

namespace AttributeDefinition

/-- a definition with nothing but a name -/
def named (id : AttributeId) (name : String) : AttributeDefinition := { id, name }

def withDefault (d : AttributeDefinition) (value : Float) : AttributeDefinition :=
  { d with defaultValue := value }

def unpenalized (d : AttributeDefinition) : AttributeDefinition := { d with stackable := true }

def lowIsGood (d : AttributeDefinition) : AttributeDefinition := { d with highIsGood := false }

end AttributeDefinition

/-- all attribute definitions by key -/
structure Catalog where
  definitions : Map AttributeId AttributeDefinition

namespace Catalog

def empty : Catalog := ⟨∅⟩

/-- of several definitions of one attribute the last one counts -/
def ofList (rows : List AttributeDefinition) : Catalog :=
  ⟨Map.lastRows AttributeDefinition.id id rows⟩

def get? (c : Catalog) (a : AttributeId) : Option AttributeDefinition := c.definitions[a]?

def size (c : Catalog) : Nat := c.definitions.size

def default (c : Catalog) (a : AttributeId) : Float :=
  match c.get? a with
  | some d => d.defaultValue
  | none => 0.0

def isStackable (c : Catalog) (a : AttributeId) : Bool :=
  match c.get? a with
  | some d => d.stackable
  | none => false

def highIsGood (c : Catalog) (a : AttributeId) : Bool :=
  match c.get? a with
  | some d => d.highIsGood
  | none => true

/-- the defined name, else the number -/
def name (c : Catalog) (a : AttributeId) : String :=
  match c.get? a with
  | some d => d.name
  | none => a.digits

/-- the name an attribute is reported under: the defined one, else the standard one, else the
number -/
def reportName (c : Catalog) (a : AttributeId) : String :=
  match c.get? a with
  | some d => d.name
  | none => a.standardName?.getD a.digits

end Catalog

end Fitting
