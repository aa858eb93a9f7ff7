import Fitting.Rules
import Fitting.Modifier.Index
import Fitting.Reference.Catalog
import Fitting.Fit.Basic

/-!
# Attaching modifiers

Every modifier of every item is attached to its targets as an edge.  No value is computed here.

* `Fit.targets`       the items a domain stands for;
* `Fit.attachments`   all edges with their targets: sources in the order of the fit, the modifiers
                      of each in the order of the index, the targets of each in the order of the
                      fit;
* `Fit.attach?`       an edge needs a target that declares the attribute; an assignment declares it
                      with the default of the catalog.
-/

namespace Fitting

/-- an edge on its way to the attribute it acts on -/
structure Attachment where
  target : Cell
  edge : Edge
deriving DecidableEq, Repr

namespace Fit

/-- the ids of the items that satisfy a condition, in the order of the fit -/
def idsWhere (f : Fit) (p : Item → Bool) : List Handle := (f.items.toList.filter p).map Item.id

/-- the items a modifier of `source` acts on; `sourceType` is the type the modifier belongs to -/
def targets (f : Fit) (source : Handle) (sourceType : TypeId) (domain : Domain) : List Handle :=
  match f.get? source with
  | none => []
  | some item =>
    match domain with
    | .item => [source]
    | .ship => [hull]
    | .pilot => [pilot]
    | .other => (item.charge? <|> item.owner?).toList
    | .location => f.handles
    | .locationGroup group => f.idsWhere (fun i => i.group == group)
    | .requiredSkill skill => f.idsWhere (fun i => i.requires (skill.resolve sourceType))

/-- a modifier is penalized unless its attribute is stackable or its source exempt; one of a warfare
buff always is -/
def isPenalized (catalog : Catalog) (rules : Rules) (source : Item) (m : Modifier) : Bool :=
  (!catalog.isStackable m.modified && !rules.isExempt source.category) || m.isDbuff

/-- the edge a modifier of an item becomes -/
def edgeOf (catalog : Catalog) (rules : Rules) (source : Handle) (item : Item) (m : Modifier) :
    Edge where
  source := source
  sourceAttribute := m.modifying
  operation := m.operation
  effect := m.effect
  category := m.category
  penalized := isPenalized catalog rules item m
  dbuff := m.dbuff

/-- all edges of the modifiers of all items, with their targets -/
def attachments (f : Fit) (index : ModifierIndex) (catalog : Catalog) (rules : Rules) :
    List Attachment :=
  f.entries.flatMap fun (source, item) =>
    (index.forType item.type).flatMap fun m =>
      (f.targets source m.sourceType m.domain).map fun target =>
        ⟨⟨target, m.modified⟩, edgeOf catalog rules source item m⟩

/-- the fit with an attribute declared with its default -/
def declare (catalog : Catalog) (f : Fit) (c : Cell) : Fit :=
  f.modify c.item fun item =>
    { item with attributes := item.attributes.insert c.attr { base := catalog.default c.attr } }

/-- the fit with one more edge; none if there is nothing to attach it to -/
def attach? (catalog : Catalog) (f : Fit) (att : Attachment) : Option Fit := do
  let item ← f.get? att.target.item
  if item.declares att.target.attr then some (f.attachEdge att.target att.edge)
  else if att.edge.operation.isAssign then
    some ((declare catalog f att.target).attachEdge att.target att.edge)
  else none

/-- the fit with the edges attached that find a target, and their number -/
def attachAll (catalog : Catalog) (f : Fit) (atts : List Attachment) : Fit × Nat :=
  atts.foldl
    (fun (f, attached) att =>
      match attach? catalog f att with
      | some f => (f, attached + 1)
      | none => (f, attached))
    (f, 0)

/-- the fit with the modifiers of all its items attached, and the number of edges that were -/
def applyModifiers (f : Fit) (index : ModifierIndex) (catalog : Catalog) (rules : Rules) :
    Fit × Nat :=
  attachAll catalog f (f.attachments index catalog rules)

end Fit

end Fitting
