import Fitting.Decimal.Rounding
import Fitting.Json.Writer
import Fitting.Report.Digest

/-!
# Printed reports

A report is printed in full as JSON, or as a summary of the hull.  Either way a line with the digest
ends it.

* `Report.toJson`    the whole report, field by field;
* `Report.summary`   the hull, the number of fitted items, and the attributes of the hull by name;
* `Report.print`     the printed text.
-/

namespace Fitting

/-- a key as JSON -/
def Key.toJson {t : Table} (k : Key t) : Json := .integer k.value.toInt

/-- a choice by its name -/
def choiceJson {α : Type} [Named α] (a : α) : Json := .text (Named.name a)

def ResolvedItem.toJson (r : ResolvedItem) : Json :=
  .object
    [("type_id", r.type.toJson),
      ("name", (r.name.map Json.text).getD .null),
      ("group_id", r.group.toJson),
      ("category_id", r.category.toJson),
      ("effects", .array (r.effects.map Key.toJson)),
      ("attributes", .object (r.attributes.toList.map (fun (a, x) => (a.digits, .decimal x)))),
      ("attributes_by_name",
        .object (r.attributesByName.toList.map (fun (name, x) => (name, .decimal x))))]

def ResolvedCharge.toJson (c : ResolvedCharge) : Json :=
  .object [("item", c.item.toJson), ("quantity", .integer c.quantity.toNat)]

def ResolvedModule.toJson (m : ResolvedModule) : Json :=
  .object
    [("item", m.item.toJson),
      ("slot", choiceJson m.rack),
      ("quantity", .integer m.quantity.toNat),
      ("status", choiceJson m.status),
      ("charge", (m.charge.map ResolvedCharge.toJson).getD .null)]

def ResolvedSquad.toJson (s : ResolvedSquad) : Json :=
  .object
    [("item", s.item.toJson),
      ("quantity", .integer s.quantity.toNat),
      ("status", choiceJson s.status)]

def ResolvedSkill.toJson (s : ResolvedSkill) : Json :=
  .object [("item", s.item.toJson), ("level", .integer s.level.toNat)]

/-- how a report is printed -/
inductive ReportFormat where
  | json | summary
deriving DecidableEq, Repr, Inhabited

instance : Named ReportFormat where
  alternatives := [.json, .summary]
  name
    | .json => "json"
    | .summary => "summary"

namespace Report

def toJson (r : Report) : Json :=
  .object
    [("hull", r.hull.toJson),
      ("pilot", r.pilot.toJson),
      ("modules", .array (r.modules.map ResolvedModule.toJson)),
      ("drones", .array (r.drones.map ResolvedSquad.toJson)),
      ("fighters", .array (r.fighters.map ResolvedSquad.toJson)),
      ("implants", .array (r.implants.map ResolvedItem.toJson)),
      ("skills", .array (r.skills.map ResolvedSkill.toJson))]

/-! ### the summary -/

/-- a text with blanks after it up to a width -/
def padEnd (width : Nat) (s : String) : String :=
  String.ofList (List.rightpad width ' ' s.toList)

/-- a text with blanks before it up to a width -/
def padStart (width : Nat) (s : String) : String :=
  String.ofList (List.leftpad width ' ' s.toList)

/-- the hull by its name, or by its type if it has none -/
def title (r : Report) : String :=
  match r.hull.name with
  | some name => name ++ " (" ++ r.hull.type.digits ++ ")"
  | none => "hull " ++ r.hull.type.digits

/-- the number of fitted items of each kind -/
def counts (r : Report) : String :=
  "modules: " ++ toString r.modules.length ++ "  drones: " ++ toString r.drones.length
    ++ "  fighters: " ++ toString r.fighters.length ++ "  implants: " ++ toString r.implants.length
    ++ "  skills: " ++ toString r.skills.length

/-- an attribute of the hull, its value with four decimal places -/
def attributeLine (row : String × Float) : String :=
  "  " ++ padEnd 28 row.1 ++ " " ++ padStart 16 (Decimal.fixedText 4 row.2)

/-- the lines of the summary -/
def summary (r : Report) : List String :=
  r.title :: r.counts :: r.hull.attributesByName.toList.map attributeLine

/-! ### the printed text -/

/-- a report as it is printed, each line with its end -/
def print (r : Report) (format : ReportFormat) : String :=
  let lines := match format with
    | .json => [r.toJson.render]
    | .summary => r.summary
  String.join ((lines ++ ["digest: " ++ r.digestText]).map (· ++ "\n"))

end Report

end Fitting
