import Fitting.Text.Blank
import Fitting.Numeral
import Fitting.Modifier.Basic

/-!
# Rows of the reference data

Item types, their attribute values, their links to effects, the effects, and the warfare buffs that
item types own.  The flags of an effect have a text form of their own, `EffectFlags.ofText?` and
`EffectFlags.toText`.
-/

namespace Fitting

/-- the record of an item type.  Mass, capacity and volume count only where the attribute rows of
the type do not state them. -/
structure ItemType where
  id : TypeId
  name : String
  group : GroupId
  category : CategoryId
  mass : Option Float := none
  capacity : Option Float := none
  volume : Option Float := none

/-- the value of an attribute of an item type -/
structure AttributeRow where
  type : TypeId
  attr : AttributeId
  value : Float

/-- an item type carries an effect -/
structure EffectLink where
  type : TypeId
  effect : EffectId
  /-- the effect that runs when the item is activated without choosing one -/
  isDefault : Bool := false
deriving DecidableEq, Repr

/-- behavioural flags of an effect, one bit each -/
structure EffectFlags where
  bits : UInt8
deriving DecidableEq, Repr

namespace EffectFlags

def empty : EffectFlags := ⟨0⟩

/-- the flags that have a name -/
def names : List (String × UInt8) := [("OFFENSIVE", 1), ("ASSISTANCE", 2)]

/-- an eight-bit number of hexadecimal digits, a plus in front allowed -/
def hexByte? (cs : List Char) : Option UInt8 := do
  let ds := match cs with
    | '+' :: rest => rest
    | _ => cs
  let n ← Numeral.hex? ds
  if ds.isEmpty ∨ 255 < n then none else some n.toUInt8

/-- one part of the text: `0x` and a hexadecimal number, or the name of a flag -/
def part? (cs : List Char) : Option UInt8 :=
  match Text.trim cs with
  | '0' :: 'x' :: ds => hexByte? ds
  | name => (names.find? (fun n => n.1.toList == name)).map Prod.snd

/-- flags written as parts divided by bars; a blank text has none -/
def ofText? (text : String) : Option EffectFlags :=
  if (Text.trim text.toList).isEmpty then some empty
  else do
    let parts ← (text.splitOn "|").mapM (fun p => part? p.toList)
    return ⟨parts.foldl (· ||| ·) 0⟩

/-- the names of the flags that are set, and then the bits without a name in hexadecimal -/
def toText (f : EffectFlags) : String :=
  let set := names.filter (fun n => f.bits &&& n.2 != 0)
  let rest := f.bits &&& ~~~(names.foldl (fun bits n => bits ||| n.2) 0)
  let hex := if rest = 0 then [] else ["0x" ++ String.ofList (Nat.toDigits 16 rest.toNat)]
  " | ".intercalate (set.map Prod.fst ++ hex)

end EffectFlags

/-- the definition of an effect -/
structure EffectDefinition where
  id : EffectId
  name : String
  category : EffectCategory
  flags : EffectFlags := .empty
  /-- the description of its modifiers; an effect without one has none -/
  description : Option String := none
deriving DecidableEq, Repr

/-- a warfare buff owned by an item type -/
structure DbuffRow where
  type : TypeId
  dbuff : DbuffId
  mode : AggregateMode := .default
  /-- the description of its modifiers, as for effects -/
  description : String
deriving DecidableEq, Repr

namespace DbuffRow

/-- the synthetic effect that carries the modifiers of the buff -/
def effect (r : DbuffRow) : EffectId := r.dbuff.effect

def tag (r : DbuffRow) : DbuffTag := { dbuff := r.dbuff, mode := r.mode }

/-- the definition of that effect: active, and named after the buff -/
def definition (r : DbuffRow) : EffectDefinition where
  id := r.effect
  name := "dbuff" ++ r.dbuff.digits
  category := .active
  description := some r.description

end DbuffRow

end Fitting
