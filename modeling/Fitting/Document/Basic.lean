import Fitting.IntegerType
import Fitting.Key
import Fitting.Named

/-!
# Documents

The records of the reference data and of loadouts are written in several formats.  A `Document` is a
value of a format, with the views a record reader may take of it; what a view shows is settled
by the format alone, and the readers of records are the same for all of them.

* `Document.fields?`     a record as a look-up of its fields by name;
* `Fields.need`          a field that has to be there;
* `Fields.orElse`        a field that may be missing, but not ill-typed.
-/

namespace Fitting

/-- a format whose values are of type `δ`; each view is none for a value it does not fit -/
class Document (δ : Type) where
  /-- an integer of a type -/
  integer? : IntegerType → δ → Option Int
  /-- a real number; an integer is one, too -/
  real? : δ → Option Float
  flag? : δ → Option Bool
  text? : δ → Option String
  /-- the name of an alternative without content -/
  symbol? : δ → Option String
  items? : δ → Option (List δ)
  /-- the entries of a table whose keys are codes -/
  entries? : δ → Option (List (Int × δ))
  /-- a value that may be absent: the inner option is empty where the document says so -/
  optional? : δ → Option (Option δ)
  /-- the content of a wrapper of this name -/
  wrapped? : String → δ → Option δ
  /-- the fields of a record, given its name and the names of its fields in their order -/
  fields? : String → List String → δ → Option (String → Option δ)

namespace Document
variable {δ α : Type} [Document δ]

def code? (v : δ) : Option Int32 := (integer? .code v).bind int32?

def key? {t : Table} (v : δ) : Option (Key t) := (code? v).map Key.mk

/-- an integer of a number of bits without a sign -/
def natural? (bits : Nat) (v : δ) : Option Nat := (integer? ⟨false, bits⟩ v).map Int.toNat

def quantity? (v : δ) : Option UInt32 := (integer? .quantity v).map (fun i => i.toNat.toUInt32)

def level? (v : δ) : Option UInt8 := (integer? .level v).map (fun i => i.toNat.toUInt8)

/-- one of the alternatives of a choice, by its exact name -/
def choice? [Named α] (v : δ) : Option α := (symbol? v).bind Named.ofName?

def list? (read : δ → Option α) (v : δ) : Option (List α) := (items? v).bind (·.mapM read)

def option? (read : δ → Option α) (v : δ) : Option (Option α) :=
  (optional? v).bind fun
    | some inner => (read inner).map some
    | none => some none

/-- a table; of several entries with one key the last one counts -/
def table? {t : Table} (read : δ → Option α) (v : δ) : Option (Map (Key t) α) := do
  let rows ← (← entries? v).mapM fun (k, inner) => do
    return (← Key.ofInt? k, ← read inner)
  return Map.lastRows Prod.fst Prod.snd rows

end Document

/-- the fields of a record by name -/
abbrev Fields (δ : Type) := String → Option δ

namespace Fields
variable {δ α : Type}

/-- a field that has to be there -/
def need (f : Fields δ) (name : String) (read : δ → Option α) : Option α := (f name).bind read

/-- a field that has a default -/
def orElse (f : Fields δ) (name : String) (read : δ → Option α) (default : α) : Option α :=
  match f name with
  | some v => read v
  | none => some default

end Fields

end Fitting
