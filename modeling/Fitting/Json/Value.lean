/-!
# JSON values

A number keeps the way it was written: without fraction and exponent it is an `integer`, unless it
lies beyond 64 bits; all other numbers are `decimal`.
-/

namespace Fitting

/-- a JSON value -/
inductive Json where
  | null
  | bool (value : Bool)
  | integer (value : Int)
  | decimal (value : Float)
  | text (value : String)
  | array (items : List Json)
  | object (members : List (String × Json))
deriving Inhabited

namespace Json

/-- the kind of a value in words -/
def kind : Json → String
  | .null => "null"
  | .bool _ => "a boolean"
  | .integer _ | .decimal _ => "a number"
  | .text _ => "a string"
  | .array _ => "an array"
  | .object _ => "an object"

/-- the value of a member; of several members with one name the last one counts -/
def lookup? (name : String) (members : List (String × Json)) : Option Json :=
  (members.reverse.find? (fun m => m.1 == name)).map Prod.snd

/-- the members that count: of several members with one name the last one -/
def lastMembers : List (String × Json) → List (String × Json)
  | [] => []
  | m :: ms =>
    if ms.any (fun n => n.1 == m.1) then lastMembers ms else m :: lastMembers ms

end Json

end Fitting
