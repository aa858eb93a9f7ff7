import Fitting.Json.Number
import Fitting.Json.Value

/-!
# Writing JSON text

`Json.render` writes a value over several lines: each item of an array and each member of an object
stands on a line of its own, two blanks further in than its bracket.
-/

namespace Fitting.Json

/-! ### strings -/

/-- a control character by its code -/
def unicodeEscape (c : Char) : List Char :=
  ['\\', 'u', '0', '0', Nat.digitChar (c.toNat / 16), Nat.digitChar (c.toNat % 16)]

/-- a character of a string -/
def escaped (c : Char) : List Char :=
  match c with
  | '"' => ['\\', '"']
  | '\\' => ['\\', '\\']
  | '\x08' => ['\\', 'b']
  | '\t' => ['\\', 't']
  | '\n' => ['\\', 'n']
  | '\x0c' => ['\\', 'f']
  | '\r' => ['\\', 'r']
  | c => if c.toNat < 0x20 then unicodeEscape c else [c]

/-- a string between quotes -/
def quoted (s : String) : String := "\"" ++ String.ofList (s.toList.flatMap escaped) ++ "\""

/-! ### values -/

/-- the start of a line, two blanks in for each bracket around it -/
def newLine (depth : Nat) : String := "\n" ++ String.ofList (List.replicate (2 * depth) ' ')

mutual

/-- a value inside `depth` brackets -/
def write (depth : Nat) : Json → String
  | .null => "null"
  | .bool b => if b then "true" else "false"
  | .integer i => toString i
  | .decimal x => numberText x
  | .text s => quoted s
  | .array [] => "[]"
  | .array (v :: vs) =>
    "[" ++ newLine (depth + 1) ++ write (depth + 1) v ++ writeItems (depth + 1) vs
      ++ newLine depth ++ "]"
  | .object [] => "\x7b\x7d"
  | .object ((name, v) :: ms) =>
    "\x7b" ++ newLine (depth + 1) ++ quoted name ++ ": " ++ write (depth + 1) v
      ++ writeMembers (depth + 1) ms ++ newLine depth ++ "\x7d"

/-- the items of an array after the first -/
def writeItems (depth : Nat) : List Json → String
  | [] => ""
  | v :: vs => "," ++ newLine depth ++ write depth v ++ writeItems depth vs

/-- the members of an object after the first -/
def writeMembers (depth : Nat) : List (String × Json) → String
  | [] => ""
  | (name, v) :: ms =>
    "," ++ newLine depth ++ quoted name ++ ": " ++ write depth v ++ writeMembers depth ms

end

/-- a value as a text of its own -/
def render (v : Json) : String := write 0 v

end Fitting.Json
