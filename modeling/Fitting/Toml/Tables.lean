import Fitting.Json.Value

/-!
# The tables of a TOML text

The statements of a TOML text fill a tree of tables.  A key is given once, and how a table came to
be settles what may still be added to it:

* `Members.assign?`   `a.b.c = v` goes through tables that no header has opened, and ends in one
                      that a dotted key has opened;
* `Members.header?`   `[a.b]` opens a table that nothing but the headers of its subtables has named;
* `Members.append?`   `[[a.b]]` adds a table to a list that such headers have begun;
* `Members.values`    the tree as a JSON object.
-/

namespace Fitting.Toml

/-- how a table came to be -/
inductive Origin where
  /-- named on the way to a subtable -/
  | implied
  /-- opened by a header -/
  | header
  /-- opened by a dotted key -/
  | dotted
deriving DecidableEq

/-- what a key stands for -/
inductive Node where
  | leaf (value : Json)
  | table (origin : Origin) (members : List (String × Node))
  /-- a list of tables, the last one first -/
  | tables (last : List (String × Node)) (before : List Node)

abbrev Members := List (String × Node)

namespace Members

def find? (ms : Members) (key : String) : Option Node :=
  (List.find? (fun m => m.1 == key) ms).map Prod.snd

def replace (ms : Members) (key : String) (node : Node) : Members :=
  ms.map (fun m => if m.1 == key then (key, node) else m)

/-- the members with `act` done at the end of a path, where the table is of a known origin.  Tables
that are missing on the way come to be with the origin `fresh`; tables that are there have to be of
an origin that is `passable`, and of a list of tables the last one is entered. -/
def at? (fresh : Origin) (passable : Origin → Bool) (act : Origin → Members → Option Members) :
    List String → Origin → Members → Option Members
  | [], origin, ms => act origin ms
  | key :: path, _, ms =>
    match ms.find? key with
    | none => do
      let inner ← at? fresh passable act path fresh []
      return ms ++ [(key, .table fresh inner)]
    | some (.table origin inner) =>
      if passable origin then do
        let inner ← at? fresh passable act path origin inner
        return ms.replace key (.table origin inner)
      else none
    | some (.tables last before) => do
      let last ← at? fresh passable act path .header last
      return ms.replace key (.tables last before)
    | some (.leaf _) => none

/-- the way of a header, through tables of any origin -/
def along? (act : Members → Option Members) (path : List String) (ms : Members) : Option Members :=
  at? .implied (fun _ => true) (fun _ => act) path .header ms

/-- a value for a dotted key, `path` and `key`, below the path of a table; that table itself counts
as one that is open to dotted keys -/
def assign? (ms : Members) (table path : List String) (key : String) (v : Json) :
    Option Members :=
  let set (origin : Origin) (inner : Members) : Option Members :=
    if origin ≠ .dotted ∨ (inner.find? key).isSome then none else some (inner ++ [(key, .leaf v)])
  along? (at? .dotted (· ≠ .header) set path .dotted) table ms

/-- a table opened by a header -/
def header? (ms : Members) (path : List String) (key : String) : Option Members :=
  along? (fun inner =>
    match inner.find? key with
    | none => some (inner ++ [(key, .table .header [])])
    | some (.table .implied members) => some (inner.replace key (.table .header members))
    | _ => none) path ms

/-- one more table of a list of tables -/
def append? (ms : Members) (path : List String) (key : String) : Option Members :=
  along? (fun inner =>
    match inner.find? key with
    | none => some (inner ++ [(key, .tables [] [])])
    | some (.tables last before) =>
      some (inner.replace key (.tables [] (.table .header last :: before)))
    | _ => none) path ms

mutual

def nodeValue : Node → Json
  | .leaf v => v
  | .table _ ms => .object (values ms)
  | .tables last before => .array ((Json.object (values last) :: nodeValues before).reverse)

def nodeValues : List Node → List Json
  | [] => []
  | n :: ns => nodeValue n :: nodeValues ns

def values : Members → List (String × Json)
  | [] => []
  | (key, n) :: ms => (key, nodeValue n) :: values ms

end

end Members

end Fitting.Toml
