/-!
# Files

`Files` is all a loader knows of a file system: what it finds at a path.  `Path` joins paths and
takes them apart, with `/` between the components.
-/

namespace Fitting

inductive FileState where
  | absent
  | directory
  /-- a file without a text that can be read -/
  | unreadable
  | text (content : String)
deriving DecidableEq, Repr

/-- what is found at each path -/
abbrev Files := String → FileState

namespace FileState

def exists? (s : FileState) : Bool := s ≠ .absent

def isFile : FileState → Bool
  | .unreadable | .text _ => true
  | .absent | .directory => false

end FileState

namespace Path

/-- a path below another one; an absolute path stays as it is -/
def join (base path : String) : String :=
  if path.startsWith "/" ∨ base.isEmpty then path
  else if base.endsWith "/" then base ++ path
  else base ++ "/" ++ path

/-- the components of a path, those left out that lead nowhere -/
def components (path : String) : List String :=
  (path.splitOn "/").filter (fun c => c ≠ "" ∧ c ≠ ".")

/-- the last component ends in a point and the extension, after something else -/
def hasExtension (path extension : String) : Bool :=
  match (components path).getLast? with
  | some name => name.endsWith ("." ++ extension) && extension.length + 1 < name.length
  | none => false

/-- one step of a path, from a directory -/
def step (directory : List String) (component : String) : List String :=
  if component = "" ∨ component = "." then directory
  else if component = ".." then directory.dropLast
  else directory ++ [component]

/-- where a path leads to, all steps taken for granted -/
def resolve (path : String) : List String := (components path).foldl step []

end Path

namespace Files

/-- what is found at the end of a path; only from a directory does a step lead on.  `look` says what
is found where no steps are left. -/
def walk (look : List String → FileState) : (here : List String) → List String → FileState
  | here, [] => look here
  | here, component :: components =>
    if look here = .directory then walk look (Path.step here component) components else .absent

/-- files in memory by their paths; what lies above a file is a directory -/
def ofList (entries : List (String × String)) : Files := fun path =>
  let files := entries.reverse.map (fun e => (Path.resolve e.1, e.2))
  let look (here : List String) : FileState :=
    match files.find? (fun f => f.1 == here) with
    | some (_, content) => .text content
    | none => if files.any (fun f => here.isPrefixOf f.1) then .directory else .absent
  walk look [] (path.splitOn "/")

end Files

end Fitting
