/-!
# Choices with names

A `Named` type is a finite choice whose alternatives have distinct names.  `ofName?` reads a name
exactly, `ofNameFolded?` without regard to the case of ASCII letters.
-/

namespace Fitting

/-- a finite choice whose alternatives have names -/
class Named (α : Type) where
  alternatives : List α
  name : α → String

namespace Named
variable {α : Type} [Named α]

/-- the alternative with exactly this name -/
def ofName? (text : String) : Option α :=
  (alternatives : List α).find? (fun a => name a == text)

/-- the alternative with this name, ASCII letters of either case -/
def ofNameFolded? (text : String) : Option α :=
  (alternatives : List α).find? (fun a => (name a).toLower == text.toLower)

end Named

end Fitting
