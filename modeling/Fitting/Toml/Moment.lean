import Fitting.Decimal.Basic

/-!
# Dates and times in TOML text

A moment is a date, a time of day, or a date with a time of day and possibly a distance from
universal time: `1979-05-27`, `07:32`, `1979-05-27T07:32:00.5-07:00`.  Nothing is computed with
moments, so `isMoment` only tells them from other text.

* a date is a day of the calendar, with the leap years of the Gregorian one;
* seconds may be left out, and count up to the leap second; only they have a fraction.
-/

namespace Fitting.Toml

/-- the number in exactly `count` digits at the front, and the text after them -/
def fixed? (count : Nat) (cs : List Char) : Option (Nat × List Char) :=
  let ds := cs.take count
  if ds.length = count ∧ ds.all Char.isDigit then some (Decimal.ofDigits ds, cs.drop count)
    else none

/-- the text after one of some characters -/
def sign? (allowed : List Char) : List Char → Option (List Char)
  | [] => none
  | c :: cs => if allowed.contains c then some cs else none

/-! ### dates -/

def isLeap (year : Nat) : Bool := year % 4 = 0 && (year % 100 ≠ 0 || year % 400 = 0)

/-- the number of days of a month -/
def daysOf (year month : Nat) : Nat :=
  if month = 2 then (if isLeap year then 29 else 28)
  else if [4, 6, 9, 11].contains month then 30
  else 31

def date? (cs : List Char) : Option (List Char) := do
  let (year, cs) ← fixed? 4 cs
  let (month, cs) ← fixed? 2 (← sign? ['-'] cs)
  let (day, cs) ← fixed? 2 (← sign? ['-'] cs)
  if 1 ≤ month ∧ month ≤ 12 ∧ 1 ≤ day ∧ day ≤ daysOf year month then some cs else none

/-! ### times -/

def hourMinute? (cs : List Char) : Option (List Char) := do
  let (hour, cs) ← fixed? 2 cs
  let (minute, cs) ← fixed? 2 (← sign? [':'] cs)
  if hour ≤ 23 ∧ minute ≤ 59 then some cs else none

/-- the text after a fraction of a second, if there is one -/
def fraction? : List Char → Option (List Char)
  | '.' :: cs => if (cs.takeWhile Char.isDigit).isEmpty then none
      else some (cs.dropWhile Char.isDigit)
  | cs => some cs

def time? (cs : List Char) : Option (List Char) := do
  match ← hourMinute? cs with
  | ':' :: cs =>
    let (second, cs) ← fixed? 2 cs
    if second ≤ 60 then fraction? cs else none
  | cs => some cs

def offset? (cs : List Char) : Option (List Char) :=
  match cs with
  | [] => some []
  | c :: rest => if c = 'Z' ∨ c = 'z' then some rest else (sign? ['+', '-'] cs).bind hourMinute?

/-- the text after a time of day that follows a date -/
def timeOfDate? (cs : List Char) : Option (List Char) := do
  match cs with
  | [] => some []
  | _ => offset? (← time? (← sign? ['T', 't', ' '] cs))

/-- a date, a time of day, or both -/
def isMoment (cs : List Char) : Bool :=
  (date? cs).bind timeOfDate? == some [] || time? cs == some []

end Fitting.Toml
