import SmallLisp.Number.Literal

/-!
# Dates and times

A plain scalar that spells a date is a timestamp.  A date is a year of four digits, a month and a
day, with dashes between them.  A time of day may follow.  After a letter `T` it has a zone, which
is `Z` or a signed difference of hours and minutes; after blanks it has none.  The seconds may have
a fraction.
-/

namespace SmallLisp.Yaml

/-- A number of one or two digits at the front, with what follows it. -/
def shortNumber? : List Char → Option (Nat × List Char)
  | a :: b :: cs =>
    if !Number.isDigit a then none
    else if Number.isDigit b then some (Nat.ofDigitChars 10 [a, b] 0, cs)
    else some (Nat.ofDigitChars 10 [a] 0, b :: cs)
  | [a] => if Number.isDigit a then some (Nat.ofDigitChars 10 [a] 0, []) else none
  | [] => none

/-- What follows a character at the front. -/
def afterChar? (c : Char) : List Char → Option (List Char)
  | d :: cs => if c = d then some cs else none
  | [] => none

/-- How many days a month has. -/
def daysIn (year month : Nat) : Nat :=
  if month = 2 then
    if year % 4 = 0 ∧ (year % 100 ≠ 0 ∨ year % 400 = 0) then 29 else 28
  else if month = 4 ∨ month = 6 ∨ month = 9 ∨ month = 11 then 30
  else 31

/-- What follows a date at the front. -/
def afterDate? (cs : List Char) : Option (List Char) := do
  let year := cs.takeWhile Number.isDigit
  if year.length ≠ 4 then none
  else
    let cs ← afterChar? '-' (cs.drop 4)
    let (month, cs) ← shortNumber? cs
    let cs ← afterChar? '-' cs
    let (day, cs) ← shortNumber? cs
    let last := daysIn (Nat.ofDigitChars 10 year 0) month
    if 1 ≤ month ∧ month ≤ 12 ∧ 1 ≤ day ∧ day ≤ last then some cs else none

/-- What follows the fraction of a second, if there is one. -/
def afterFraction : List Char → List Char
  | p :: d :: cs =>
    if (p == '.' || p == ',') && Number.isDigit d then cs.dropWhile Number.isDigit else p :: d :: cs
  | cs => cs

/-- What follows a time of day at the front. -/
def afterTime? (cs : List Char) : Option (List Char) := do
  let (hour, cs) ← shortNumber? cs
  let cs ← afterChar? ':' cs
  let (minute, cs) ← shortNumber? cs
  let cs ← afterChar? ':' cs
  let (second, cs) ← shortNumber? cs
  if hour < 24 ∧ minute < 60 ∧ second < 60 then some (afterFraction cs) else none

/-- Whether a text is a zone. -/
def isZone : List Char → Bool
  | ['Z'] => true
  | [sign, a, b, ':', c, d] =>
    Number.isSign sign && [a, b, c, d].all Number.isDigit &&
      Nat.ofDigitChars 10 [a, b] 0 ≤ 24 && Nat.ofDigitChars 10 [c, d] 0 ≤ 60
  | _ => false

/-- Whether a text is a date, perhaps with a time of day. -/
def isTimestamp (cs : List Char) : Bool :=
  match afterDate? cs with
  | none => false
  | some [] => true
  | some (c :: cs) =>
    if c == 'T' || c == 't' then (afterTime? cs).any isZone
    else if c == ' ' then (afterTime? (cs.dropWhile (· == ' '))).any List.isEmpty
    else false

example :
    ["2001-1-2", "2001-01-02T3:4:5Z", "2001-01-02t3:4:5,5-05:00", "2000-2-29  3:4:5"].all
      (isTimestamp ·.toList) = true := by
  decide +kernel

example :
    ["2001-2-29", "2001-01-02 3:4:5Z", "2001-01-02T3:4:5", "2001-01-02T24:4:5Z"].any
      (isTimestamp ·.toList) = false := by
  decide +kernel

end SmallLisp.Yaml
