/-
Dates and times in TOML.

A moment is a date, a time, or a date with a time and maybe the distance from universal
time.  A date is one of the calendar, and a time may have the seconds of a leap second.
A moment is kept in its written form: a `T` before the time, a `Z` for universal time,
and no zeros at the end of a fraction.

A moment may also be given as a text, in a table whose first key is `momentKey`.  Such a
table stands for the moment, and whatever else it holds is left out; the text has to be
a moment and nothing else.
-/
import KernelDepot.Toml.Number

namespace KernelDepot
namespace Toml

/-- Read a number of exactly `count` digits between two bounds. -/
def readField (count low high : Nat) (cs : List Char) : Option (Nat × List Char) :=
  let digits := cs.take count
  let n := digitsValue 10 digits
  if digits.length = count ∧ digits.all Char.isDigit ∧ low ≤ n ∧ n ≤ high then
    some (n, cs.drop count)
  else none

def daysOf (year month : Nat) : Nat :=
  if month = 2 then
    if year % 4 = 0 ∧ (year % 100 ≠ 0 ∨ year % 400 = 0) then 29 else 28
  else if month ∈ [4, 6, 9, 11] then 30
  else 31

def twoPlaces (n : Nat) : List Char := Number.paddedDecimal 2 n

/-- Read a date; the result is its written form. -/
def readDate (cs : List Char) : Option (List Char × List Char) := do
  let (year, rest) ← readField 4 0 9999 cs
  let (month, rest) ← readField 2 1 12 (← afterChar? '-' rest)
  let (day, rest) ← readField 2 1 31 (← afterChar? '-' rest)
  if daysOf year month < day then none
  else
    return (Number.paddedDecimal 4 year ++ '-' :: twoPlaces month ++ '-' :: twoPlaces day, rest)

/-- Read the fraction of a second, if there is one, to nine places and without the zeros
at its end. -/
def readSecondFraction : List Char → Option (List Char × List Char)
  | '.' :: rest =>
    let digits := rest.takeWhile Char.isDigit
    if digits.isEmpty then none
    else
      let kept := ((digits.take 9).reverse.dropWhile (· = '0')).reverse
      some (if kept.isEmpty then [] else '.' :: kept, rest.dropWhile Char.isDigit)
  | cs => some ([], cs)

/-- Read a time; the result is its written form.  A fraction without digits is not part
of it. -/
def readTime (cs : List Char) : Option (List Char × List Char) := do
  let (hour, rest) ← readField 2 0 23 cs
  let (minute, rest) ← readField 2 0 59 (← afterChar? ':' rest)
  let (second, rest) ← readField 2 0 60 (← afterChar? ':' rest)
  let (fraction, rest) := (readSecondFraction rest).getD ([], rest)
  return (twoPlaces hour ++ ':' :: twoPlaces minute ++ ':' :: twoPlaces second ++ fraction, rest)

/-- Read the distance from universal time, which is less than a day.  A distance of zero is
written with a `+`. -/
def readOffset (cs : List Char) : Option (List Char × List Char) :=
  match cs with
  | 'Z' :: rest | 'z' :: rest => some (['Z'], rest)
  | _ => do
    let (sign, rest) := takeSign cs
    if sign.isEmpty then none
    else
      let (hours, rest) ← readField 2 0 23 rest
      let (minutes, rest) ← readField 2 0 59 (← afterChar? ':' rest)
      let sign := if hours = 0 ∧ minutes = 0 then ['+'] else sign
      return (sign ++ twoPlaces hours ++ ':' :: twoPlaces minutes, rest)

/-- Read what may follow a date: a time and the distance from universal time. -/
def readDayTime (cs : List Char) : Option (List Char × List Char) := do
  match cs with
  | c :: rest =>
    if c = 'T' ∨ c = 't' ∨ c = ' ' then
      let (time, rest) ← readTime rest
      let (offset, rest) := (readOffset rest).getD ([], rest)
      return ('T' :: time ++ offset, rest)
    else none
  | [] => none

/-- Read a date, a date with a time, or a time; the result is its written form. -/
def readMoment (cs : List Char) : Option (List Char × List Char) :=
  match readDate cs with
  | some (date, rest) =>
    let (time, rest) := (readDayTime rest).getD ([], rest)
    some (date ++ time, rest)
  | none => readTime cs

def momentKey : String := "$__toml_private_datetime"

/-- The node under the key of a moment, if the table starts with it. -/
def Fields.momentNode? : Fields → Option Node
  | (key, node) :: _ => if key = momentKey then some node else none
  | [] => none

def Node.moment? : Node → Option Node
  | .text content =>
    match readMoment content.toList with
    | some (written, []) => some (.moment (String.ofList written))
    | _ => none
  | _ => none

mutual

/-- The node with every table that stands for a moment replaced by it. -/
def Node.withMoments? : Node → Option Node
  | .array items => do return .array (← itemsWithMoments? items)
  | .table origin fields =>
    match Fields.momentNode? fields with
    | some node => node.moment?
    | none => do return .table origin (← fieldsWithMoments? fields)
  | .tables items => do return .array (← tablesWithMoments? items)
  | node => some node

def itemsWithMoments? : List Node → Option (List Node)
  | [] => some []
  | item :: rest => do return (← item.withMoments?) :: (← itemsWithMoments? rest)

def fieldsWithMoments? : List (String × Node) → Option (List (String × Node))
  | [] => some []
  | (name, node) :: rest => do
    return (name, ← node.withMoments?) :: (← fieldsWithMoments? rest)

def tablesWithMoments? : List (List (String × Node)) → Option (List Node)
  | [] => some []
  | fields :: rest => do
    let first ← match Fields.momentNode? fields with
      | some node => node.moment?
      | none => (fieldsWithMoments? fields).map (Node.table .header)
    return first :: (← tablesWithMoments? rest)

end

/-- The root of a document with its moments.  The root itself has to be a table. -/
def Fields.withMoments? (fields : Fields) : Option Fields :=
  match fields.momentNode? with
  | some _ => none
  | none => fieldsWithMoments? fields

end Toml
end KernelDepot
