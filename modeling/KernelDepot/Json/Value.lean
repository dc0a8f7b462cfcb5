/-
JSON values and how they are read.

The reader is strict: no comments, no final commas, no leading zeros, no control
characters in a text, and nothing but blanks behind the value.  It works on the pieces
of a byte sequence, so bytes that are no text are noticed where they stand.  A text
that holds such bytes or half of a surrogate pair is no error by itself; it has no
content, which matters only to a reader that wants the content.

The fields of an object are kept as they stand, repeated names included.  A number
keeps its value if it is an integer.
-/
import KernelDepot.NameTable
import KernelDepot.Number.Decimal
import KernelDepot.Text.Utf8

namespace KernelDepot
namespace Json

inductive Numeral where
  | integer (value : Int)
  /-- A number with a fraction or an exponent, or the negative zero. -/
  | fractional
  deriving DecidableEq, Repr

/-- A value.  A text without content is one that is no sequence of characters. -/
inductive Value where
  | null
  | bool (value : Bool)
  | number (value : Numeral)
  | text (content : Option String)
  | array (items : List Value)
  | object (fields : List (Option String × Value))

/-- The pieces of a byte sequence; a piece that is no character is `none`. -/
abbrev Pieces := List (Option Char)

def isBlank : Option Char → Bool
  | some c => c == ' ' || c == '\t' || c == '\n' || c == '\r'
  | none => false

def skipBlanks (ps : Pieces) : Pieces := ps.dropWhile isBlank

def afterWord? (word : List Char) (ps : Pieces) : Option Pieces :=
  if (word.map some).isPrefixOf ps then some (ps.drop word.length) else none

/-- One element of a text, before surrogates are put together. -/
inductive TextUnit where
  | char (c : Char)
  | surrogate (n : Nat)
  | broken
  deriving DecidableEq, Repr

namespace TextUnit

/-- The unit that an escaped number stands for. -/
def ofNumber (n : Nat) : TextUnit :=
  if 0xD800 ≤ n ∧ n < 0xE000 then surrogate n else char (Char.ofNat n)

/-- The characters of some units; a surrogate counts only as half of a pair. -/
def assemble : List TextUnit → Option (List Char)
  | [] => some []
  | char c :: rest => (assemble rest).map (c :: ·)
  | surrogate high :: surrogate low :: rest =>
    if high < 0xDC00 ∧ 0xDC00 ≤ low then
      (assemble rest).map (Char.ofNat (0x10000 + (high - 0xD800) * 0x400 + (low - 0xDC00)) :: ·)
    else none
  | _ :: _ => none

end TextUnit

def escaped? (c : Char) : Option Char :=
  if c = '"' ∨ c = '\\' ∨ c = '/' then some c
  else if c = 'b' then some (Char.ofNat 8)
  else if c = 'f' then some (Char.ofNat 12)
  else if c = 'n' then some '\n'
  else if c = 'r' then some '\r'
  else if c = 't' then some '\t'
  else none

def fourDigits? (a b c d : Option Char) : Option Nat :=
  [a, b, c, d].foldlM (fun acc piece => do
    let digit ← Number.digitValue? 16 (← piece)
    return acc * 16 + digit) 0

/-- The units of a text up to its closing quote, and what follows that. -/
def textUnits : Pieces → Option (List TextUnit × Pieces)
  | [] => none
  | some '"' :: rest => some ([], rest)
  | some '\\' :: some 'u' :: a :: b :: c :: d :: rest => do
    let n ← fourDigits? a b c d
    let (units, rest) ← textUnits rest
    return (.ofNumber n :: units, rest)
  | some '\\' :: some c :: rest => do
    let e ← escaped? c
    let (units, rest) ← textUnits rest
    return (.char e :: units, rest)
  | some '\\' :: _ => none
  | some c :: rest => do
    if c.toNat < 0x20 then none
    else
      let (units, rest) ← textUnits rest
      return (.char c :: units, rest)
  | none :: rest => do
    let (units, rest) ← textUnits rest
    return (.broken :: units, rest)

/-- Read the rest of a text whose opening quote was read. -/
def readText (ps : Pieces) : Option (Option String × Pieces) :=
  (textUnits ps).map fun (units, rest) => ((TextUnit.assemble units).map String.ofList, rest)

def isDigit : Option Char → Bool
  | some c => c.isDigit
  | none => false

/-- The digits in front, and what follows them. -/
def takeDigits (ps : Pieces) : List Char × Pieces :=
  ((ps.takeWhile isDigit).filterMap id, ps.dropWhile isDigit)

def digitsValue (digits : List Char) : Nat :=
  digits.foldl (fun acc c => acc * 10 + (c.toNat - 0x30)) 0

/-- Read past at least one digit. -/
def afterDigits? (ps : Pieces) : Option Pieces :=
  match takeDigits ps with
  | ([], _) => none
  | (_, rest) => some rest

/-- Read past a fraction, if there is one; the flag says whether there was. -/
def afterFraction? : Pieces → Option (Bool × Pieces)
  | some '.' :: rest => (afterDigits? rest).map fun rest => (true, rest)
  | ps => some (false, ps)

/-- Read past an exponent, if there is one; the flag says whether there was. -/
def afterExponent? : Pieces → Option (Bool × Pieces)
  | some 'e' :: rest | some 'E' :: rest =>
    let rest := match rest with
      | some '+' :: more | some '-' :: more => more
      | _ => rest
    (afterDigits? rest).map fun rest => (true, rest)
  | ps => some (false, ps)

/-- Read a number without its sign. -/
def readUnsigned (negative : Bool) (ps : Pieces) : Option (Numeral × Pieces) := do
  let (digits, rest) := takeDigits ps
  if digits.isEmpty ∨ (1 < digits.length ∧ digits.head? = some '0') then none
  else
    let (fraction, rest) ← afterFraction? rest
    let (exponent, rest) ← afterExponent? rest
    let n := digitsValue digits
    if fraction ∨ exponent ∨ (negative ∧ n = 0) then return (.fractional, rest)
    else return (.integer (if negative then -(n : Int) else n), rest)

def readNumber : Pieces → Option (Numeral × Pieces)
  | some '-' :: rest => readUnsigned true rest
  | ps => readUnsigned false ps

mutual

/-- Read a value, with at most `fuel` nested steps. -/
def readValue : Nat → Pieces → Option (Value × Pieces)
  | 0, _ => none
  | fuel + 1, ps =>
    match skipBlanks ps with
    | some '"' :: rest => (readText rest).map fun (content, rest) => (.text content, rest)
    | some '[' :: rest =>
      match skipBlanks rest with
      | some ']' :: rest => some (.array [], rest)
      | _ => (readItems fuel rest).map fun (items, rest) => (.array items, rest)
    | some '\x7b' :: rest =>
      match skipBlanks rest with
      | some '\x7d' :: rest => some (.object [], rest)
      | _ => (readFields fuel rest).map fun (fields, rest) => (.object fields, rest)
    | some 'n' :: rest => (afterWord? "ull".toList rest).map fun rest => (.null, rest)
    | some 't' :: rest => (afterWord? "rue".toList rest).map fun rest => (.bool true, rest)
    | some 'f' :: rest => (afterWord? "alse".toList rest).map fun rest => (.bool false, rest)
    | ps => (readNumber ps).map fun (n, rest) => (.number n, rest)

/-- Read the items of an array, at least one, and the closing bracket. -/
def readItems : Nat → Pieces → Option (List Value × Pieces)
  | 0, _ => none
  | fuel + 1, ps => do
    let (item, rest) ← readValue fuel ps
    match skipBlanks rest with
    | some ',' :: rest =>
      let (items, rest) ← readItems fuel rest
      return (item :: items, rest)
    | some ']' :: rest => return ([item], rest)
    | _ => none

/-- Read the fields of an object, at least one, and the closing brace. -/
def readFields : Nat → Pieces → Option (List (Option String × Value) × Pieces)
  | 0, _ => none
  | fuel + 1, ps => do
    match skipBlanks ps with
    | some '"' :: rest =>
      let (name, rest) ← readText rest
      match skipBlanks rest with
      | some ':' :: rest =>
        let (value, rest) ← readValue fuel rest
        match skipBlanks rest with
        | some ',' :: rest =>
          let (fields, rest) ← readFields fuel rest
          return ((name, value) :: fields, rest)
        | some '\x7d' :: rest => return ([(name, value)], rest)
        | _ => none
      | _ => none
    | _ => none

end

/-- Read a value that makes up a whole byte sequence. -/
def read? (bs : Bytes) : Option Value := do
  let ps := Text.Utf8.decode bs
  let (value, rest) ← readValue (ps.length + 1) ps
  if (skipBlanks rest).isEmpty then some value else none

namespace Value

def text? : Value → Option String
  | text content => content
  | _ => none

def bool? : Value → Option Bool
  | bool value => some value
  | _ => none

def natBelow? (limit : Nat) : Value → Option Nat
  | number (.integer (.ofNat n)) => if n < limit then some n else none
  | _ => none

def texts? : Value → Option (List String)
  | array items => items.mapM text?
  | _ => none

/-- A table of texts; the last value of a name counts. -/
def textTable? : Value → Option (NameTable String)
  | object fields => do
    let pairs ← fields.mapM fun (name, value) => do return (← name, ← value.text?)
    return .ofList pairs
  | _ => none

/-- The values of named fields.  They are given by name, each at most once among any
other fields, or by position without names; the fields at the end may be absent. -/
def record? (names : List String) : Value → Option (List (String × Value))
  | object fields => do
    let fields ← fields.mapM fun (name, value) => do return (← name, value)
    let known := fields.filter fun f => f.1 ∈ names
    if (known.map (·.1)).Nodup then some known else none
  | array items => if items.length ≤ names.length then some (names.zip items) else none
  | _ => none

end Value
end Json
end KernelDepot
