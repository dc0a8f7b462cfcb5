/-
Floating-point numbers of 64 bits, in exact arithmetic.

A finite number is a natural number times a power of two.  `nearest` rounds a
quotient to 53 significant bits, a half to the even neighbour, with the exponent
range of the format, and answers `none` when the result is too large.  `shortest`
writes a number with the fewest digits that read back: it takes the interval of
reals that round to the number, whose ends belong to it when the mantissa is
even, and looks for the coarsest decimal grid with a point in that interval.
`fixed` writes a quotient with a fixed number of places, a half to the even
neighbour.  No operation here is itself rounded.
-/
import KernelDepot.Number.Decimal

namespace KernelDepot
namespace Number

/-- A quotient rounded to the nearest natural number, a half to the even one. -/
def roundQuotient (num den : Nat) : Nat :=
  let q := num / den
  let twice := 2 * (num % den)
  if den < twice ∨ (den = twice ∧ q % 2 = 1) then q + 1 else q

/-- A quotient with exactly `places` digits behind the point. -/
def fixed (places num den : Nat) : List Char :=
  let scale := Nat.pow 10 places
  let n := roundQuotient (num * scale) den
  if places = 0 then decimal n
  else decimal (n / scale) ++ '.' :: paddedDecimal places (n % scale)

/-- The number `mantissa * 2 ^ exponent`. -/
structure Dyadic where
  mantissa : Nat
  exponent : Int
  deriving DecidableEq, Repr

namespace Dyadic

def powFraction (base : Nat) (e : Int) : Nat × Nat :=
  if 0 ≤ e then (Nat.pow base e.toNat, 1) else (1, Nat.pow base (-e).toNat)

def fraction (d : Dyadic) : Nat × Nat :=
  let (num, den) := powFraction 2 d.exponent
  (d.mantissa * num, den)

def leastExponent : Int := -1074

def greatestExponent : Int := 971

def mantissaLimit : Nat := 0x20000000000000

/-- The finite number nearest to `num / den`, unless that is too large. -/
def nearest (num den : Nat) : Option Dyadic :=
  if num = 0 then some ⟨0, leastExponent⟩ else
  let guess : Int := (num.log2 : Int) - (den.log2 : Int) - 53
  let scaled (e : Int) : Nat × Nat :=
    let (n, d) := powFraction 2 e
    (num * d, den * n)
  let fits (e : Int) : Bool :=
    let (n, d) := scaled e
    n < mantissaLimit * d
  let exact := if fits guess then guess else if fits (guess + 1) then guess + 1 else guess + 2
  let e := max exact leastExponent
  let m := let (n, d) := scaled e; roundQuotient n d
  let rounded : Dyadic := if m = mantissaLimit then ⟨mantissaLimit / 2, e + 1⟩ else ⟨m, e⟩
  if greatestExponent < rounded.exponent then none else some rounded

/-- The digits `c` and the place `p` of the shortest decimal `c * 10 ^ p` that
reads back as the number; the number is not zero. -/
def shortest (d : Dyadic) : Nat × Int :=
  let below := if d.mantissa = mantissaLimit / 2 ∧ leastExponent < d.exponent then 1 else 2
  let (unitNum, unitDen) := powFraction 2 (d.exponent - 2)
  let value := 4 * d.mantissa * unitNum
  let low := (4 * d.mantissa - below) * unitNum
  let high := (4 * d.mantissa + 2) * unitNum
  let closed := d.mantissa % 2 = 0
  let hit (p : Int) : Option (Nat × Int) :=
    let (n, m) := powFraction 10 p
    -- Everything is compared over the common denominator `unitDen * m`.
    let v := value * m
    let grid (c : Nat) : Nat := c * n * unitDen
    let inside (c : Nat) : Bool :=
      if closed then low * m ≤ grid c && grid c ≤ high * m
      else low * m < grid c && grid c < high * m
    let c := v / (n * unitDen)
    let lower := c != 0 && inside c
    let upper := inside (c + 1)
    if lower && upper then
      if grid (c + 1) - v ≤ v - grid c then some (c + 1, p) else some (c, p)
    else if lower then some (c, p)
    else if upper then some (c + 1, p)
    else none
  let places := (List.range 660).map fun (i : Nat) => (310 : Int) - i
  (places.findSome? hit).getD (d.mantissa, 0)

end Dyadic

/-- A decimal `c * 10 ^ p` in positional form, without an exponent. -/
def positional (c : Nat) (p : Int) : List Char :=
  let digits := decimal c
  if 0 ≤ p then digits ++ List.replicate p.toNat '0'
  else
    let places := (-p).toNat
    if places < digits.length then
      digits.take (digits.length - places) ++ '.' :: digits.drop (digits.length - places)
    else '0' :: '.' :: List.replicate (places - digits.length) '0' ++ digits

inductive Binary64 where
  | finite (negative : Bool) (size : Dyadic)
  | infinite (negative : Bool)
  | nan
  deriving DecidableEq, Repr

namespace Binary64

/-- The number nearest to the decimal `digits * 10 ^ exponent` with a sign. -/
def ofDecimal (negative : Bool) (digits : Nat) (exponent : Int) : Binary64 :=
  let zero := finite negative ⟨0, Dyadic.leastExponent⟩
  if digits = 0 then zero
  else
    -- Ten is more than the third power of two, so this bounds the exponent of the value.
    let size : Int := digits.log2 + 3 * exponent
    if 0 ≤ exponent ∧ 1100 < size then infinite negative
    else if exponent < 0 ∧ size < -1100 then zero
    else
      let (num, den) := Dyadic.powFraction 10 exponent
      match Dyadic.nearest (digits * num) den with
      | some d => finite negative d
      | none => infinite negative

def isZero : Binary64 → Bool
  | finite _ d => d.mantissa == 0
  | _ => false

/-- The shortest text that reads back, in positional form. -/
def text : Binary64 → List Char
  | finite negative d =>
    let sign := if negative then ['-'] else []
    if d.mantissa = 0 then sign ++ ['0']
    else
      let (c, p) := d.shortest
      sign ++ positional c p
  | infinite negative => (if negative then ['-'] else []) ++ "inf".toList
  | nan => "NaN".toList

def takeDigits (cs : List Char) : List Char × List Char :=
  (cs.takeWhile fun c => (digitValue? 10 c).isSome, cs.dropWhile fun c => (digitValue? 10 c).isSome)

def digitsValue (cs : List Char) : Nat :=
  cs.foldl (fun acc c => acc * 10 + (digitValue? 10 c).getD 0) 0

/-- Read an exponent: an optional sign and at least one digit, to the end. -/
def parseExponent (cs : List Char) : Option Int :=
  let (negative, digits) := match cs with
    | '-' :: rest => (true, rest)
    | '+' :: rest => (false, rest)
    | _ => (false, cs)
  let (ds, rest) := takeDigits digits
  if ds.isEmpty ∨ ¬ rest.isEmpty then none
  else
    -- Beyond a million the value is zero or infinite whatever the digits are.
    let n := min (digitsValue ds) 1000000
    some (if negative then -(n : Int) else n)

/-- Read an unsigned decimal: digits with an optional point, at least one digit
on either side of it, and an optional exponent. -/
def parseUnsignedDecimal (negative : Bool) (cs : List Char) : Option Binary64 :=
  let (whole, rest) := takeDigits cs
  let (part, tail) := match rest with
    | '.' :: more => takeDigits more
    | _ => ([], rest)
  if whole.isEmpty ∧ part.isEmpty then none
  else
    let digits := digitsValue (whole ++ part)
    let shift : Int := -(part.length : Int)
    match tail with
    | [] => some (ofDecimal negative digits shift)
    | e :: ds =>
      if e = 'e' ∨ e = 'E' then
        (parseExponent ds).map fun x => ofDecimal negative digits (x + shift)
      else none

/-- Read a number: an optional sign, then a decimal or the name of an infinity or
of the value that is no number, in any case. -/
def parse? (cs : List Char) : Option Binary64 :=
  let (negative, rest) := match cs with
    | '-' :: rest => (true, rest)
    | '+' :: rest => (false, rest)
    | _ => (false, cs)
  let name := rest.map Char.toLower
  if name = "inf".toList ∨ name = "infinity".toList then some (infinite negative)
  else if name = "nan".toList then some nan
  else parseUnsignedDecimal negative rest

end Binary64

/-- The quotient of two counts as a floating-point number, with `places` digits. -/
def quotientText (places num den : Nat) : String :=
  let asFraction (n : Nat) : Nat × Nat := ((Dyadic.nearest n 1).getD ⟨0, 0⟩).fraction
  let (n, n') := asFraction num
  let (d, d') := asFraction den
  let (q, q') := ((Dyadic.nearest (n * d') (n' * d)).getD ⟨0, 0⟩).fraction
  String.ofList (fixed places q q')

end Number
end KernelDepot
