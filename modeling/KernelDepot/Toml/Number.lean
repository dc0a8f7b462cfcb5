/-
Numbers in TOML.

An underscore may stand between two digits.  An integer has 64 bits and a sign, and no
leading zeros; in base 16, 8 or 2 it has no sign.  A floating-point number has a
fraction or an exponent, and one that is too large is refused if it is positive.
-/
import KernelDepot.Toml.Node
import KernelDepot.Toml.Text

namespace KernelDepot
namespace Toml

/-- Read digits that follow a digit. -/
def moreDigits (base : Nat) : List Char → Option (List Char × List Char)
  | [] => some ([], [])
  | '_' :: c :: rest =>
    if (Number.digitValue? base c).isSome then prepend c (moreDigits base rest) else none
  | c :: rest =>
    if c = '_' then none
    else if (Number.digitValue? base c).isSome then prepend c (moreDigits base rest)
    else some ([], c :: rest)

/-- Read at least one digit; the underscores are left out. -/
def readDigits (base : Nat) : List Char → Option (List Char × List Char)
  | c :: rest =>
    if (Number.digitValue? base c).isSome then prepend c (moreDigits base rest) else none
  | [] => none

def digitsValue (base : Nat) (digits : List Char) : Nat :=
  digits.foldl (fun acc c => acc * base + (Number.digitValue? base c).getD 0) 0

def integer? (n : Int) : Option Node :=
  if -0x8000000000000000 ≤ n ∧ n < 0x8000000000000000 then some (.integer n) else none

def takeSign : List Char → List Char × List Char
  | '+' :: rest => (['+'], rest)
  | '-' :: rest => (['-'], rest)
  | cs => ([], cs)

/-- Read an integer in a base other than ten, behind its mark. -/
def readBased (base : Nat) (cs : List Char) : Option (Node × List Char) := do
  let (digits, rest) ← readDigits base cs
  return (← integer? (digitsValue base digits), rest)

/-- Read a fraction with its point, if there is one. -/
def readFraction : List Char → Option (List Char × List Char)
  | '.' :: rest => (readDigits 10 rest).map fun (digits, rest) => ('.' :: digits, rest)
  | cs => some ([], cs)

/-- Read an exponent with its mark, if there is one. -/
def readExponent : List Char → Option (List Char × List Char)
  | 'e' :: rest | 'E' :: rest =>
    let (sign, rest) := takeSign rest
    (readDigits 10 rest).map fun (digits, rest) => ('e' :: sign ++ digits, rest)
  | cs => some ([], cs)

def readDecimal (cs : List Char) : Option (Node × List Char) := do
  let (sign, rest) := takeSign cs
  let (whole, rest) ← readDigits 10 rest
  if 1 < whole.length ∧ whole.head? = some '0' then none
  else
    let (fraction, rest) ← readFraction rest
    let (exponent, rest) ← readExponent rest
    if fraction.isEmpty ∧ exponent.isEmpty then
      let n : Int := digitsValue 10 whole
      return (← integer? (if sign = ['-'] then -n else n), rest)
    else
      let value ← Number.Binary64.parse? (sign ++ whole ++ fraction ++ exponent)
      if value = .infinite false then none else return (.float value, rest)

def afterWord? (word : String) (cs : List Char) : Option (List Char) :=
  if word.toList.isPrefixOf cs then some (cs.drop word.length) else none

def readNumber (cs : List Char) : Option (Node × List Char) :=
  match cs with
  | '0' :: 'x' :: rest => readBased 16 rest
  | '0' :: 'o' :: rest => readBased 8 rest
  | '0' :: 'b' :: rest => readBased 2 rest
  | _ =>
    let (sign, rest) := takeSign cs
    match afterWord? "inf" rest, afterWord? "nan" rest with
    | some rest, _ => some (.float (.infinite (sign = ['-'])), rest)
    | none, some rest => some (.float .nan, rest)
    | none, none => readDecimal cs

end Toml
end KernelDepot
