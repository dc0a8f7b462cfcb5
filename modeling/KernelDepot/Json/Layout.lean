/-
Laying out JSON.

A text stands between double quotes.  Quotes, backslashes and the control characters
are escaped and nothing else is.  An object has a line for each of its members,
indented by two spaces more than the object itself; one without members is written as
two braces.
-/
import KernelDepot.Digest.Hex

namespace KernelDepot
namespace Json

def escape (c : Char) : List Char :=
  let n := c.toNat
  if c = '"' ∨ c = '\\' then ['\\', c]
  else if n = 8 then ['\\', 'b']
  else if n = 9 then ['\\', 't']
  else if n = 10 then ['\\', 'n']
  else if n = 12 then ['\\', 'f']
  else if n = 13 then ['\\', 'r']
  else if n < 0x20 then ['\\', 'u', '0', '0', Hex.digit (n / 16), Hex.digit (n % 16)]
  else [c]

def quote (s : String) : List Char := '"' :: s.toList.flatMap escape ++ ['"']

/-- The members of an object, all but the last with a comma behind them, each on a
line of its own. -/
def memberLines (depth : Nat) : List (String × List Char) → List Char
  | [] => []
  | (name, value) :: rest =>
    List.replicate (2 * depth) ' ' ++ quote name ++ [':', ' '] ++ value ++
      (if rest.isEmpty then ['\n'] else [',', '\n']) ++ memberLines depth rest

/-- An object at a depth of indentation, with members that are laid out already. -/
def object (depth : Nat) (members : List (String × List Char)) : List Char :=
  if members.isEmpty then ['\x7b', '\x7d']
  else
    '\x7b' :: '\n' :: memberLines (depth + 1) members ++ List.replicate (2 * depth) ' ' ++ ['\x7d']

def textObject (depth : Nat) (entries : List (String × String)) : List Char :=
  object depth (entries.map fun (name, text) => (name, quote text))

end Json
end KernelDepot
