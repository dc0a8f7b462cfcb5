/-
Quoted text.

A text is quoted for a reader: it stands between double quotes, a quote and a
backslash inside it are marked by a backslash, tab, newline, carriage return and
NUL have letters of their own, and a character that is not shown as itself is
written as its number in hexadecimal.  A path is quoted the same way, with the
apostrophe marked as well.
-/
import KernelDepot.Text.Unprintable

namespace KernelDepot
namespace Text

/-- The digits of a number in lowercase hexadecimal, without leading zeros. -/
def hexDigits (n : Nat) : List Char := Nat.toDigits 16 n

def quoteChar (markApostrophe : Bool) (c : Char) : List Char :=
  let marked := ['\\', c]
  if c = '"' ∨ c = '\\' then marked
  else if c = '\t' then ['\\', 't']
  else if c = '\n' then ['\\', 'n']
  else if c = '\r' then ['\\', 'r']
  else if c.toNat = 0 then ['\\', '0']
  else if c.toNat = 0x27 ∧ markApostrophe then marked
  else if isUnprintable c then "\\u\x7b".toList ++ hexDigits c.toNat ++ "\x7d".toList
  else [c]

def quoted (s : String) : String :=
  String.ofList ('"' :: s.toList.flatMap (quoteChar false) ++ ['"'])

def quotedPath (s : String) : String :=
  String.ofList ('"' :: s.toList.flatMap (quoteChar true) ++ ['"'])

def quotedList (texts : List String) : String :=
  "[" ++ ", ".intercalate (texts.map quoted) ++ "]"

end Text
end KernelDepot
