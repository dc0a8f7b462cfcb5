/-
Texts in TOML.

A text stands between double quotes, with escapes, or between apostrophes, as it is.
Three of either make a text of several lines, which starts behind a newline that
follows the opening mark directly, and which may hold one or two of its quotes at the
end.  A newline of two characters counts as one.
-/
import KernelDepot.Number.Decimal

namespace KernelDepot
namespace Toml

def prepend (c : Char) (r : Option (List Char × List Char)) : Option (List Char × List Char) :=
  r.map fun (cs, rest) => (c :: cs, rest)

def isBlank (c : Char) : Bool := c == ' ' || c == '\t'

def skipBlanks (cs : List Char) : List Char := cs.dropWhile isBlank

/-- Whether a character may stand as itself: no control character except the tab. -/
def isPlain (c : Char) : Bool := c == '\t' || (0x20 ≤ c.toNat && c.toNat != 0x7F)

def afterNewline? : List Char → Option (List Char)
  | '\n' :: rest => some rest
  | '\r' :: '\n' :: rest => some rest
  | _ => none

def afterChar? (c : Char) : List Char → Option (List Char)
  | d :: rest => if d = c then some rest else none
  | [] => none

def skipSpace : List Char → List Char
  | ' ' :: rest | '\t' :: rest | '\n' :: rest => skipSpace rest
  | '\r' :: '\n' :: rest => skipSpace rest
  | cs => cs

/-- The character that hexadecimal digits stand for, if it is one. -/
def charOf? (digits : List Char) : Option Char := do
  let n ← digits.foldlM (fun acc c => do return acc * 16 + (← Number.digitValue? 16 c)) 0
  if n < 0xD800 ∨ (0xE000 ≤ n ∧ n < 0x110000) then some (Char.ofNat n) else none

/-- The character of an escape, without its backslash. -/
def escaped? : List Char → Option (Char × List Char)
  | 'b' :: rest => some (Char.ofNat 8, rest)
  | 't' :: rest => some ('\t', rest)
  | 'n' :: rest => some ('\n', rest)
  | 'f' :: rest => some (Char.ofNat 12, rest)
  | 'r' :: rest => some ('\r', rest)
  | '"' :: rest => some ('"', rest)
  | '\\' :: rest => some ('\\', rest)
  | 'u' :: rest =>
    if rest.length < 4 then none else (charOf? (rest.take 4)).map fun c => (c, rest.drop 4)
  | 'U' :: rest =>
    if rest.length < 8 then none else (charOf? (rest.take 8)).map fun c => (c, rest.drop 8)
  | _ => none

/-- Read the rest of a text of one line, with at most `fuel` characters. -/
def readQuoted : Nat → List Char → Option (List Char × List Char)
  | 0, _ | _, [] => none
  | _, '"' :: rest => some ([], rest)
  | fuel + 1, '\\' :: rest => do
    let (c, rest) ← escaped? rest
    prepend c (readQuoted fuel rest)
  | fuel + 1, c :: rest => if isPlain c then prepend c (readQuoted fuel rest) else none

/-- Read the rest of a literal text of one line. -/
def readLiteral : List Char → Option (List Char × List Char)
  | [] => none
  | c :: rest =>
    if c.toNat = 0x27 then some ([], rest)
    else if isPlain c then prepend c (readLiteral rest)
    else none

/-- Behind three quotes that end a text, up to two more belong to it. -/
def closing (quote : Char) (rest : List Char) : List Char × List Char :=
  let extra := min (rest.takeWhile (· = quote)).length 2
  (List.replicate extra quote, rest.drop extra)

/-- Whether a text starts with three of a quote. -/
def startsTriple (quote : Char) (cs : List Char) : Bool := (List.replicate 3 quote).isPrefixOf cs

/-- Read the rest of a text of several lines, with escapes unless it is `literal`.  A
backslash at the end of a line joins the line to the next text that is not blank. -/
def readLong (quote : Char) (literal : Bool) : Nat → List Char → Option (List Char × List Char)
  | 0, _ | _, [] => none
  | fuel + 1, c :: rest =>
    if startsTriple quote (c :: rest) then some (closing quote (rest.drop 2))
    else if c = '\\' ∧ ¬ literal then
      match afterNewline? (skipBlanks rest) with
      | some more => readLong quote literal fuel (skipSpace more)
      | none => do
        let (e, rest) ← escaped? rest
        prepend e (readLong quote literal fuel rest)
    else
      match afterNewline? (c :: rest) with
      | some more => prepend '\n' (readLong quote literal fuel more)
      | none => if isPlain c then prepend c (readLong quote literal fuel rest) else none

def apostrophe : Char := Char.ofNat 0x27

/-- Read a text with one of the two quotes in front, with at most `fuel` characters. -/
def readText (fuel : Nat) (cs : List Char) : Option (String × List Char) :=
  let long (quote : Char) (literal : Bool) (rest : List Char) : Option (List Char × List Char) :=
    readLong quote literal fuel ((afterNewline? rest).getD rest)
  let read : Option (List Char × List Char) :=
    if startsTriple '"' cs then long '"' false (cs.drop 3)
    else if startsTriple apostrophe cs then long apostrophe true (cs.drop 3)
    else match cs with
      | '"' :: rest => readQuoted fuel rest
      | c :: rest => if c = apostrophe then readLiteral rest else none
      | [] => none
  read.map fun (content, rest) => (String.ofList content, rest)

end Toml
end KernelDepot
