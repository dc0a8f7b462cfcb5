/-
Reading the log of a toolchain.

Two layouts are known.  Compilers with the EDG front end write
`file(12): error: message`, clang and GCC write `file:12:5: error: message` with
the column left out at will.  A line is offered to the first layout and then to
the second, and a line that fits neither, such as an excerpt of the source or a
summary, is no diagnostic.
-/
import KernelDepot.Diagnostic
import KernelDepot.Text.Blank
import KernelDepot.Text.Lines
import KernelDepot.Text.Search

namespace KernelDepot
namespace Diagnostic

open Text

/-- A trimmed number of 32 bits. -/
def number? (cs : List Char) : Option Nat :=
  match Number.parseUnsigned 10 Number.limit32 (trim cs) with
  | .ok n => some n
  | .error _ => none

/-- The severity that a head such as `catastrophic error` or `warning #177-D`
announces. -/
def severity? (head : List Char) : Option Severity :=
  if "error".toList.isSuffixOf head ∨ "error".toList.isPrefixOf head then some .error
  else if "warning".toList.isPrefixOf head then some .warning
  else if "note".toList.isPrefixOf head ∨ "remark".toList.isPrefixOf head then some .note
  else none

def splitSeverity? (cs : List Char) : Option (Severity × List Char) := do
  let (head, message) ← cut? [':'] cs
  let severity ← severity? (trim head)
  return (severity, trim message)

def make? (file : List Char) (line : Nat) (column : Option Nat) (body : List Char) :
    Option Diagnostic := do
  if file.isEmpty then none
  let (severity, message) ← splitSeverity? body
  return ⟨String.ofList file, line, column, severity, String.ofList message⟩

/-- Read a line of the form `file(line): head: message`. -/
def ofEdgLine? (line : List Char) : Option Diagnostic := do
  let (file, rest) ← cut? ['('] line
  let (digits, body) ← cut? "): ".toList rest
  let number ← number? digits
  make? (trim file) number none body

/-- Read a line of the form `file:line:column: head: message`, in which the column
may be missing. -/
def ofColonLine? (line : List Char) : Option Diagnostic := do
  let (file, rest) ← cut? [':'] line
  let (digits, body) := (cut? [':'] rest).map (fun (a, b) => (a, some b)) |>.getD (rest, none)
  let number ← number? digits
  let body ← body
  let (third, tail) := (cut? [':'] body).map (fun (a, b) => (a, some b)) |>.getD (body, none)
  match number? third with
  | some column => do
    let tail ← tail
    make? (trim file) number (some column) (trimStart tail)
  | none => make? (trim file) number none (trimStart body)

def ofLog (log : String) : List Diagnostic :=
  (lines log.toList).filterMap fun line => (ofEdgLine? line).or (ofColonLine? line)

/-- What stands in front of the name of a header that could not be opened. -/
def missingMark : List Char := "cannot open source file \"".toList

def missingInLine? (line : List Char) : Option (List Char) := do
  let (_, rest) ← cut? missingMark line
  let (name, _) ← cut? ['"'] rest
  return name

def missingInclude? (log : String) : Option String :=
  ((lines log.toList).findSome? missingInLine?).map String.ofList

end Diagnostic
end KernelDepot
