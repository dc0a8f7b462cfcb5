/-
Diagnostics of a toolchain.

A diagnostic points at a line of a file, with a column when the toolchain knows
one, and has a severity and a message.  Its written form is that of clang and GCC;
`Diagnostic.Log` reads it back.
-/
import KernelDepot.Number.Decimal

namespace KernelDepot

inductive Severity where
  | error
  | warning
  | note
  deriving DecidableEq, Repr

def Severity.name : Severity → String
  | error => "error"
  | warning => "warning"
  | note => "note"

/-- A single report of a toolchain about a line of a file. -/
structure Diagnostic where
  file : String
  line : Nat
  column : Option Nat
  severity : Severity
  message : String
  deriving DecidableEq, Repr

namespace Diagnostic

/-- The written form: `file:line:column: severity: message`, without the column
when there is none. -/
def text (d : Diagnostic) : String :=
  d.file ++ ":" ++ Number.decimalText d.line ++ ":" ++
    (match d.column with
      | some column => Number.decimalText column ++ ":"
      | none => "") ++
    " " ++ d.severity.name ++ ": " ++ d.message

end Diagnostic
end KernelDepot
