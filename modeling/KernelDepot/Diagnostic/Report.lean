/-
Logs of compilers with the EDG front end.

A report is a line of the form `file(12): head: message`.  The head is a severity with the
number of the message behind it at will.  Between the reports stand other lines, such as
excerpts of the source and the summary.
-/
import KernelDepot.Diagnostic

namespace KernelDepot
namespace Diagnostic

inductive Head where
  | error
  | catastrophicError
  | warning
  /-- A warning with its number, which has `-D` behind it when the severity can be changed. -/
  | numberedWarning (digits : String) (isDigit : ∀ c ∈ digits.toList, c.isDigit = true)
    (isDiscretionary : Bool)
  | note
  | remark

def Head.text : Head → String
  | error => "error"
  | catastrophicError => "catastrophic error"
  | warning => "warning"
  | numberedWarning digits _ isDiscretionary =>
    "warning #" ++ digits ++ if isDiscretionary then "-D" else ""
  | note => "note"
  | remark => "remark"

def Head.severity : Head → Severity
  | error | catastrophicError => .error
  | warning | numberedWarning .. => .warning
  | note | remark => .note

structure Report where
  file : String
  line : Nat
  head : Head
  message : String

namespace Report

def text (r : Report) : String :=
  r.file ++ "(" ++ Number.decimalText r.line ++ "): " ++ r.head.text ++ ": " ++ r.message

def diagnostic (r : Report) : Diagnostic := ⟨r.file, r.line, none, r.head.severity, r.message⟩

end Report

inductive LogLine where
  | report (r : Report)
  | other (text : String)

namespace LogLine

def text : LogLine → String
  | report r => r.text
  | other text => text

def diagnostic? : LogLine → Option Diagnostic
  | report r => some r.diagnostic
  | other _ => none

end LogLine

/-- The lines with a newline between them.  A log that ends in a newline has an empty line at
its end. -/
def logOf (log : List LogLine) : String := "\n".intercalate (log.map LogLine.text)

end Diagnostic
end KernelDepot
