/-
Include directives.

A directive is found in the code of a line, comments left out: blanks, a `#`,
blanks, the word `include`, blanks, and a name between double quotes or angle
brackets.  The name ends at the first closing mark and is not blank.  Conditional
blocks are not looked at, so the directives of a text are those of all branches.
-/
import KernelDepot.Include.Comment
import KernelDepot.Text.Blank
import KernelDepot.Text.Lines
import KernelDepot.Text.Utf8

namespace KernelDepot

structure Directive where
  name : String
  /-- Written with quotes and not with angle brackets. -/
  quoted : Bool
  /-- The line of the directive, counted from one and kept in 32 bits. -/
  line : UInt32
  deriving DecidableEq, Repr

namespace Directive

open Text

def delimited? (cs : List Char) : Option (List Char × Bool) :=
  match cs with
  | '"' :: rest => (cut? ['"'] rest).map fun (name, _) => (trim name, true)
  | '<' :: rest => (cut? ['>'] rest).map fun (name, _) => (trim name, false)
  | _ => none

/-- The name in the code of a line, if the line is a directive. -/
def inCode? (code : List Char) : Option (List Char × Bool) := do
  let rest ← after? ['#'] (trimStart code)
  let rest ← after? "include".toList (trimStart rest)
  let (name, quoted) ← delimited? (trimStart rest)
  if name.isEmpty then none else some (name, quoted)

/-- The directives of some numbered lines; `inBlock` says whether a block comment
is open at the start of the first one. -/
def ofLines (inBlock : Bool) : List (Nat × List Char) → List Directive
  | [] => []
  | (number, line) :: rest =>
    let (code, isOpen) := Comment.strip inBlock line
    let more := ofLines isOpen rest
    match inCode? code with
    | some (name, quoted) => ⟨String.ofList name, quoted, .ofNat number⟩ :: more
    | none => more

def ofText (text : List Char) : List Directive := ofLines false (numberedLines text)

def ofBytes (content : Bytes) : List Directive := ofText (lossy content)

end Directive
end KernelDepot
