/-
Comments in a line of a program.

A line is read with the knowledge whether a block comment is open at its start.
In code the leftmost of the two comment openers counts: a line comment takes the
rest of the line, and a block comment is replaced by a single space up to its end,
which may be on a later line.  Quotes have no meaning here.
-/
import KernelDepot.Text.Search

namespace KernelDepot
namespace Comment

def blockOpener : List Char := ['/', '*']

def blockCloser : List Char := ['*', '/']

def lineOpener : List Char := ['/', '/']

/-- The code of a line, and whether a block comment is open at its end.
`inBlock` says whether one is open at its start. -/
def strip (inBlock : Bool) (line : List Char) : List Char × Bool :=
  if inBlock then
    match _h : Text.cut? blockCloser line with
    | none => ([], true)
    | some (_, rest) => strip false rest
  else
    match _h : Text.cut? blockOpener line with
    | none =>
      match Text.cut? lineOpener line with
      | none => (line, false)
      | some (code, _) => (code, false)
    | some (code, rest) =>
      -- The slash of the block opener may be the second one of a line opener.
      match Text.cut? lineOpener (code ++ ['/']) with
      | some (shorter, _) => (shorter, false)
      | none =>
        let (more, isOpen) := strip true rest
        (code ++ ' ' :: more, isOpen)
termination_by line.length
decreasing_by
  all_goals exact Text.length_lt_of_cut? (by simp [blockOpener, blockCloser]) _h

end Comment
end KernelDepot
