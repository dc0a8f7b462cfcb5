/-
Lines of a text.

A line ends at a newline, and one carriage return directly in front of that
newline belongs to the end of the line.  A last line without a newline keeps its
carriage return.  Nothing follows a final newline, so the empty text has no
lines and a text of `n` newlines that ends in one has `n` lines.
-/

namespace KernelDepot
namespace Text

def lines : List Char → List (List Char)
  | [] => []
  | '\n' :: rest => [] :: lines rest
  | '\r' :: '\n' :: rest => [] :: lines rest
  | c :: rest =>
    match lines rest with
    | [] => [[c]]
    | line :: more => (c :: line) :: more

/-- Lines paired with their numbers, counted from `start`. -/
def numberedFrom (start : Nat) : List (List Char) → List (Nat × List Char)
  | [] => []
  | line :: more => (start, line) :: numberedFrom (start + 1) more

/-- The lines of a text with their numbers, counted from one. -/
def numberedLines (text : List Char) : List (Nat × List Char) :=
  numberedFrom 1 (lines text)

theorem lines_newline (rest : List Char) : lines ('\n' :: rest) = [] :: lines rest := by
  simp [lines]

theorem length_numberedFrom (start : Nat) (ls : List (List Char)) :
    (numberedFrom start ls).length = ls.length := by
  induction ls generalizing start with
  | nil => rfl
  | cons line more ih => simp [numberedFrom, ih]

end Text
end KernelDepot
