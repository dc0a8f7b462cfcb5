/-
Groups of lines.

Where conditional directives are well nested they make a tree of a text.  A group is a
sequence of lines and blocks, a block has a branch for its first line and for every `#elif`
and `#else`, and a branch is a group again.  The tree says which lines are live without any
record of what is open: in a live group the first branch of a block whose condition holds is
live, the last one if it is that of `#else`, and no other.
-/
import KernelDepot.Toolchain.Conditional

namespace KernelDepot
namespace Conditional

/-- What a line does to the blocks around it. -/
inductive Role where
  | plain
  | opens
  | elif
  | otherwise
  | closes
  deriving DecidableEq, Repr

def roleOf (line : List Char) : Role :=
  match directive? line with
  | none | some (.define _) => .plain
  | some (.ifdef _) | some (.ifndef _) | some (.ifExpr _) => .opens
  | some (.elif _) => .elif
  | some .otherwise => .otherwise
  | some .endif => .closes

/-- Whether the condition of a line holds.  The lines that open a block have one, and so
has `#elif`. -/
def conditionHolds (defined : List String) (line : List Char) : Bool :=
  match directive? line with
  | some (.ifdef name) => name ∈ defined
  | some (.ifndef name) => name ∉ defined
  | some (.ifExpr condition) | some (.elif condition) => holds defined condition
  | _ => false

/-- The name that a line defines, if there is one. -/
def definedBy (line : List Char) : List String :=
  match directive? line with
  | some (.define name) => if name = "" then [] else [name]
  | _ => []

/-- Whether the conditional directives of some lines are well nested.  Of the blocks that are
open in front of them, the innermost first, it is given whether `#else` has been. -/
def isNested : List Bool → List (List Char) → Bool
  | blocks, [] => blocks.isEmpty
  | blocks, line :: rest =>
    match roleOf line, blocks with
    | .plain, blocks => isNested blocks rest
    | .opens, blocks => isNested (false :: blocks) rest
    | .elif, false :: outer => isNested (false :: outer) rest
    | .otherwise, false :: outer => isNested (true :: outer) rest
    | .closes, _ :: outer => isNested outer rest
    | _, _ => false

mutual

inductive Group where
  | done
  | line (text : List Char) (role : roleOf text = .plain) (rest : Group)
  | block (opener : List Char) (role : roleOf opener = .opens) (body : Group)
    (branches : Branches) (rest : Group)

/-- What follows the first branch of a block. -/
inductive Branches where
  | endif (closer : List Char) (role : roleOf closer = .closes)
  | elif (text : List Char) (role : roleOf text = .elif) (body : Group) (more : Branches)
  | otherwise (text : List Char) (role : roleOf text = .otherwise) (body : Group)
    (closer : List Char) (closes : roleOf closer = .closes)

end

mutual

def Group.lines : Group → List (List Char)
  | .done => []
  | .line text _ rest => text :: rest.lines
  | .block opener _ body branches rest =>
    opener :: (body.lines ++ (branches.lines ++ rest.lines))

def Branches.lines : Branches → List (List Char)
  | .endif closer _ => [closer]
  | .elif text _ body more => text :: (body.lines ++ more.lines)
  | .otherwise text _ body closer _ => text :: (body.lines ++ [closer])

end

/-- A line and whether it stands in a live branch and is no conditional directive. -/
structure MarkedLine where
  text : List Char
  isLive : Bool
  deriving DecidableEq, Repr

/-- What is left of a line. -/
def MarkedLine.kept (m : MarkedLine) : List Char := if m.isLive then m.text else []

/-- The name that a line defines if it is live. -/
def MarkedLine.definedBy (m : MarkedLine) : List String :=
  if m.isLive then Conditional.definedBy m.text else []

def dead (ls : List (List Char)) : List MarkedLine := ls.map fun line => ⟨line, false⟩

mutual

/-- The lines of a live group, marked, and the names that are defined after it. -/
def Group.eval (defined : List String) : Group → List MarkedLine × List String
  | .done => ([], defined)
  | .line text _ rest =>
    let (marked, defined) := rest.eval (definedBy text ++ defined)
    (⟨text, true⟩ :: marked, defined)
  | .block opener _ body branches rest =>
    let (first, others, defined) :=
      if conditionHolds defined opener then
        let (first, defined) := body.eval defined
        (first, dead branches.lines, defined)
      else
        let (others, defined) := branches.eval defined
        (dead body.lines, others, defined)
    let (marked, defined) := rest.eval defined
    (⟨opener, false⟩ :: (first ++ (others ++ marked)), defined)

/-- The same of the branches of a live block of which none so far was live. -/
def Branches.eval (defined : List String) : Branches → List MarkedLine × List String
  | .endif closer _ => ([⟨closer, false⟩], defined)
  | .elif text _ body more =>
    if conditionHolds defined text then
      let (first, defined) := body.eval defined
      (⟨text, false⟩ :: (first ++ dead more.lines), defined)
    else
      let (others, defined) := more.eval defined
      (⟨text, false⟩ :: (dead body.lines ++ others), defined)
  | .otherwise text _ body closer _ =>
    let (last, defined) := body.eval defined
    (⟨text, false⟩ :: (last ++ [⟨closer, false⟩]), defined)

end

end Conditional
end KernelDepot
