/-
Conditional blocks.

A text is read line by line with a stack of open blocks and a set of defined names.
A line is live when no open block around it is switched off.  Of the branches of a
block the first whose condition holds is switched on, `#else` when none was, and
`#define` counts only where it is live.  The lines that are not live and the lines of
the conditional directives become empty, so every line keeps its number.
-/
import KernelDepot.Text.Blank
import KernelDepot.Text.Lines
import KernelDepot.Text.Search

namespace KernelDepot
namespace Conditional

open Text

structure Block where
  /-- The line that opened the block was live. -/
  outer : Bool
  /-- The current branch is switched on. -/
  branch : Bool
  /-- Some branch so far was switched on. -/
  taken : Bool
  deriving DecidableEq, Repr

/-- What the lines so far leave behind: the open blocks, the innermost first, and the
defined names. -/
structure State where
  blocks : List Block
  defined : List String
  deriving DecidableEq, Repr

def State.isLive (s : State) : Bool :=
  match s.blocks with
  | [] => true
  | block :: _ => block.outer && block.branch

def define (defined : List String) (name : String) : List String := name :: defined

inductive Directive where
  | ifdef (name : String)
  | ifndef (name : String)
  | ifExpr (condition : List Char)
  | elif (condition : List Char)
  | otherwise
  | endif
  | define (name : String)
  deriving DecidableEq, Repr

/-- The name that a definition starts with. -/
def definedName (rest : List Char) : List Char := rest.takeWhile fun c => !isBlank c && c != '('

def directive? (line : List Char) : Option Directive := do
  let body ← after? ['#'] (trimStart line)
  let body := trimStart body
  let word := String.ofList (body.takeWhile fun c => !isBlank c)
  let rest := trim (body.dropWhile fun c => !isBlank c)
  if word = "ifdef" then some (.ifdef (String.ofList rest))
  else if word = "ifndef" then some (.ifndef (String.ofList rest))
  else if word = "if" then some (.ifExpr rest)
  else if word = "elif" then some (.elif rest)
  else if word = "else" then some .otherwise
  else if word = "endif" then some .endif
  else if word = "define" then some (.define (String.ofList (definedName rest)))
  else none

def dropFront (c : Char) (cs : List Char) : List Char := cs.dropWhile (· == c)

def dropBack (c : Char) (cs : List Char) : List Char := (dropFront c cs.reverse).reverse

/-- What stands behind the negations in front of a condition and the blanks around them;
`odd` says whether the number of negations so far is odd. -/
def skipNegations (odd : Bool) : List Char → Bool × List Char
  | [] => (odd, [])
  | '!' :: rest => skipNegations (!odd) rest
  | c :: rest => if isBlank c then skipNegations odd rest else (odd, c :: rest)

/-- Whether a condition that is no negation holds: `defined` of a name, and everything else
except a zero. -/
def holdsPlain (defined : List String) (expression : List Char) : Bool :=
  match after? "defined".toList expression with
  | some rest => String.ofList (trim (dropBack ')' (dropFront '(' (trim rest)))) ∈ defined
  | none => expression != ['0']

/-- Whether a condition holds, which may be negated any number of times. -/
def holds (defined : List String) (condition : List Char) : Bool :=
  let (odd, expression) := skipNegations false (trimEnd condition)
  odd != holdsPlain defined expression

def State.enter (s : State) (condition : Bool) : State :=
  { s with blocks := ⟨s.isLive, condition, condition⟩ :: s.blocks }

/-- Change the innermost block, if there is one. -/
def State.alter (s : State) (f : Block → Block) : State :=
  match s.blocks with
  | [] => s
  | block :: rest => { s with blocks := f block :: rest }

def State.apply (s : State) : Directive → State
  | .ifdef name => s.enter (name ∈ s.defined)
  | .ifndef name => s.enter (name ∉ s.defined)
  | .ifExpr condition => s.enter (holds s.defined condition)
  | .elif condition =>
    s.alter fun block =>
      let on := !block.taken && holds s.defined condition
      { block with branch := on, taken := block.taken || on }
  | .otherwise => s.alter fun block => { block with branch := !block.taken, taken := true }
  | .endif => { s with blocks := s.blocks.tail }
  | .define name =>
    if s.isLive && name != "" then { s with defined := define s.defined name } else s

def Directive.isStructural : Directive → Bool
  | .define _ => false
  | _ => true

/-- Read a line: what is left of it and the state after it. -/
def readLine (s : State) (line : List Char) : List Char × State :=
  match directive? line with
  | none => (if s.isLive then line else [], s)
  | some d => (if s.isLive && !d.isStructural then line else [], s.apply d)

/-- Read some lines: what is left of each and the state after them. -/
def readLines : State → List (List Char) → List (List Char) × State
  | s, [] => ([], s)
  | s, line :: rest =>
    let (kept, s) := readLine s line
    let (more, s) := readLines s rest
    (kept :: more, s)

/-- The live lines of a text, the others made empty, and the defined names after it. -/
def liveLines (defined : List String) (text : List Char) : List (List Char) × List String :=
  let (kept, s) := readLines ⟨[], defined⟩ (lines text)
  (kept, s.defined)

def unlines (ls : List (List Char)) : List Char := ls.flatMap fun line => line ++ ['\n']

/-- The live part of a text and the defined names after it. -/
def liveText (defined : List String) (text : List Char) : List Char × List String :=
  let (kept, defined) := liveLines defined text
  (unlines kept, defined)

end Conditional
end KernelDepot
