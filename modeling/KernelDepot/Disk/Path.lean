/-
Paths as texts.

A path is kept as it was written.  Its components leave out repeated and final
separators and every `.` except one at the very front, so two spellings of a path
can have the same components.  Joining puts a separator between two paths unless
the first ends in one or is empty, and an absolute second path replaces the first.
-/
import KernelDepot.Text.Utf8
import KernelDepot.Text.Search

namespace KernelDepot

inductive PathPart where
  | root
  /-- A `.` at the very front. -/
  | current
  | parent
  | normal (name : String)
  deriving DecidableEq, Repr

namespace Path

def isAbsolute (path : String) : Bool := ['/'].isPrefixOf path.toList

/-- The names between the separators, the empty ones included. -/
def segments (path : String) : List String :=
  (path.toList.splitOn '/').map String.ofList

/-- A path without the separators at its end; the root keeps one. -/
def withoutTail (path : String) : String :=
  let kept := path.toList.reverse.dropWhile (· = '/')
  if kept.isEmpty ∧ isAbsolute path then "/" else String.ofList kept.reverse

/-- The part that a name behind the front of a path stands for. -/
def part? (name : String) : Option PathPart :=
  if name = "" ∨ name = "." then none
  else if name = ".." then some .parent
  else some (.normal name)

def parts (path : String) : List PathPart :=
  let names := segments path
  let front : List PathPart :=
    if isAbsolute path then [.root]
    else if names.head? = some "." then [.current]
    else []
  front ++ names.filterMap part?

def join (dir name : String) : String :=
  if isAbsolute name ∨ dir = "" then name
  else if ['/'].isSuffixOf dir.toList then dir ++ name
  else dir ++ "/" ++ name

/-- The last component, if it is a name. -/
def fileName? (path : String) : Option String :=
  match (parts path).getLast? with
  | some (.normal name) => some name
  | _ => none

/-- What follows the last point of a file name, unless that point is its first
character. -/
def extensionOfName? (name : String) : Option String :=
  match name.toList.reverse.span (· ≠ '.') with
  | (tail, _ :: front) => if front.isEmpty then none else some (String.ofList tail.reverse)
  | (_, []) => none

def extension? (path : String) : Option String :=
  (fileName? path).bind fun name => if name = ".." then none else extensionOfName? name

/-- Whether the components of `path` start with those of `root`. -/
def startsWith (path root : String) : Bool := (parts root).isPrefixOf (parts path)

/-- The path of the directory that holds the last component: all components but
the last, unless that is the root. -/
def parent? (path : String) : Option String :=
  let ps := parts path
  match ps.getLast? with
  | none | some .root => none
  | some _ =>
    let names := ps.dropLast.map fun
      | .root => ""
      | .current => "."
      | .parent => ".."
      | .normal name => name
    match names with
    | [""] => some "/"
    | _ => some ("/".intercalate names)

end Path
end KernelDepot
