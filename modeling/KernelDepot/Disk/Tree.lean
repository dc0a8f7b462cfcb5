/-
A tree of files, directories and symbolic links.

Entries are kept by their place, the names from the root down to them; the root
itself is a directory that is always there.  A path is resolved by walking its
names one by one (`Disk.walk`).  A link met on the way is replaced by its target,
at most `linkLimit` times, so a loop of links ends in a fault, and only a
directory can be walked through.  What is left at the end is a spot: a place, and
the entry there if there is one.
-/
import KernelDepot.Disk.Fault
import KernelDepot.Disk.Path

namespace KernelDepot

/-- The names from the root down to an entry. -/
abbrev Place := List String

inductive Entry where
  | file (content : Bytes)
  | directory
  | link (target : String)
  deriving DecidableEq, Repr

structure Disk where
  entries : List (Place × Entry) := []
  /-- The directory that relative paths start from. -/
  working : Place := []

/-- Where a path leads: a place, and the entry there if there is one. -/
structure Spot where
  place : Place
  entry : Option Entry

namespace Disk

def entryAt (d : Disk) (place : Place) : Option Entry :=
  if place = [] then some .directory else d.entries.lookup place

def linkLimit : Nat := 40

def nameLimit : Nat := 255

def pathLimit : Nat := 4095

def origin (path : String) (here : Place) : Place := if Path.isAbsolute path then [] else here

def pathOf (place : Place) : String := "/" ++ "/".intercalate place

def hasNul (path : String) : Bool := path.toList.any (·.toNat = 0)

def isTooLong (path : String) : Bool :=
  !hasNul path && decide (pathLimit < (Text.bytes path).length)

/-- Whether the names after an entry take it for a directory before they name an entry
in it. -/
def takesDirectory (names : List String) : Bool :=
  match names.find? fun name => name ≠ "" ∧ name ≠ "." with
  | some name => name = ".."
  | none => !names.isEmpty

/-- Whether an entry can be looked up by its own path, written as a directory's if the
names after it take it for one. -/
def isWithinReach (place : Place) (entry : Entry) (rest : List String) : Bool :=
  let path := pathOf place
  match entry with
  | .link _ => !isTooLong path
  | _ => !isTooLong (if takesDirectory rest then path ++ "/" else path)

/-- Walk `names` from `here`.  A link as the last name is followed if `follow` is
set.  The empty name and `.` stay where they are, which takes a directory.  With
`single` set, every entry on the way is looked up by its own path, which has to be short
enough. -/
def walk (d : Disk) (follow single : Bool) (links : Nat) (here : Place) (names : List String) :
    Except FileFault Spot :=
  match names with
  | [] => .ok ⟨here, d.entryAt here⟩
  | name :: rest =>
    match d.entryAt here with
    | none => .error .notFound
    | some (.file _) | some (.link _) => .error .notDirectory
    | some .directory =>
      if name = "" ∨ name = "." then d.walk follow single links here rest
      else if name = ".." then d.walk follow single links here.dropLast rest
      else if nameLimit < (Text.bytes name).length then .error .nameTooLong
      else
        let place := here ++ [name]
        match d.entryAt place with
        | none => if rest.all (· = "") then .ok ⟨place, none⟩ else .error .notFound
        | some entry =>
          if single ∧ ¬ isWithinReach place entry rest then .error .nameTooLong
          else
            match entry with
            | .link target =>
              if rest = [] ∧ ¬ follow then .ok ⟨place, some (.link target)⟩
              else
                match links with
                | 0 => .error .tooManyLinks
                | left + 1 =>
                  d.walk follow single left (origin target here) (Path.segments target ++ rest)
            | _ => d.walk follow single links place rest
termination_by (links, names.length)

theorem entry_of_walk {d : Disk} {follow single : Bool} {links : Nat} {here : Place}
    {names : List String} {spot : Spot} (h : d.walk follow single links here names = .ok spot) :
    spot.entry = d.entryAt spot.place := by
  fun_induction walk d follow single links here names <;> simp_all
  all_goals subst h; simp_all

def locate (d : Disk) (follow single : Bool) (path : String) : Except FileFault Spot :=
  if hasNul path then .error .nulInName
  else if path = "" then .error .notFound
  else d.walk follow single linkLimit (origin path d.working) (Path.segments path)

def resolve (d : Disk) (follow : Bool) (path : String) : Except FileFault Spot :=
  if isTooLong path then .error .nameTooLong else d.locate follow false path

def stat (d : Disk) (path : String) : Except FileFault Entry := do
  let spot ← d.resolve true path
  match spot.entry with
  | some entry => return entry
  | none => throw .notFound

/-- The path of the entry that `path` leads to, without links.  It is found name by
name, so every entry on the way has to be within reach, but not `path` as a whole. -/
def canonical (d : Disk) (path : String) : Except FileFault String := do
  let spot ← d.locate true true path
  match spot.entry with
  | some _ => return pathOf spot.place
  | none => throw .notFound

def pathExists (d : Disk) (path : String) : Bool := (d.stat path).toBool

def isFile (d : Disk) (path : String) : Bool :=
  match d.stat path with
  | .ok (.file _) => true
  | _ => false

def isDirectory (d : Disk) (path : String) : Bool :=
  match d.stat path with
  | .ok .directory => true
  | _ => false

def read (d : Disk) (path : String) : Except FileFault Bytes := do
  match (← d.stat path) with
  | .file content => return content
  | _ => throw .isDirectory

def size (d : Disk) (path : String) : Except FileFault Nat := do
  match (← d.stat path) with
  | .file content => return content.length
  | _ => return 4096

def put (d : Disk) (place : Place) (entry : Entry) : Disk :=
  { d with entries := (place, entry) :: d.entries.filter fun e => e.1 != place }

def erase (d : Disk) (place : Place) : Disk :=
  { d with entries := d.entries.filter fun e => !place.isPrefixOf e.1 }

def contents (d : Disk) : List Bytes :=
  d.entries.filterMap fun
    | (_, .file content) => some content
    | _ => none

/-- What is read from a file is the content of some file of the tree. -/
theorem mem_contents_of_read {d : Disk} {path : String} {content : Bytes}
    (h : d.read path = .ok content) : content ∈ d.contents := by
  have hstat : d.stat path = .ok (.file content) := by
    cases hs : d.stat path with
    | error e => simp [read, hs, bind, Except.bind] at h
    | ok entry =>
      cases entry <;> simp [read, hs, bind, Except.bind, pure, Except.pure, throw,
        throwThe, MonadExceptOf.throw] at h
      simp [h]
  cases hr : d.resolve true path with
  | error e => simp [stat, hr, bind, Except.bind] at hstat
  | ok spot =>
    have hspot : spot.entry = some (.file content) := by
      cases he : spot.entry <;> simp [stat, hr, he, bind, Except.bind, pure, Except.pure, throw,
        throwThe, MonadExceptOf.throw] at hstat
      simp [hstat]
    have hwalk : spot.entry = d.entryAt spot.place := by
      simp only [resolve, locate] at hr
      split at hr
      · simp at hr
      · split at hr
        · simp at hr
        · split at hr
          · simp at hr
          · exact entry_of_walk hr
    rw [hspot] at hwalk
    simp only [entryAt] at hwalk
    split at hwalk
    · simp at hwalk
    · obtain ⟨front, back, hl, -⟩ := List.lookup_eq_some_iff.mp hwalk.symm
      simp [contents, hl]

def write (d : Disk) (path : String) (content : Bytes) : Except FileFault Disk := do
  let spot ← d.resolve true path
  match spot.entry with
  | none | some (.file _) => return d.put spot.place (.file content)
  | some _ => throw .isDirectory

def delete (d : Disk) (path : String) : Except FileFault Disk := do
  let spot ← d.resolve false path
  match spot.entry with
  | none => throw .notFound
  | some .directory => throw .isDirectory
  | some _ => return d.erase spot.place

/-- Move a file or a link over whatever file or link stands at the target. -/
def rename (d : Disk) (source target : String) : Except FileFault Disk := do
  let old ← d.resolve false source
  let new ← d.resolve false target
  match old.entry, new.entry with
  | none, _ => throw .notFound
  | some .directory, _ | _, some .directory => throw .isDirectory
  | some entry, _ =>
    if old.place = new.place then return d
    else return (d.erase old.place).put new.place entry

/-- The names of the entries in a directory. -/
def list (d : Disk) (path : String) : Except FileFault (List String) := do
  let spot ← d.resolve true path
  match spot.entry with
  | none => throw .notFound
  | some .directory =>
    return d.entries.filterMap fun (place, _) =>
      match place.getLast? with
      | some name => if place.dropLast = spot.place then some name else none
      | none => none
  | some _ => throw .notDirectory

/-- Create one directory.  Separators at the end of the path say nothing more, so an entry
of its last name stands in the way also when it is a link. -/
def createDirectory (d : Disk) (path : String) : Except FileFault Disk := do
  if isTooLong path then throw .nameTooLong
  let spot ← d.locate false false (Path.withoutTail path)
  match spot.entry with
  | none => return d.put spot.place .directory
  | some _ => throw .alreadyExists

/-- Create a directory and, at most `depth` levels up, those it stands in.  What could
be created stays when the rest fails. -/
def createDirectoriesUpTo (d : Disk) : Nat → String → Except FileFault Unit × Disk
  | 0, _ => (.ok (), d)
  | depth + 1, path =>
    if path = "" then (.ok (), d)
    else
      match d.createDirectory path with
      | .ok d => (.ok (), d)
      | .error e =>
        if e.isNotFound then
          match Path.parent? path with
          | none => (.error e, d)
          | some parent =>
            match d.createDirectoriesUpTo depth parent with
            | (.error e, d) => (.error e, d)
            | (.ok (), d) =>
              match d.createDirectory path with
              | .ok d => (.ok (), d)
              | .error e => (if d.isDirectory path then .ok () else .error e, d)
        else (if d.isDirectory path then .ok () else .error e, d)

/-- Create a directory and those it stands in; one that exists is left as it is. -/
def createDirectories (d : Disk) (path : String) : Except FileFault Unit × Disk :=
  d.createDirectoriesUpTo ((Path.parts path).length + 1) path

def createLink (d : Disk) (path target : String) : Except FileFault Disk := do
  let spot ← d.resolve false path
  match spot.entry with
  | none => return d.put spot.place (.link target)
  | some _ => throw .alreadyExists

def removeAll (d : Disk) (path : String) : Except FileFault Disk := do
  let spot ← d.resolve false path
  match spot.entry with
  | none => throw .notFound
  | some _ => return d.erase spot.place

end Disk
end KernelDepot
