/-
Providers that read a directory tree.

A logical name is a relative path below the root.  A name that is empty, absolute
or has a `..` among its components is never served, and neither is one whose
resolved path leaves the root: links may lead out of the tree, so the containment
is checked on the canonical path, component by component.
-/
import KernelDepot.Provider

namespace KernelDepot

structure IncludeRoot where
  /-- The canonical path of the directory, or the path as given if there was no
  such directory. -/
  root : String
  /-- The extensions that are served, if not all are. -/
  extensions : Option (List String) := none
  deriving DecidableEq, Repr

namespace IncludeRoot

/-- The root at a path, in its canonical form if it exists. -/
def atPath (disk : Disk) (path : String) : IncludeRoot :=
  match disk.canonical path with
  | .ok root => ⟨root, none⟩
  | .error _ => ⟨path, none⟩

/-- Serve only files with one of the given extensions. -/
def withExtensions (r : IncludeRoot) (extensions : List String) : IncludeRoot :=
  { r with extensions := some extensions }

def id (r : IncludeRoot) : String := "fs:" ++ r.root

def slashed (name : String) : String := String.ofList (Text.replaceChar '\\' '/' name.toList)

/-- Whether a name is a relative path that goes down only. -/
def isDescending (name : String) : Bool :=
  name != "" && !Path.isAbsolute name &&
    (Path.parts name).all fun
      | .normal _ | .current => true
      | .root | .parent => false

def servesExtension (r : IncludeRoot) (name : String) : Bool :=
  match r.extensions with
  | none => true
  | some allowed =>
    match Path.extension? name with
    | some extension => extension ∈ allowed
    | none => false

def locate (r : IncludeRoot) (disk : Disk) (name : String) : Option String :=
  let name := slashed name
  if !isDescending name || !r.servesExtension name then none
  else
    match disk.canonical (Path.join r.root name) with
    | .error _ => none
    | .ok path => if Path.startsWith path r.root && disk.isFile path then some path else none

def lookup (r : IncludeRoot) (disk : Disk) (name : String) : Except FileFault (Option Bytes) :=
  match r.locate disk name with
  | none => .ok none
  | some path =>
    match disk.read path with
    | .ok content => .ok (some content)
    | .error e =>
      -- The file can vanish between the two steps.
      if e.isNotFound then .ok none else .error (.custom (path ++ ": " ++ e.message))

def provider (r : IncludeRoot) : Provider where
  id := r.id
  kind := .directory
  lookup := r.lookup
  texts disk := disk.contents
  mem_texts disk name content h := by
    simp only [lookup] at h
    split at h
    · simp at h
    · split at h
      · rename_i hr
        simp only [Except.ok.injEq, Option.some.injEq] at h
        exact h ▸ Disk.mem_contents_of_read hr
      · split at h <;> simp at h

end IncludeRoot
end KernelDepot
