/-
A directory of artifacts.

An artifact is stored under its fingerprint in two files, the manifest and the image.
Each is written under a name that nobody else uses and then renamed, the manifest
first, so the image is the sign that the entry is complete.  A removal goes the other
way round.  Nothing is locked: the operations are programs of single steps on the
files of the directory, and the steps of several of them may be mixed.

An entry that is complete is never written again.  A reader that finds an entry
damaged removes it and says so.  A store that is switched off holds nothing.
-/
import KernelDepot.Artifact.Manifest
import KernelDepot.Disk.Path
import KernelDepot.Event
import KernelDepot.Number.Binary64
import KernelDepot.Program

namespace KernelDepot

/-- A pair of numbers that is given to nobody else: that of a process, and one that the
process gives out once. -/
structure Ticket where
  process : Nat
  serial : Nat
  deriving DecidableEq, Repr

def Ticket.text (t : Ticket) : String :=
  Number.decimalText t.process ++ "." ++ Number.decimalText t.serial

/-- One step on the files of a directory, which are named without the directory. -/
inductive FileOp where
  | isFile (name : String)
  | read (name : String)
  | write (name : String) (content : Bytes)
  | rename (source target : String)
  | delete (name : String)
  | list
  | size (name : String)
  | ticket
  deriving DecidableEq, Repr

abbrev FileOp.Reply : FileOp → Type
  | isFile _ => Bool
  | read _ => Except FileFault Bytes
  | write .. | rename .. | delete _ => Except FileFault Unit
  | list => Except FileFault (List String)
  | size _ => Except FileFault Nat
  | ticket => Ticket

abbrev Filing (α : Type) := Program FileOp FileOp.Reply α

def FileOp.take (op : FileOp) : Filing op.Reply := Program.question op

abbrev FileHandler (σ : Type) := Program.Handler FileOp FileOp.Reply σ

structure ArtifactStore where
  dir : String
  enabled : Bool
  deriving DecidableEq, Repr

structure StoreSize where
  entries : Nat
  bytes : Nat
  deriving DecidableEq, Repr

namespace ArtifactStore

def disabled : ArtifactStore := ⟨"", false⟩

def manifestName (f : Fingerprint) : String := f.hex ++ ".json"

def imageName (f : Fingerprint) (format : ImageFormat) : String :=
  f.hex ++ "." ++ format.extension

/-- The name under which a file is written before it is renamed. -/
def temporaryName (name : String) (ticket : Ticket) : String :=
  "." ++ name ++ "." ++ ticket.text ++ ".tmp"

def isImageName (name : String) : Bool :=
  match Path.extensionOfName? name with
  | some extension => (ImageFormat.ofName? extension).isSome
  | none => false

def isStoreName (name : String) : Bool :=
  isImageName name ||
    match Path.extensionOfName? name with
    | some extension => extension == "json" || extension == "tmp"
    | none => false

def pathOf (s : ArtifactStore) (name : String) : String := Path.join s.dir name

def hasImage (f : Fingerprint) : List ImageFormat → Filing Bool
  | [] => return false
  | format :: rest => do
    if (← (FileOp.isFile (imageName f format)).take) then return true else hasImage f rest

def contains (s : ArtifactStore) (f : Fingerprint) : Filing Bool :=
  if s.enabled then hasImage f ImageFormat.all else return false

/-- Delete some files, those of them that can be deleted. -/
def deleteAll : List String → Filing Unit
  | [] => return ()
  | name :: rest => do
    let _ ← (FileOp.delete name).take
    deleteAll rest

def namesOf (f : Fingerprint) : List String :=
  ImageFormat.all.map (imageName f) ++ [manifestName f]

def remove (s : ArtifactStore) (f : Fingerprint) : Filing Unit :=
  if s.enabled then deleteAll (namesOf f) else return ()

def discard (s : ArtifactStore) (f : Fingerprint) (name : String) (damage : Damage) :
    Filing (Except StoreFailure (Option Artifact)) := do
  s.remove f
  return .error (.damaged (s.pathOf name) damage)

/-- The artifact of a fingerprint, if there is one.  A manifest that cannot be read does
not say which image is its own, so any image makes the entry a damaged one. -/
def load (s : ArtifactStore) (f : Fingerprint) :
    Filing (Except StoreFailure (Option Artifact)) := do
  if ¬ s.enabled then return .ok none
  else
    match (← (FileOp.read (manifestName f)).take) with
    | .error e =>
      return if e.isNotFound then .ok none else .error (.read (s.pathOf (manifestName f)) e)
    | .ok written =>
      match Manifest.read? written with
      | none =>
        if (← s.contains f) then s.discard f (manifestName f) .manifest else return .ok none
      | some manifest =>
        let name := imageName f manifest.format
        match (← (FileOp.read name).take) with
        | .error e => return if e.isNotFound then .ok none else .error (.read (s.pathOf name) e)
        | .ok image =>
          match manifest.damage? f image with
          | some damage => s.discard f name damage
          | none => return .ok (some (manifest.artifact image))

/-- Write a file under a name of its own and rename it. -/
def writeFile (s : ArtifactStore) (name : String) (content : Bytes) :
    Filing (Except StoreFailure Unit) := do
  let temporary := temporaryName name (← FileOp.ticket.take)
  let failed (e : FileFault) : Filing (Except StoreFailure Unit) := do
    let _ ← (FileOp.delete temporary).take
    return .error (.write (s.pathOf name) e)
  match (← (FileOp.write temporary content).take) with
  | .error e => failed e
  | .ok () =>
    match (← (FileOp.rename temporary name).take) with
    | .error e => failed e
    | .ok () => return .ok ()

/-- Store an artifact, unless an image of its format is there already.  The result says
whether it was written. -/
def store (s : ArtifactStore) (f : Fingerprint) (a : Artifact) :
    Filing (Except StoreFailure Bool) := do
  if ¬ s.enabled then return .ok false
  else if (← (FileOp.isFile (imageName f a.format)).take) then return .ok false
  else
    match (← s.writeFile (manifestName f) (Manifest.ofArtifact f a).write) with
    | .error e => return .error e
    | .ok () =>
      match (← s.writeFile (imageName f a.format) a.image) with
      | .error e => return .error e
      | .ok () => return .ok true

def clear (s : ArtifactStore) : Filing (Except StoreFailure Unit) := do
  if ¬ s.enabled then return .ok ()
  else
    match (← FileOp.list.take) with
    | .error e => return .error (.read s.dir e)
    | .ok names =>
      deleteAll (names.filter isStoreName)
      return .ok ()

/-- Add up images; one whose size is unknown counts as empty. -/
def measure : List String → Filing StoreSize
  | [] => return ⟨0, 0⟩
  | name :: rest => do
    let size ← (FileOp.size name).take
    let others ← measure rest
    return ⟨others.entries + 1, size.toOption.getD 0 + others.bytes⟩

/-- The number of entries and their size.  A directory that cannot be listed has none. -/
def stats (s : ArtifactStore) : Filing StoreSize := do
  if ¬ s.enabled then return ⟨0, 0⟩
  else
    match (← FileOp.list.take) with
    | .error _ => return ⟨0, 0⟩
    | .ok names => measure (names.filter isImageName)

def loadEvents : Except StoreFailure (Option Artifact) → List Event
  | .ok (some _) => [.artifactLoaded]
  | _ => []

def storeEvents (s : ArtifactStore) : Except StoreFailure Bool → List Event
  | .ok true => [.artifactStored]
  | .ok false => if s.enabled then [.artifactPresent] else []
  | .error _ => []

end ArtifactStore

/-- The report of the size of a store in a directory, in kilobytes with two places. -/
def StoreSize.text (s : StoreSize) (dir : String) : String :=
  "Kernel cache: " ++ Number.decimalText s.entries ++ " entries, " ++
    Number.quotientText 2 s.bytes 1024 ++ " KB at " ++ dir

end KernelDepot
