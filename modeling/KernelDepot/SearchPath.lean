/-
Search paths.

A search path holds providers with distinct identities in the order in which they
are asked: the roots of a request first, then by descending priority, then
directories before built-in tables before everything else, then by the time of
registration.  Registering a provider whose identity is present replaces the old
registration.  The first provider that has a name decides, even if it cannot read
it; nothing is merged and nothing falls through.
-/
import KernelDepot.Failure
import KernelDepot.Provider.Directory

namespace KernelDepot

structure Registration where
  provider : Provider
  priority : Int
  /-- Belongs to a single request and is searched before all others. -/
  pinned : Bool
  /-- The time of registration. -/
  serial : Nat

namespace Registration

/-- Whether `a` is searched no later than `b`. -/
def before (a b : Registration) : Bool :=
  if a.pinned != b.pinned then a.pinned
  else if a.priority ≠ b.priority then b.priority < a.priority
  else if a.provider.kind ≠ b.provider.kind then a.provider.kind.rank < b.provider.kind.rank
  else a.serial ≤ b.serial

end Registration

structure Resolution where
  provider : String
  content : Bytes
  deriving DecidableEq, Repr

/-- An ordered set of providers. -/
structure SearchPath where
  registrations : List Registration := []
  nextSerial : Nat := 0

namespace SearchPath

def order (s : SearchPath) : List String := s.registrations.map fun r => r.provider.id

def has (s : SearchPath) (id : String) : Bool := s.registrations.any fun r => r.provider.id = id

def unregister (s : SearchPath) (id : String) : SearchPath :=
  { s with registrations := s.registrations.filter fun r => r.provider.id ≠ id }

/-- Add a provider, in place of the one with its identity. -/
def insert (s : SearchPath) (provider : Provider) (priority : Int) (pinned : Bool) : SearchPath :=
  let rest := (s.unregister provider.id).registrations
  let added : Registration := ⟨provider, priority, pinned, s.nextSerial⟩
  { registrations := (rest ++ [added]).mergeSort Registration.before
    nextSerial := s.nextSerial + 1 }

/-- Register a provider; a higher priority is searched first. -/
def register (s : SearchPath) (provider : Provider) (priority : Int) : SearchPath :=
  s.insert provider priority false

/-- The search path with the roots of a request in front. -/
def withRoots (s : SearchPath) (disk : Disk) (roots : List String) : SearchPath :=
  roots.foldl (fun s root => s.insert (IncludeRoot.atPath disk root).provider 0 true) s

def ask (disk : Disk) (provider : Provider) (name : String) :
    Except Unreadable (Option Resolution) :=
  match provider.lookup disk name with
  | .ok content => .ok (content.map fun c => ⟨provider.id, c⟩)
  | .error cause => .error ⟨name, provider.id, cause⟩

/-- The answer of the first provider of a list that has a name. -/
def resolveAmong (disk : Disk) (name : String) :
    List Registration → Except Unreadable (Option Resolution)
  | [] => .ok none
  | r :: rest =>
    match ask disk r.provider name with
    | .error e => .error e
    | .ok (some hit) => .ok (some hit)
    | .ok none => resolveAmong disk name rest

def resolve (s : SearchPath) (disk : Disk) (name : String) :
    Except Unreadable (Option Resolution) :=
  resolveAmong disk name s.registrations

/-- Ask the provider with a given identity for a name. -/
def resolveIn (s : SearchPath) (disk : Disk) (id name : String) :
    Except Unreadable (Option Resolution) :=
  match s.registrations.find? fun r => r.provider.id = id with
  | some r => ask disk r.provider name
  | none => .ok none

/-- A number that exceeds the number of lines in all texts that the providers can
serve, and in `more`. -/
def lineBound (s : SearchPath) (disk : Disk) (more : List Bytes) : Nat :=
  let texts := more ++ s.registrations.flatMap fun r => r.provider.texts disk
  texts.flatten.length + texts.length

end SearchPath
end KernelDepot
