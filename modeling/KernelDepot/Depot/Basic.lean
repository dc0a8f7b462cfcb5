/-
Kernel depots.

A depot keeps the modules that were loaded for its requests, by fingerprint, and the
slots of the fingerprints that are being worked on.
-/
import KernelDepot.Compilation
import KernelDepot.Depot.Arena
import KernelDepot.Depot.World

namespace KernelDepot

structure Counters where
  memoryHits : Nat := 0
  diskHits : Nat := 0
  compilations : Nat := 0
  diskWrites : Nat := 0
  /-- Stored artifacts that were damaged or refused by the driver. -/
  corruptRecoveries : Nat := 0
  persistenceFailures : Nat := 0
  deriving DecidableEq, Repr

namespace Counters

def hits (c : Counters) : Nat := c.memoryHits + c.diskHits

/-- The share of requests that were served without compiling, with six places. -/
def hitRate (c : Counters) : String :=
  let total := c.hits + c.compilations
  if total = 0 then Number.quotientText 6 0 1 else Number.quotientText 6 c.hits total

end Counters

structure Setup where
  toolchain : ToolchainIdentity
  /-- The includes that are left to the toolchain. -/
  builtins : List String := []
  verbose : Bool := false
  deviceId : Nat
  device : DeviceInfo
  store : ArtifactStore
  /-- The flags that are put in front of those of every request. -/
  flags : List String := []
  deriving DecidableEq, Repr

structure Depot where
  setup : Setup
  index : List (Fingerprint × LoadedModule) := []
  arena : Arena := {}
  counters : Counters := {}
  /-- Everything that the toolchain was given to do. -/
  runs : List ToolchainRun := []

namespace Depot

def find? (d : Depot) (f : Fingerprint) : Option LoadedModule := d.index.lookup f

def mapArena (d : Depot) (change : Arena → Arena) : Depot := { d with arena := change d.arena }

def count (d : Depot) (change : Counters → Counters) : Depot :=
  { d with counters := change d.counters }

def inFlight (d : Depot) : Nat := d.arena.listed.length

end Depot

/-- A loaded module together with one of its functions. -/
structure KernelHandle where
  loaded : LoadedModule
  function : KernelFunction
  deriving DecidableEq, Repr

namespace KernelHandle

def of (m : LoadedModule) (entry : String) : Except DeviceFailure KernelHandle :=
  match m.function? entry with
  | some function => .ok ⟨m, function⟩
  | none => .error ⟨.missingSymbol entry,
      "module " ++ m.fingerprint.short ++ " has no entry '" ++ entry ++ "'", none⟩

def sibling? (h : KernelHandle) (entry : String) : Option KernelHandle :=
  (h.loaded.function? entry).map fun function => { h with function }

def sameModule (a b : KernelHandle) : Bool := a.loaded.key == b.loaded.key

end KernelHandle
end KernelDepot
