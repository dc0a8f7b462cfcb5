/-
Loaders.

A loader is a depot with settings and a search path of its own.  The include roots of
the settings are searched in the order in which they are listed, before everything that
is registered with a priority of zero, and the bundled headers after it.
-/
import KernelDepot.Depot.Call
import KernelDepot.Provider.Embedded
import KernelDepot.SearchPath
import KernelDepot.Settings.Basic

namespace KernelDepot

structure Loader where
  settings : Settings
  path : SearchPath
  depot : Depot

namespace Loader

/-- The priority of the first include root; those behind it have one less each. -/
def rootPriority : Int := 100

def bundledPriority : Int := -100

/-- Register include roots with falling priorities. -/
def registerRoots (disk : Disk) (priority : Int) (path : SearchPath) : List String → SearchPath
  | [] => path
  | dir :: rest =>
    registerRoots disk (priority - 1)
      (path.register (IncludeRoot.atPath disk dir).provider priority) rest

def pathOf (settings : Settings) (disk : Disk) : SearchPath :=
  let path := registerRoots disk rootPriority {} settings.includeDirs
  if settings.bundledHeaders then path.register EmbeddedFiles.bundled.provider bundledPriority
  else path

/-- The depot that settings describe, over a store that is open. -/
def depotOf (settings : Settings) (toolchain : ToolchainIdentity) (deviceId : Nat)
    (device : DeviceInfo) (store : ArtifactStore) : Depot where
  setup :=
    { toolchain, deviceId, device, store
      builtins := settings.builtinIncludes
      verbose := settings.verbose
      flags := settings.defaultFlags }

def create (settings : Settings) (env : Environment) (disk : Disk)
    (toolchain : ToolchainIdentity) (deviceId : Nat) (device : DeviceInfo) :
    Except Failure Loader × Disk :=
  match settings.validate with
  | .error e => (.error (.settings e), disk)
  | .ok () =>
    let path := pathOf settings disk
    match settings.openStore env disk with
    | (.error e, disk) => (.error (.store e), disk)
    | (.ok store, disk) =>
      (.ok ⟨settings, path, depotOf settings toolchain deviceId device store⟩, disk)

def register (l : Loader) (provider : Provider) (priority : Int) : Loader :=
  { l with path := l.path.register provider priority }

def unregister (l : Loader) (id : String) : Loader := { l with path := l.path.unregister id }

end Loader

/-- Close a loader: its index is emptied. -/
def Site.close {σ : Type} (host : Host σ) (s : Site σ) : Site σ :=
  (s.release host).2.report [.depotDropped]

end KernelDepot
