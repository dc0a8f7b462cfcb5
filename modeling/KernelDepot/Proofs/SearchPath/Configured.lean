/-
The roots of a loader.

The roots of the settings are registered with falling priorities, the bundled headers with a fixed
one, and nothing stops the roots from falling below it.  The priority of the last root in front is
the one of the bundled headers, since directories go first among equals.  So a loader searches
`rootsAhead` roots, then the bundled headers, and then all roots that are left.
-/
import KernelDepot.Depot.Loader
import KernelDepot.Proofs.SearchPath.Roots

namespace KernelDepot
namespace Loader

/-- The number of roots that come before the bundled headers. -/
def rootsAhead : Nat := (rootPriority - bundledPriority).toNat + 1

section Bundled

variable {settings : Settings} {disk : Disk}

variable {env : Environment} {toolchain : ToolchainIdentity} {deviceId : Nat} {device : DeviceInfo}

end Bundled

end Loader

/-! ## One root too many -/

namespace Crowded

/-- One directory more than come before the bundled headers, with one letter each for its
name. -/
def dirs : List String :=
  (List.range (Loader.rootsAhead + 1)).map fun n => String.singleton (Char.ofNat (256 + n))

def disk : Disk where
  entries := dirs.map fun dir => ([dir], .directory)

def settings : Settings where
  includeDirs := dirs
  diskCache := false

end Crowded

end KernelDepot
