/-
What a depot works with.

The surroundings of a depot are a disk, the directory of its store, the driver of its
device and its toolchain.  They are given as functions on a state of any type, so the
same depot runs over simulated surroundings, over ones that fail at will, and over
ones it shares with other depots.

The modules on a device are kept for as long as somebody holds them.  The world counts
the holds of each module, and whoever lets go of the last one unloads it.
-/
import KernelDepot.Artifact.Store
import KernelDepot.Device.Module
import KernelDepot.Disk.Tree
import KernelDepot.Toolchain

namespace KernelDepot

structure Host (σ : Type) where
  /-- The disk that include roots are read from. -/
  disk : σ → Disk
  files : FileHandler σ
  device : DriverHandler σ
  /-- The toolchain; it need not do the same thing every time. -/
  compile : Job → σ → Dialogue × σ

/-- The state of the surroundings, the holds on loaded modules, and what was reported. -/
structure World (σ : Type) where
  outside : σ
  /-- A module occurs once for everyone who holds it. -/
  holds : List ModuleKey := []
  events : List Event := []

namespace World

variable {σ α : Type}

def report (w : World σ) (events : List Event) : World σ := { w with events := w.events ++ events }

def file (w : World σ) (files : FileHandler σ) (p : Filing α) : α × World σ :=
  let (result, outside) := p.run files w.outside
  (result, { w with outside })

def drive (w : World σ) (device : DriverHandler σ) (p : Driving α) : α × World σ :=
  let (result, outside) := p.run device w.outside
  (result, { w with outside })

def hold (w : World σ) (key : ModuleKey) : World σ := { w with holds := key :: w.holds }

/-- Let go of a module, and unload it if nobody else holds it. -/
def letGo (w : World σ) (device : DriverHandler σ) (key : ModuleKey) : World σ :=
  let w := { w with holds := w.holds.erase key }
  if key ∈ w.holds then w
  else
    let (events, w) := w.drive device (LoadedModule.unload key.handle)
    w.report events

/-- Load an artifact; the result is held once. -/
def load (w : World σ) (device : DriverHandler σ) (id : Nat) (info : DeviceInfo)
    (fingerprint : Fingerprint) (artifact : Artifact) :
    Except DeviceFailure LoadedModule × World σ :=
  let (report, w) := w.drive device (LoadedModule.load id info fingerprint artifact)
  let w := w.report report.events
  match report.outcome with
  | .error e => (.error e, w)
  | .ok m => (.ok m, w.hold m.key)

end World
end KernelDepot
