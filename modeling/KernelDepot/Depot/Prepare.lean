/-
Preparing a request.

Before a depot looks anywhere it settles what a request stands for: the request is
checked, its architecture must be one that the device could run at all, its includes
are resolved, and all of that gives its fingerprint.
-/
import KernelDepot.Depot.Basic

namespace KernelDepot

structure KeyedRequest extends PreparedRequest where
  fingerprint : Fingerprint

structure Preparation where
  events : List Event := []
  outcome : Except Failure KeyedRequest

namespace Depot

/-- Prepare a request whose names are looked up in a search path. -/
def prepare (d : Depot) (disk : Disk) (path : SearchPath) (request : Request) : Preparation :=
  match request.validate with
  | .error e => { outcome := .error (.settings e) }
  | .ok arch =>
    -- If intermediate code cannot run on the device, nothing can.
    match d.setup.device.check arch .ptx with
    | .error e => { outcome := .error (.device e) }
    | .ok () =>
      let flags := d.setup.flags ++ request.flags
      let space : IncludeSpace :=
        ⟨path.withRoots disk request.includeDirs, disk, d.setup.builtins⟩
      let scan := Scan.ofSource space request.source
      { events := scan.events
        outcome := scan.outcome.map fun source =>
          { request, arch, flags, space, source
            fingerprint := .compute request flags source d.setup.toolchain } }

end Depot
end KernelDepot
