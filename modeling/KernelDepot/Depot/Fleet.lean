/-
Several depots over one directory.

The depots of a fleet are opened with the same setup, one after the other, and they share the
directory, the disk and the device.  Each has an index and calls of its own.  The calls of all
of them take their steps in any order, indexes are emptied, and handles are let go of.
-/
import KernelDepot.Depot.Traffic

namespace KernelDepot

/-- A depot and the calls to it, also those that have ended. -/
structure Crew where
  depot : Depot
  calls : List Call := []

structure Fleet (σ : Type) where
  setup : Setup
  crews : List Crew := []
  world : World σ

namespace Fleet

variable {σ : Type}

inductive Move where
  /-- Another depot is opened. -/
  | add
  | arrive (i : Nat) (path : SearchPath) (request : Request)
  | turn (i j : Nat)
  | release (i : Nat)
  | letGo (key : ModuleKey)

/-- Let one depot do something. -/
def work (fleet : Fleet σ) (i : Nat) (change : Traffic σ → Traffic σ) : Fleet σ :=
  match fleet.crews[i]? with
  | none => fleet
  | some crew =>
    let t := change ⟨⟨crew.depot, fleet.world⟩, crew.calls⟩
    { fleet with crews := fleet.crews.set i ⟨t.site.depot, t.calls⟩, world := t.site.world }

def next (host : Host σ) (fleet : Fleet σ) : Move → Fleet σ
  | .add => { fleet with crews := fleet.crews ++ [⟨{ setup := fleet.setup }, []⟩] }
  | .arrive i path request => fleet.work i (·.arrive host path request)
  | .turn i j => fleet.work i (·.turn host j)
  | .release i => fleet.work i fun t => { t with site := (t.site.release host).2 }
  | .letGo key => { fleet with world := fleet.world.letGo host.device key }

def run (host : Host σ) (fleet : Fleet σ) (moves : List Move) : Fleet σ :=
  moves.foldl (next host) fleet

/-- The handles that requests with a fingerprint have led to. -/
def handles (fleet : Fleet σ) (f : Fingerprint) : List KernelHandle :=
  fleet.crews.flatMap fun crew => crew.calls.filterMap fun c =>
    match c.stage with
    | .finished (.ok handle) => if c.order.fingerprint = f then some handle else none
    | _ => none

end Fleet
end KernelDepot
