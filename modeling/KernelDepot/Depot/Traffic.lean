/-
Any number of calls at once.

Calls arrive, and those that are on their way take one step after the other in any order,
each as far as it need not wait.  In between the world may change in any way: handles are
let go of, other depots use the directory and the device, files are edited.
-/
import KernelDepot.Depot.Call

namespace KernelDepot

/-- A depot and the calls to it, also those that have ended. -/
structure Traffic (σ : Type) where
  site : Site σ
  calls : List Call := []

namespace Traffic

variable {σ : Type}

inductive Move (σ : Type) where
  | arrive (path : SearchPath) (request : Request)
  | turn (i : Nat)
  /-- Something happens outside. -/
  | outside (world : World σ)

/-- A request comes in.  If it cannot be prepared its call has ended. -/
def arrive (host : Host σ) (t : Traffic σ) (path : SearchPath) (request : Request) : Traffic σ :=
  match t.site.prepare host path request with
  | (.error _, site) => { t with site }
  | (.ok order, site) => { site, calls := t.calls ++ [⟨order, .lookup⟩] }

/-- Do the next step of a call, unless it has to wait. -/
def turn (host : Host σ) (t : Traffic σ) (i : Nat) : Traffic σ :=
  match t.calls[i]? with
  | none => t
  | some c =>
    if c.isBlocked t.site.depot then t
    else
      let (stage, site) := Call.act host c.order t.site c.stage
      { site, calls := t.calls.set i { c with stage } }

def next (host : Host σ) (t : Traffic σ) : Move σ → Traffic σ
  | .arrive path request => t.arrive host path request
  | .turn i => t.turn host i
  | .outside world => { t with site := { t.site with world } }

def run (host : Host σ) (t : Traffic σ) (moves : List (Move σ)) : Traffic σ :=
  moves.foldl (next host) t

/-- Whether nobody is on the way and nothing is left of those who were. -/
structure IsQuiet (t : Traffic σ) : Prop where
  calls : t.calls = []
  listed : t.site.depot.arena.listed = []
  slots : t.site.depot.arena.slots = []

end Traffic
end KernelDepot
