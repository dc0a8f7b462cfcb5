/-
Serving one request several times at once.

Some calls for the same request start together, and the toolchain waits until every
one of them has ended, stands at the toolchain, or waits for another.  Then the calls
go on one after the other.
-/
import KernelDepot.Depot.Call

namespace KernelDepot

namespace Stage

def isCompile : Stage → Bool
  | holding _ .compile => true
  | _ => false

def outcome? : Stage → Option Outcome
  | finished outcome => some outcome
  | _ => none

end Stage

structure Gathering where
  outcomes : List Outcome
  /-- The number of slots while a call stood at the toolchain. -/
  inFlight : Nat

namespace Site

variable {σ : Type}

/-- Start some calls and advance each as far as it goes without the toolchain. -/
def gather (host : Host σ) (path : SearchPath) (request : Request) :
    Nat → Site σ → List (Except Failure Call) × Site σ
  | 0, s => ([], s)
  | n + 1, s =>
    let (first, s) := match s.prepare host path request with
      | (.error e, s) => (.error e, s)
      | (.ok order, s) =>
        let (call, s) := Call.advance host Stage.isCompile s ⟨order, .lookup⟩
        (.ok call, s)
    let (others, s) := gather host path request n s
    (first :: others, s)

def finish (host : Host σ) : List (Except Failure Call) → Site σ → List Outcome × Site σ
  | [], s => ([], s)
  | .error e :: rest, s =>
    let (outcomes, s) := finish host rest s
    (.error e :: outcomes, s)
  | .ok call :: rest, s =>
    let (call, s) := Call.advance host (fun _ => false) s call
    let (outcomes, s) := finish host rest s
    (call.stage.outcome?.toList ++ outcomes, s)

def getTogether (host : Host σ) (s : Site σ) (path : SearchPath) (request : Request) (n : Nat) :
    Gathering × Site σ :=
  let (calls, s) := gather host path request n s
  let waiting := calls.any fun
    | .ok call => call.stage.isCompile
    | .error _ => false
  let inFlight := if waiting then s.depot.inFlight else 0
  let (outcomes, s) := finish host calls s
  (⟨outcomes, inFlight⟩, s)

end Site
end KernelDepot
