/-
The slots of the fingerprints that are being worked on.

A slot guards the work for one fingerprint: whoever holds its lock does the work, and the
others wait for it.  It remembers a failed compilation, so those who waited fail alike.
A slot lives for as long as somebody refers to it, and the arena refers to the slots that
it lists.  Whoever leaves a slot gives up its reference; if only the arena is left to
refer to the listed slot of the fingerprint, the arena gives up that one too.
-/
import KernelDepot.Failure
import KernelDepot.Fingerprint

namespace KernelDepot

/-- The guard of a fingerprint that is being worked on. -/
structure Slot where
  /-- How many refer to the slot: the calls that have taken it and not left it yet, and the
  arena if it lists it. -/
  references : Nat
  locked : Bool := false
  failure : Option CompileFailure := none
  deriving DecidableEq, Repr

structure Arena where
  listed : List (Fingerprint × Nat) := []
  slots : List (Nat × Slot) := []
  next : Nat := 0
  deriving DecidableEq, Repr

namespace Arena

def find? (a : Arena) (f : Fingerprint) : Option Nat := a.listed.lookup f

def slot? (a : Arena) (n : Nat) : Option Slot := a.slots.lookup n

def set (a : Arena) (n : Nat) (slot : Option Slot) : Arena :=
  { a with slots := (slot.map (n, ·)).toList ++ a.slots.filter fun s => s.1 ≠ n }

def update (a : Arena) (n : Nat) (change : Slot → Slot) : Arena :=
  a.set n ((a.slot? n).map change)

/-- Give up a reference to a slot, which is gone with the last of them. -/
def drop (a : Arena) (n : Nat) : Arena :=
  a.set n ((a.slot? n).bind fun slot =>
    if slot.references ≤ 1 then none else some { slot with references := slot.references - 1 })

/-- Take the slot of a fingerprint, a new one if none is listed. -/
def join (a : Arena) (f : Fingerprint) : Nat × Arena :=
  match a.find? f with
  | some n => (n, a.update n fun slot => { slot with references := slot.references + 1 })
  | none =>
    let a := a.set a.next (some { references := 2 })
    (a.next, { a with listed := (f, a.next) :: a.listed, next := a.next + 1 })

def leave (a : Arena) (f : Fingerprint) (n : Nat) : Arena :=
  let a := a.drop n
  match a.find? f with
  | some m =>
    if (a.slot? m).any fun slot => slot.references = 1 then
      { a with listed := a.listed.filter fun entry => entry.1 ≠ f }.drop m
    else a
  | none => a

def isLocked (a : Arena) (n : Nat) : Bool := (a.slot? n).any fun slot => slot.locked

def failure? (a : Arena) (n : Nat) : Option CompileFailure := (a.slot? n).bind (·.failure)

end Arena
end KernelDepot
