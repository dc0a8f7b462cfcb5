/-
Any number of calls on one store.

A call is a request to the store and what is left to do of its program.  Calls enter at any
time, and those that are there take one step on the folder after the other, in any order.  A
call that has ended stays with its result until it leaves; one that leaves earlier belongs to
a process that has stopped, and nothing of what it did is undone.
-/
import KernelDepot.Artifact.Folder
import Mathlib.Logic.Relation

namespace KernelDepot

inductive StoreRequest where
  | store (f : Fingerprint) (a : Artifact)
  | load (f : Fingerprint)
  | remove (f : Fingerprint)
  | clear
  deriving DecidableEq, Repr

inductive StoreReply where
  | stored (result : Except StoreFailure Bool)
  | loaded (result : Except StoreFailure (Option Artifact))
  | removed
  | cleared (result : Except StoreFailure Unit)

def StoreRequest.program (s : ArtifactStore) : StoreRequest → Filing StoreReply
  | store f a => return .stored (← s.store f a)
  | load f => return .loaded (← s.load f)
  | remove f => do
    s.remove f
    return .removed
  | clear => return .cleared (← s.clear)

/-- Whether a request brings the one artifact that there is for its fingerprint. -/
def StoreRequest.Brings (art : Fingerprint → Artifact) : StoreRequest → Prop
  | store f a => a = art f
  | _ => True

/-- A request and what is left to do for it. -/
structure Visit where
  request : StoreRequest
  rest : Filing StoreReply

def Visit.IsUnderWay (v : Visit) : Prop := ∀ reply, v.rest ≠ .done reply

structure Sharing where
  folder : Folder := {}
  calls : Nat → Option Visit := fun _ => none

namespace Sharing

def put (s : Sharing) (i : Nat) (call : Option Visit) (d : Folder) : Sharing :=
  ⟨d, fun j => if j = i then call else s.calls j⟩

@[simp] theorem calls_put_self (s : Sharing) (i : Nat) (call : Option Visit) (d : Folder) :
    (s.put i call d).calls i = call :=
  if_pos rfl

theorem calls_put_of_ne (s : Sharing) {i j : Nat} (call : Option Visit) (d : Folder) (h : j ≠ i) :
    (s.put i call d).calls j = s.calls j :=
  if_neg h

structure Rules where
  allows : StoreRequest → Prop
  faults : Prop

/-- Every request, with one artifact for each fingerprint, and steps that may fail. -/
def Rules.lenient (art : Fingerprint → Artifact) : Rules := ⟨StoreRequest.Brings art, True⟩

/-- Nobody clears the folder, and no step fails. -/
def Rules.plain (art : Fingerprint → Artifact) : Rules :=
  ⟨fun request => request.Brings art ∧ request ≠ .clear, False⟩

inductive Next (rules : Rules) : Sharing → Sharing → Prop where
  | enter {s : Sharing} {i : Nat} (store : ArtifactStore) {request : StoreRequest}
    (hfree : s.calls i = none) (h : rules.allows request) :
    Next rules s (s.put i (some ⟨request, request.program store⟩) s.folder)
  | turn {s : Sharing} {i : Nat} {request : StoreRequest} {op : FileOp}
    {next : op.Reply → Filing StoreReply} {reply : op.Reply} {d : Folder}
    (hcall : s.calls i = some ⟨request, .ask op next⟩)
    (h : s.folder.Step op reply d ∨ rules.faults ∧ s.folder.Fault op reply d) :
    Next rules s (s.put i (some ⟨request, next reply⟩) d)
  /-- A call has ended, or its process stops. -/
  | leave (s : Sharing) (i : Nat) : Next rules s (s.put i none s.folder)

def Reachable (rules : Rules) (s : Sharing) : Prop := Relation.ReflTransGen (Next rules) {} s

end Sharing

end KernelDepot
