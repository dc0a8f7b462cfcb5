/-
What a store is meant to be.

Seen from outside a store is a catalogue, a finite map from fingerprints to artifacts in
which no entry is ever replaced.  A catalogue says what each query is to be answered with;
`perform` is what a store does for the same queries with the files of its directory.
-/
import KernelDepot.Artifact.Sharing
import Mathlib.Algebra.GroupWithZero.Nat
import Mathlib.Data.List.AList

namespace KernelDepot

abbrev Catalogue := AList fun _ : Fingerprint => Artifact

inductive StoreQuery where
  | request (request : StoreRequest)
  | contains (f : Fingerprint)
  | stats
  deriving DecidableEq, Repr

inductive StoreAnswer where
  | reply (reply : StoreReply)
  | contained (found : Bool)
  | measured (size : StoreSize)

namespace StoreQuery

def program (s : ArtifactStore) : StoreQuery → Filing StoreAnswer
  | request r => return .reply (← r.program s)
  | contains f => return .contained (← s.contains f)
  | stats => return .measured (← s.stats)

/-- Whether the answer or the effect of a query has to do with a fingerprint. -/
def concerns (f : Fingerprint) : StoreQuery → Bool
  | request (.store g _) | request (.load g) | request (.remove g) | contains g => g = f
  | request .clear => true
  | stats => false

/-- The answers to the queries that concern a fingerprint. -/
def answersAbout (f : Fingerprint) : List StoreQuery → List StoreAnswer → List StoreAnswer
  | q :: qs, a :: answers =>
    if q.concerns f then a :: answersAbout f qs answers else answersAbout f qs answers
  | _, _ => []

end StoreQuery

/-- Put some queries to a store, one after the other. -/
def ArtifactStore.perform (s : ArtifactStore) : List StoreQuery → Filing (List StoreAnswer)
  | [] => return []
  | q :: rest => do
    let answer ← q.program s
    let others ← s.perform rest
    return answer :: others

namespace Catalogue

def size (c : Catalogue) : StoreSize :=
  ⟨c.entries.length, (c.entries.map fun e => e.2.image.length).sum⟩

/-- The answer to a query, and the catalogue afterwards. -/
def answer (c : Catalogue) : StoreQuery → StoreAnswer × Catalogue
  | .request (.store f a) =>
    match c.lookup f with
    | some _ => (.reply (.stored (.ok false)), c)
    | none => (.reply (.stored (.ok true)), c.insert f a)
  | .request (.load f) => (.reply (.loaded (.ok (c.lookup f))), c)
  | .request (.remove f) => (.reply .removed, c.erase f)
  | .request .clear => (.reply (.cleared (.ok ())), ∅)
  | .contains f => (.contained (c.lookup f).isSome, c)
  | .stats => (.measured c.size, c)

theorem answer_store_of_none {c : Catalogue} {f : Fingerprint} (a : Artifact)
    (h : c.lookup f = none) :
    c.answer (.request (.store f a)) = (.reply (.stored (.ok true)), c.insert f a) := by
  simp only [answer, h]

theorem answer_store_of_some {c : Catalogue} {f : Fingerprint} {present : Artifact} (a : Artifact)
    (h : c.lookup f = some present) :
    c.answer (.request (.store f a)) = (.reply (.stored (.ok false)), c) := by
  simp only [answer, h]

def answers (c : Catalogue) : List StoreQuery → List StoreAnswer × Catalogue
  | [] => ([], c)
  | q :: rest =>
    let (first, c) := c.answer q
    let (others, c) := answers c rest
    (first :: others, c)

end Catalogue
end KernelDepot
