/-
Include providers.

A provider answers for logical names: it has a name and serves its content, it
does not have it, or it has it and cannot read it.  The answer may depend on the
state of the disk and on nothing else, so it is the same for as long as the disk
does not change.  A provider also says which contents it can serve at all
(`texts`), and never serves another one; this is what bounds the set of files that
a program can reach.
-/
import KernelDepot.Disk.Tree

namespace KernelDepot

inductive ProviderKind where
  | directory
  | embedded
  | other
  deriving DecidableEq, Repr

/-- The rank of a category: a lower one is searched first. -/
def ProviderKind.rank : ProviderKind → Nat
  | directory => 0
  | embedded => 1
  | other => 2

structure Provider where
  /-- The identity of the provider, which is part of every fingerprint that uses
  content from it. -/
  id : String
  kind : ProviderKind
  /-- The content of a name, nothing if the provider does not have it, or the
  reason why it cannot be read. -/
  lookup : Disk → String → Except FileFault (Option Bytes)
  /-- The contents that can be served. -/
  texts : Disk → List Bytes
  mem_texts : ∀ disk name content, lookup disk name = .ok (some content) → content ∈ texts disk

end KernelDepot
