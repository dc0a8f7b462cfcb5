/-
What a preimage says and what it leaves out.

A preimage determines exactly what a fingerprint is meant to cover: the theorem this file
exists for is `ofInputs_eq_iff`.  One half reads the records back.  The other half says that
the order of discovery, repeated names, include roots and everything else that is not
covered leave no trace: sorted lists without repetitions are equal when they have the same
members.
-/
import KernelDepot.Proofs.Fingerprint.Canonical
import Mathlib.Data.List.Dedup

namespace KernelDepot

/-- No two dependencies have the same name and the same provider. -/
def ResolvedSource.IsDistinct (s : ResolvedSource) : Prop :=
  (s.dependencies.map fun d => (d.name, d.provider)).Nodup

instance (s : ResolvedSource) : Decidable s.IsDistinct := inferInstanceAs (Decidable (List.Nodup _))

namespace Preimage

/-- Two compilations with the same inputs, as far as a fingerprint covers them.  The
dependencies and the names left to the toolchain are compared as sets. -/
structure SameInputs (request₁ request₂ : Request) (flags₁ flags₂ : List String)
    (source₁ source₂ : ResolvedSource) (toolchain₁ toolchain₂ : ToolchainIdentity) : Prop where
  toolchainName : toolchain₁.name = toolchain₂.name
  toolchainVersion : toolchain₁.version = toolchain₂.version
  entries : request₁.entries = request₂.entries
  constants : request₁.constants = request₂.constants
  origin : source₁.origin = source₂.origin
  text : source₁.text = source₂.text
  flags : flags₁ = flags₂
  arch : request₁.arch = request₂.arch
  dependencies : ∀ name provider content,
    (∃ d ∈ source₁.dependencies, d.name = name ∧ d.provider = provider ∧ d.content = content) ↔
    ∃ d ∈ source₂.dependencies, d.name = name ∧ d.provider = provider ∧ d.content = content
  builtins : ∀ name, name ∈ source₁.builtins ↔ name ∈ source₂.builtins
  deferred : ∀ name, name ∈ source₁.deferred ↔ name ∈ source₂.deferred

/-! ## Sets of names -/

theorem pairwise_nameSet (names : List String) : (nameSet names).Pairwise (· < ·) :=
  List.pairwise_map.mpr (NameTable.ofList (names.map fun name => (name, ()))).sorted

/-- Two lists of names are written in the same way if they have the same members. -/
theorem nameSet_eq_iff {a b : List String} : nameSet a = nameSet b ↔ ∀ n, n ∈ a ↔ n ∈ b := by
  constructor
  · intro h n
    rw [← mem_nameSet, h, mem_nameSet]
  · intro h
    have hnodup (l : List String) : (nameSet l).Nodup := by
      refine (pairwise_nameSet l).imp fun {m n} hlt he => ?_
      rw [he] at hlt
      exact Std.lt_irrefl hlt
    have hperm : (nameSet a).Perm (nameSet b) := by
      refine (List.perm_ext_iff_of_nodup (hnodup a) (hnodup b)).mpr fun n => ?_
      rw [mem_nameSet, mem_nameSet, h n]
    -- Two sorted lists with the same members and no repetitions are the same list.
    refine hperm.eq_of_pairwise (fun m n _ _ hmn hnm => ?_) (pairwise_nameSet a)
      (pairwise_nameSet b)
    exact absurd (Std.lt_trans hmn hnm) Std.lt_irrefl

/-! ## Sets of dependencies -/

theorem mem_map_key {s : ResolvedSource} {k : String × String × Bytes} :
    k ∈ s.dependencies.map Dependency.key ↔
      ∃ d ∈ s.dependencies, d.name = k.1 ∧ d.provider = k.2.1 ∧ d.content = k.2.2 := by
  simp [Dependency.key, Prod.ext_iff]

theorem nodup_map_key {s : ResolvedSource} (h : s.IsDistinct) :
    (s.dependencies.map Dependency.key).Nodup := by
  refine List.Nodup.of_map (fun k => (k.1, k.2.1)) ?_
  rw [List.map_map]
  exact h

/-- A dependency is known by its name and its provider. -/
theorem content_eq_of_isDistinct {s : ResolvedSource} (h : s.IsDistinct) :
    ∀ a ∈ s.dependencies, ∀ b ∈ s.dependencies, a.name = b.name → a.provider = b.provider →
      a.content = b.content := by
  intro a ha b hb hname hprovider
  exact congrArg _ (List.inj_on_of_nodup_map h ha hb (Prod.ext hname hprovider))

/-- The dependencies are written in the same way if they are the same set. -/
theorem sortedKeys_eq_iff_of_isDistinct {s₁ s₂ : ResolvedSource} (h₁ : s₁.IsDistinct)
    (h₂ : s₂.IsDistinct) :
    sortedKeys s₁ = sortedKeys s₂ ↔ ∀ name provider content,
      (∃ d ∈ s₁.dependencies, d.name = name ∧ d.provider = provider ∧ d.content = content) ↔
      ∃ d ∈ s₂.dependencies, d.name = name ∧ d.provider = provider ∧ d.content = content := by
  rw [sortedKeys_eq_iff (content_eq_of_isDistinct h₁),
    List.perm_ext_iff_of_nodup (nodup_map_key h₁) (nodup_map_key h₂)]
  simp only [mem_map_key]
  constructor
  · intro h name provider content
    exact h (name, provider, content)
  · rintro h ⟨name, provider, content⟩
    exact h name provider content

theorem length_sortedKeys (s : ResolvedSource) :
    (sortedKeys s).length = s.dependencies.length := by
  rw [(sortedKeys_perm s).length_eq, List.length_map]

/-! ## The inputs and the preimage -/

section
variable {request₁ request₂ : Request} {flags₁ flags₂ : List String}
variable {source₁ source₂ : ResolvedSource} {toolchain₁ toolchain₂ : ToolchainIdentity}

theorem ofInputs_eq_of_agree
    (h : Agree request₁ request₂ flags₁ flags₂ source₁ source₂ toolchain₁ toolchain₂) :
    ofInputs request₁ flags₁ source₁ toolchain₁ =
      ofInputs request₂ flags₂ source₂ toolchain₂ := by
  have hlength : source₁.dependencies.length = source₂.dependencies.length := by
    rw [← length_sortedKeys, h.dependencies, length_sortedKeys]
  rw [ofInputs_eq_encode, ofInputs_eq_encode]
  unfold records
  rw [h.toolchain, h.entries, h.constants, h.origin, h.text, h.flags, h.arch, h.dependencies,
    h.builtins, h.deferred, hlength]

/-- Inputs agree if they are the same as far as a fingerprint covers them. -/
theorem agree_iff_sameInputs (h₁ : source₁.IsDistinct) (h₂ : source₂.IsDistinct) :
    Agree request₁ request₂ flags₁ flags₂ source₁ source₂ toolchain₁ toolchain₂ ↔
      SameInputs request₁ request₂ flags₁ flags₂ source₁ source₂ toolchain₁ toolchain₂ := by
  constructor
  · intro h
    exact {
      toolchainName := congrArg _ h.toolchain
      toolchainVersion := congrArg _ h.toolchain
      entries := h.entries
      constants := h.constants
      origin := h.origin
      text := h.text
      flags := h.flags
      arch := h.arch
      dependencies := (sortedKeys_eq_iff_of_isDistinct h₁ h₂).mp h.dependencies
      builtins := nameSet_eq_iff.mp h.builtins
      deferred := nameSet_eq_iff.mp h.deferred }
  · intro h
    exact {
      toolchain := by
        cases toolchain₁
        cases toolchain₂
        exact (ToolchainIdentity.mk.injEq ..).mpr ⟨h.toolchainName, h.toolchainVersion⟩
      entries := h.entries
      constants := h.constants
      origin := h.origin
      text := h.text
      flags := h.flags
      arch := h.arch
      dependencies := (sortedKeys_eq_iff_of_isDistinct h₁ h₂).mpr h.dependencies
      builtins := nameSet_eq_iff.mpr h.builtins
      deferred := nameSet_eq_iff.mpr h.deferred }

/-- Two preimages are equal exactly if the inputs are the same as far as a fingerprint covers
them. -/
theorem ofInputs_eq_iff (ha₁ : Addressable request₁ flags₁ source₁ toolchain₁)
    (ha₂ : Addressable request₂ flags₂ source₂ toolchain₂) (h₁ : source₁.IsDistinct)
    (h₂ : source₂.IsDistinct) :
    ofInputs request₁ flags₁ source₁ toolchain₁ = ofInputs request₂ flags₂ source₂ toolchain₂ ↔
      SameInputs request₁ request₂ flags₁ flags₂ source₁ source₂ toolchain₁ toolchain₂ := by
  rw [← agree_iff_sameInputs h₁ h₂]
  exact ⟨agree_of_ofInputs_eq ha₁ ha₂, ofInputs_eq_of_agree⟩

end

/-! ## One set of dependencies, found in two orders -/

def foundForwards : ResolvedSource where
  origin := "text"
  text := Text.bytes "#include <a.h>"
  dependencies := [⟨"a.h", "p", [1], some "main.cu"⟩, ⟨"a.h", "q", [2], some "a.h"⟩]
  builtins := ["x.h", "y.h", "x.h"]
  deferred := []

def foundBackwards : ResolvedSource where
  origin := "text"
  text := Text.bytes "#include <a.h>"
  dependencies := [⟨"a.h", "q", [2], some "main.cu"⟩, ⟨"a.h", "p", [1], some "a.h"⟩]
  builtins := ["y.h", "x.h"]
  deferred := []

def includeRequest : Request where
  entries := ["k"]
  source := .inline "#include <a.h>"
  arch := "sm_80"

/-- The order of discovery leaves no trace and neither do include roots, but flags that are
made of the same characters do. -/
theorem ofInputs_foundBackwards :
    ofInputs includeRequest ["-DAB"] foundForwards ⟨"t", "1"⟩ =
      ofInputs { includeRequest with includeDirs := ["/usr/include"], verbose := true } ["-DAB"]
        foundBackwards ⟨"t", "1"⟩ ∧
    ofInputs includeRequest ["-DAB"] foundForwards ⟨"t", "1"⟩ ≠
      ofInputs includeRequest ["-DA", "B"] foundForwards ⟨"t", "1"⟩ := by
  constructor
  · refine (ofInputs_eq_iff (by decide) (by decide) (by decide) (by decide)).mpr
      ⟨rfl, rfl, rfl, rfl, rfl, rfl, rfl, rfl, fun name provider content => ?_, fun name => ?_,
        fun _ => Iff.rfl⟩
    · simp [foundForwards, foundBackwards, or_comm]
    · simp [foundForwards, foundBackwards, or_comm]
  · intro h
    have hsame := (ofInputs_eq_iff (by decide) (by decide) (by decide) (by decide)).mp h
    exact absurd hsame.flags (by decide)

end Preimage
end KernelDepot
