/-
The order in which dependencies are written.

Dependencies are sorted by name and then by provider before they are hashed.  The sorted
list holds the same dependencies, and where no two of them have the same name and the same
provider it does not depend on the order in which they were found: this is
`sortedKeys_eq_iff`.
-/
import KernelDepot.Proofs.Fingerprint.Inputs

namespace KernelDepot
namespace Preimage

/-- Whether one dependency is written no later than another. -/
def keyLe (a b : String × String × Bytes) : Bool :=
  a.1 < b.1 || (a.1 == b.1 && !decide (b.2.1 < a.2.1))

theorem keyLe_iff {a b : String × String × Bytes} :
    keyLe a b = true ↔ a.1 < b.1 ∨ a.1 = b.1 ∧ ¬ b.2.1 < a.2.1 := by
  simp [keyLe]

theorem keyLe_trans (a b c : String × String × Bytes) (hab : keyLe a b = true)
    (hbc : keyLe b c = true) : keyLe a c = true := by
  rw [keyLe_iff] at hab hbc ⊢
  rcases hab with hab | ⟨hab, hab'⟩
  · rcases hbc with hbc | ⟨hbc, -⟩
    · exact .inl (Std.lt_trans hab hbc)
    · exact .inl (hbc ▸ hab)
  · rcases hbc with hbc | ⟨hbc, hbc'⟩
    · exact .inl (hab ▸ hbc)
    · refine .inr ⟨hab.trans hbc, fun hca => ?_⟩
      -- Providers are ordered totally, so `b` is on one side of `a`.
      rcases Std.lt_trichotomy a.2.1 b.2.1 with hlt | heq | hgt
      · exact hbc' (Std.lt_trans hca hlt)
      · exact hbc' (heq ▸ hca)
      · exact hab' hgt

theorem keyLe_total (a b : String × String × Bytes) : (keyLe a b || keyLe b a) = true := by
  rw [Bool.or_eq_true, keyLe_iff, keyLe_iff]
  rcases Std.lt_trichotomy a.1 b.1 with hlt | heq | hgt
  · exact .inl (.inl hlt)
  · by_cases h : b.2.1 < a.2.1
    · exact .inr (.inr ⟨heq.symm, fun h' => Std.lt_irrefl (Std.lt_trans h h')⟩)
    · exact .inl (.inr ⟨heq, h⟩)
  · exact .inr (.inl hgt)

theorem keyLe_antisymm {a b : String × String × Bytes} (hab : keyLe a b = true)
    (hba : keyLe b a = true) : a.1 = b.1 ∧ a.2.1 = b.2.1 := by
  rw [keyLe_iff] at hab hba
  rcases hab with hab | ⟨hab, hab'⟩
  · rcases hba with hba | ⟨hba, -⟩
    · exact absurd (Std.lt_trans hab hba) Std.lt_irrefl
    · rw [hba] at hab
      exact absurd hab Std.lt_irrefl
  · rcases hba with hba | ⟨-, hba'⟩
    · rw [hab] at hba
      exact absurd hba Std.lt_irrefl
    · rcases Std.lt_trichotomy a.2.1 b.2.1 with hlt | heq | hgt
      · exact absurd hlt hba'
      · exact ⟨hab, heq⟩
      · exact absurd hgt hab'

theorem sortedKeys_perm (s : ResolvedSource) :
    (sortedKeys s).Perm (s.dependencies.map Dependency.key) :=
  (List.mergeSort_perm s.dependencies dependencyLe).map _

theorem pairwise_sortedKeys (s : ResolvedSource) :
    (sortedKeys s).Pairwise fun a b => keyLe a b = true := by
  have h := @List.pairwise_mergeSort _ dependencyLe
    (fun a b c => keyLe_trans a.key b.key c.key) (fun a b => keyLe_total a.key b.key) s.dependencies
  exact List.pairwise_map.mpr h

/-- The order of discovery does not matter as long as no file was found twice. -/
theorem sortedKeys_eq_iff {s₁ s₂ : ResolvedSource}
    (hs : ∀ a ∈ s₁.dependencies, ∀ b ∈ s₁.dependencies, a.name = b.name →
      a.provider = b.provider → a.content = b.content) :
    sortedKeys s₁ = sortedKeys s₂ ↔
      (s₁.dependencies.map Dependency.key).Perm (s₂.dependencies.map Dependency.key) := by
  constructor
  · intro h
    exact (sortedKeys_perm s₁).symm.trans (h ▸ sortedKeys_perm s₂)
  · intro h
    have hperm : (sortedKeys s₁).Perm (sortedKeys s₂) :=
      (sortedKeys_perm s₁).trans (h.trans (sortedKeys_perm s₂).symm)
    refine hperm.eq_of_pairwise (fun k l hk hl hkl hlk => ?_) (pairwise_sortedKeys s₁)
      (pairwise_sortedKeys s₂)
    obtain ⟨a, ha, rfl⟩ := mem_sortedKeys.mp hk
    obtain ⟨b, hb, rfl⟩ := mem_sortedKeys.mp (hperm.mem_iff.mpr hl)
    obtain ⟨hname, hprovider⟩ := keyLe_antisymm hkl hlk
    exact Prod.ext hname (Prod.ext hprovider (hs a ha b hb hname hprovider))

end Preimage
end KernelDepot
