/-
Texts of fingerprints as the keys of files.

The text of a fingerprint is read as that fingerprint again, so two fingerprints are equal if
their texts are, and every file is named for one fingerprint only, also as a path below the
directory of the store.  The texts are in the order of the bytes.  This is `hex_isOrderedKey`.
-/
import KernelDepot.Proofs.Artifact.Confined
import KernelDepot.Proofs.Digest.Ordered
import KernelDepot.Proofs.Disk.Path

namespace KernelDepot
namespace ArtifactStore

variable {f : Fingerprint} {name : String}

/-! ## Paths of files -/

theorem fileName?_pathOf (s : ArtifactStore) (h : IsFileOf f name) :
    Path.fileName? (s.pathOf name) = some name :=
  Path.fileName?_join s.dir h.isPlain

/-- A path below the directory leads to a file of one fingerprint. -/
theorem IsFileOf.unique_of_parts {g : Fingerprint} {other : String} (s : ArtifactStore)
    (hf : IsFileOf f name) (hg : IsFileOf g other)
    (h : Path.parts (s.pathOf name) = Path.parts (s.pathOf other)) : f = g := by
  have hname : Path.fileName? (s.pathOf name) = Path.fileName? (s.pathOf other) := by
    unfold Path.fileName?
    rw [h]
  rw [fileName?_pathOf s hf, fileName?_pathOf s hg, Option.some_inj] at hname
  exact hf.unique (hname ▸ hg)

/-! ## The key -/

/-- The text of a fingerprint is read as the fingerprint, and two fingerprints are equal exactly
if their texts are, and exactly if some path leads to a file of both.  A query about a
fingerprint works on no files but its own.  The order of the bytes is that of the texts, be they
compared by characters or by bytes. -/
theorem hex_isOrderedKey (s : ArtifactStore) (p q : Fingerprint) :
    Fingerprint.parse p.hex = .ok p ∧
      (p = q ↔ p.hex = q.hex) ∧
      (p = q ↔ ∃ m n, IsFileOf p m ∧ IsFileOf q n ∧
        Path.parts (s.pathOf m) = Path.parts (s.pathOf n)) ∧
      (∀ query : StoreQuery, query.concerns p = true → query ≠ .request .clear →
        (query.program s).AsksOnly (FileOp.IsAt p)) ∧
      (p.bytes < q.bytes ↔ p.hex < q.hex) ∧
      (p.le q ↔ p.hex ≤ q.hex) ∧
      (p.bytes < q.bytes ↔ Text.bytes p.hex < Text.bytes q.hex) := by
  have horder : p.bytes < q.bytes ↔ p.hex < q.hex := Fingerprint.hex_lt_hex_iff.symm
  refine ⟨p.parse_hex, ⟨congrArg _, Fingerprint.hex_injective⟩, ⟨?_, ?_⟩,
    fun _ => StoreQuery.asksOnly_program s, horder, Fingerprint.le_iff,
    horder.trans Text.bytes_lt_bytes_iff.symm⟩
  · rintro rfl
    exact ⟨_, _, isFileOf_manifestName p, isFileOf_manifestName p, rfl⟩
  · rintro ⟨m, n, hm, hn, hparts⟩
    exact hm.unique_of_parts s hn hparts

/-! ### Two fingerprints that differ in a digit and a letter -/

namespace Neighbours

def nine : Fingerprint := ⟨0x9f :: List.replicate 31 0xff, rfl⟩

def ten : Fingerprint := ⟨0xa0 :: List.replicate 31 0, rfl⟩

def store : ArtifactStore := ⟨"cache/", true⟩

def query : StoreQuery := .request (.load nine)

theorem hex_nine_lt_hex_ten : query.concerns nine = true ∧ query ≠ .request .clear ∧
    (query.program store).AsksOnly (FileOp.IsAt nine) ∧ nine.hex < ten.hex ∧
    ¬ ∃ m n, IsFileOf nine m ∧ IsFileOf ten n ∧
      Path.parts (store.pathOf m) = Path.parts (store.pathOf n) := by
  obtain ⟨-, -, hfiles, hasks, horder, -⟩ := hex_isOrderedKey store nine ten
  have hlt : nine.bytes < ten.bytes := by decide
  have hne : nine ≠ ten := fun heq => absurd (congrArg Fingerprint.bytes heq) (by decide)
  have hconcerns : query.concerns nine = true := by decide
  exact ⟨hconcerns, nofun, hasks query hconcerns nofun, horder.mp hlt,
    fun hshared => hne (hfiles.mpr hshared)⟩

end Neighbours

end ArtifactStore
end KernelDepot
