/-
The elements that a launch reaches.

A thread of a launch in one dimension works on one element: the number of its block times the
size of a block, and its own number on top.  `forElements` asks for the smallest grid that covers
a range, and gets it as long as a grid of 32 bits can cover the range at all.  Of a longer range
the launch reaches what the greatest grid has threads for, and the elements behind that are left
without a thread.  This is `covers_forElements_iff`.
-/
import KernelDepot.Device.Launch

namespace KernelDepot
namespace LaunchShape

/-- Whether some thread works on an element. -/
def Reaches (s : LaunchShape) (i : Nat) : Prop :=
  ∃ block < s.grid.x, ∃ thread < s.block.x, i = block * s.block.x + thread

/-- Whether no element of a range is left without a thread. -/
def Covers (s : LaunchShape) (elements : Nat) : Prop := ∀ i < elements, s.Reaches i

/-- What a launch for a range is, whether it covers the range or not: blocks and threads are
counted in one dimension, in numbers whose product is a machine word, and no smaller grid would
do. -/
structure IsFor (s : LaunchShape) (elements blockSize : Nat) : Prop where
  grid : s.grid = { x := s.grid.x }
  block : s.block = { x := max blockSize 1 }
  grid_pos : 1 ≤ s.grid.x
  fits : s.grid.x * s.block.x < Number.limit64
  least : ∀ n, 1 ≤ n → elements ≤ n * s.block.x → s.grid.x ≤ n

variable {s : LaunchShape} {elements blockSize size n : Nat}

theorem reaches_iff (h : 0 < s.block.x) (i : Nat) : s.Reaches i ↔ i < s.grid.x * s.block.x := by
  constructor
  · rintro ⟨block, hblock, thread, hthread, rfl⟩
    calc block * s.block.x + thread < (block + 1) * s.block.x := by
          rw [Nat.add_mul, Nat.one_mul]
          exact Nat.add_lt_add_left hthread _
      _ ≤ s.grid.x * s.block.x := Nat.mul_le_mul_right _ hblock
  · intro hi
    refine ⟨i / s.block.x, (Nat.div_lt_iff_lt_mul h).mpr hi, i % s.block.x, Nat.mod_lt _ h, ?_⟩
    rw [Nat.mul_comm]
    exact (Nat.div_add_mod i _).symm

theorem covers_iff (h : 0 < s.block.x) : s.Covers elements ↔ elements ≤ s.grid.x * s.block.x := by
  constructor
  · intro hcovers
    refine Nat.le_of_not_lt fun hlt => ?_
    have hreached := hcovers _ hlt
    rw [reaches_iff h] at hreached
    exact Nat.lt_irrefl _ hreached
  · intro hle i hi
    exact (reaches_iff h i).mpr (Nat.lt_of_lt_of_le hi hle)

/-- So many blocks cover a range exactly if the number of blocks for it is not greater. -/
theorem blocksFor_le_iff (hsize : 0 < size) (hn : 1 ≤ n) :
    blocksFor elements size ≤ n ↔ elements ≤ n * size := by
  unfold blocksFor
  rw [Nat.max_le, and_iff_left hn, Nat.div_le_iff_le_mul_add_pred hsize, Nat.mul_comm size n]
  omega

/-! ## Launches for a range -/

theorem grid_forElements (elements blockSize : Nat) :
    (forElements elements blockSize).grid.x =
      min (blocksFor elements (max blockSize 1)) (Number.limit32 - 1) := rfl

theorem block_pos (blockSize : Nat) : 0 < max blockSize 1 :=
  Nat.lt_of_lt_of_le Nat.zero_lt_one (Nat.le_max_right _ _)

theorem grid_forElements_pos : 1 ≤ (forElements elements blockSize).grid.x := by
  rw [grid_forElements, Nat.le_min]
  exact ⟨Nat.le_max_right _ _, by decide⟩

theorem grid_forElements_le : (forElements elements blockSize).grid.x ≤ Number.limit32 - 1 := by
  rw [grid_forElements]
  exact Nat.min_le_right _ _

theorem isFor_forElements (elements : Nat) (hblock : blockSize < Number.limit32) :
    (forElements elements blockSize).IsFor elements blockSize where
  grid := rfl
  block := rfl
  grid_pos := grid_forElements_pos
  fits := by
    have hsize : max blockSize 1 ≤ Number.limit32 - 1 :=
      Nat.max_le.mpr ⟨Nat.le_sub_one_of_lt hblock, by decide⟩
    exact Nat.lt_of_le_of_lt (Nat.mul_le_mul grid_forElements_le hsize) (by decide)
  least n hn hle := by
    rw [grid_forElements]
    exact Nat.le_trans (Nat.min_le_left _ _) ((blocksFor_le_iff (block_pos blockSize) hn).mpr hle)

/-- The grid is enough for a range exactly if the greatest grid is. -/
theorem le_grid_forElements_iff (elements blockSize : Nat) :
    elements ≤ (forElements elements blockSize).grid.x * max blockSize 1 ↔
      elements ≤ (Number.limit32 - 1) * max blockSize 1 := by
  rw [← blocksFor_le_iff (block_pos blockSize) grid_forElements_pos,
    ← blocksFor_le_iff (block_pos blockSize) (by decide), grid_forElements, Nat.le_min,
    and_iff_right (Nat.le_refl _)]

theorem lt_grid_forElements_iff {i : Nat} (hi : i < elements) :
    i < (forElements elements blockSize).grid.x * max blockSize 1 ↔
      i < (Number.limit32 - 1) * max blockSize 1 := by
  constructor
  · exact fun h => Nat.lt_of_lt_of_le h (Nat.mul_le_mul_right _ grid_forElements_le)
  · intro h
    by_cases hrange : elements ≤ (Number.limit32 - 1) * max blockSize 1
    · exact Nat.lt_of_lt_of_le hi ((le_grid_forElements_iff elements blockSize).mpr hrange)
    · -- The range asks for more blocks than there are, so the grid is the greatest.
      rw [← blocksFor_le_iff (block_pos blockSize) (by decide)] at hrange
      have hmany := Nat.le_of_lt (Nat.lt_of_not_le hrange)
      rwa [grid_forElements, Nat.min_eq_right hmany]

/-- A launch for a range covers it exactly if the greatest grid of 32 bits does; it reaches those
elements that the greatest grid has threads for. -/
theorem covers_forElements_iff (elements blockSize : Nat) (hblock : blockSize < Number.limit32) :
    (forElements elements blockSize).IsFor elements blockSize ∧
      ((forElements elements blockSize).Covers elements ↔
        elements ≤ (Number.limit32 - 1) * max blockSize 1) ∧
      ∀ i < elements, (forElements elements blockSize).Reaches i ↔
        i < (Number.limit32 - 1) * max blockSize 1 := by
  have hpos : 0 < (forElements elements blockSize).block.x := block_pos blockSize
  refine ⟨isFor_forElements elements hblock, ?_, fun i hi => ?_⟩
  · exact (covers_iff hpos).trans (le_grid_forElements_iff elements blockSize)
  · exact (reaches_iff hpos i).trans (lt_grid_forElements_iff hi)

/-- A range that is two elements too long for blocks of one thread. -/
theorem not_covers_forElements_wide :
    1 < Number.limit32 ∧ ¬ (forElements (Number.limit32 + 1) 1).Covers (Number.limit32 + 1) ∧
      ¬ (forElements (Number.limit32 + 1) 1).Reaches (Number.limit32 - 1) ∧
      (forElements (Number.limit32 + 1) 1).Reaches (Number.limit32 - 2) := by
  have hblock : 1 < Number.limit32 := by decide
  obtain ⟨-, hcovers, hreaches⟩ := covers_forElements_iff (Number.limit32 + 1) 1 hblock
  refine ⟨hblock, fun h => absurd (hcovers.mp h) (by decide), fun h => ?_, ?_⟩
  · exact absurd ((hreaches _ (by decide)).mp h) (by decide)
  · exact (hreaches _ (by decide)).mpr (by decide)

end LaunchShape
end KernelDepot
