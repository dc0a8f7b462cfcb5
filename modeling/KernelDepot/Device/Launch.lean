/-
Launch shapes.

A launch has a grid of blocks and a block of threads, each in three dimensions.
`forElements` covers a range with one thread per element.  The grid is a number of
32 bits, so a range that needs more blocks gets the greatest grid there is.
-/
import KernelDepot.Number.Decimal

namespace KernelDepot

structure Extent where
  x : Nat
  y : Nat := 1
  z : Nat := 1
  deriving DecidableEq, Repr

structure LaunchShape where
  grid : Extent := { x := 1 }
  block : Extent := { x := 256 }
  /-- The dynamic shared memory of each block, in bytes. -/
  sharedBytes : Nat := 0
  deriving DecidableEq, Repr

namespace LaunchShape

/-- The number of blocks of `size` threads that cover `elements`, at least one. -/
def blocksFor (elements size : Nat) : Nat := max ((elements + size - 1) / size) 1

/-- A launch in one dimension with `blockSize` threads in a block, at least one, that
covers `elements`. -/
def forElements (elements blockSize : Nat) : LaunchShape :=
  let size := max blockSize 1
  { grid := { x := min (blocksFor elements size) (Number.limit32 - 1) }
    block := { x := size } }

def withShared (s : LaunchShape) (bytes : Nat) : LaunchShape := { s with sharedBytes := bytes }

end LaunchShape
end KernelDepot
