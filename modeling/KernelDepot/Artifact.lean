/-
Compiled artifacts.
-/
import KernelDepot.Image
import KernelDepot.NameTable
import KernelDepot.Text.Utf8

namespace KernelDepot

/-- The result of compiling a request: an image, what it is for, and the symbol of
every entry and constant that was asked for. -/
structure Artifact where
  image : Bytes
  format : ImageFormat
  arch : String
  entries : NameTable String
  constants : NameTable String
  deriving DecidableEq, Repr

end KernelDepot
