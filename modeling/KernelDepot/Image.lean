/-
Formats of compiled images.
-/

namespace KernelDepot

inductive ImageFormat where
  /-- Intermediate code as text, compiled for the device when it is loaded. -/
  | ptx
  /-- Machine code. -/
  | cubin
  deriving DecidableEq, Repr

namespace ImageFormat

def extension : ImageFormat → String
  | ptx => "ptx"
  | cubin => "cubin"

def ofName? (name : String) : Option ImageFormat :=
  if name = "ptx" then some ptx else if name = "cubin" then some cubin else none

/-- Every format, in the order in which files are looked for. -/
def all : List ImageFormat := [ptx, cubin]

theorem ofName?_extension (f : ImageFormat) : ofName? f.extension = some f := by
  cases f <;> decide

end ImageFormat
end KernelDepot
