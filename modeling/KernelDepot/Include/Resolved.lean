/-
A program together with everything it includes.

The dependencies stand in the order of their discovery.  Two of them may have the
same logical name when different providers offer it; the header table that is
handed to a toolchain keeps the first of these.
-/
import KernelDepot.Text.Utf8

namespace KernelDepot

structure Dependency where
  name : String
  provider : String
  content : Bytes
  /-- The logical name of the file that included it first. -/
  includedFrom : Option String
  deriving DecidableEq, Repr

/-- The text of a program and its transitive includes. -/
structure ResolvedSource where
  /-- Where the text came from: `text`, or a provider and a name. -/
  origin : String
  text : Bytes
  dependencies : List Dependency
  /-- The names left to the search path of the toolchain. -/
  builtins : List String
  /-- The names that no provider has.  They may stand in a block that is switched
  off, so the toolchain decides whether they are needed. -/
  deferred : List String
  deriving DecidableEq, Repr

namespace ResolvedSource

def dependency? (s : ResolvedSource) (name : String) (provider : Option String) :
    Option Dependency :=
  (provider.bind fun p => s.dependencies.find? fun d => d.name = name ∧ d.provider = p).or
    (s.dependencies.find? fun d => d.name = name)

/-- The first pair of every name, in order, leaving out the names in `seen`. -/
def firstOfEach (seen : List String) : List Dependency → List (String × Bytes)
  | [] => []
  | d :: rest =>
    if d.name ∈ seen then firstOfEach seen rest
    else (d.name, d.content) :: firstOfEach (d.name :: seen) rest

/-- The header table: one content for every logical name, the first discovered. -/
def headers (s : ResolvedSource) : List (String × Bytes) := firstOfEach [] s.dependencies

end ResolvedSource
end KernelDepot
