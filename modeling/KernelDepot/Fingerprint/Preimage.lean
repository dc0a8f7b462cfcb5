/-
What a fingerprint is a digest of.

The inputs of a compilation are written as a sequence of fields.  A field is a tag
and a value, each preceded by its length, so the end of a field never depends on
what follows it.  A list is written as its size and then its items, all under one
tag.  The dependencies are sorted by name and provider, and the names left to the
toolchain are written as sorted sets, so the order in which a scan met them does
not matter.
-/
import KernelDepot.Fingerprint
import KernelDepot.Include.Resolved
import KernelDepot.NameTable
import KernelDepot.Request

namespace KernelDepot
namespace Preimage

/-- The format version of stored artifacts and fingerprints. -/
def formatVersion : Nat := 1

/-- A number in `count` bytes, the least significant first. -/
def littleEndian (count n : Nat) : Bytes :=
  (List.range count).map fun i => UInt8.ofNat (n >>> (8 * i))

/-- One field: a tag and a value, each after its length. -/
def field (tag : String) (value : Bytes) : Bytes :=
  littleEndian 8 (Text.bytes tag).length ++ Text.bytes tag ++ littleEndian 8 value.length ++ value

def textField (tag value : String) : Bytes := field tag (Text.bytes value)

def countField (tag : String) (n : Nat) : Bytes := field tag (littleEndian 4 n)

/-- The size and the items of a list, under one tag. -/
def listFields (tag : String) (items : List String) : Bytes :=
  countField tag items.length ++ items.flatMap (textField tag)

def dependencyFields (d : Dependency) : Bytes :=
  textField "dep-name" d.name ++ textField "dep-provider" d.provider ++
    field "dep-content" d.content

def dependencyLe (a b : Dependency) : Bool :=
  a.name < b.name || (a.name == b.name && !decide (b.provider < a.provider))

/-- The names of a list as a sorted set. -/
def nameSet (names : List String) : List String :=
  (NameTable.ofList (names.map fun name => (name, ()))).names

def ofInputs (request : Request) (flags : List String) (source : ResolvedSource)
    (toolchain : ToolchainIdentity) : Bytes :=
  countField "version" formatVersion ++
  textField "toolchain" toolchain.name ++
  textField "toolchain-version" toolchain.version ++
  listFields "entries" request.entries ++
  listFields "constants" request.constants ++
  textField "origin" source.origin ++
  field "source" source.text ++
  listFields "flags" flags ++
  textField "arch" request.arch ++
  countField "dependencies" source.dependencies.length ++
  (source.dependencies.mergeSort dependencyLe).flatMap dependencyFields ++
  listFields "builtins" (nameSet source.builtins) ++
  listFields "deferred" (nameSet source.deferred)

end Preimage

def Fingerprint.compute (request : Request) (flags : List String) (source : ResolvedSource)
    (toolchain : ToolchainIdentity) : Fingerprint :=
  .ofPreimage (Preimage.ofInputs request flags source toolchain)

end KernelDepot
