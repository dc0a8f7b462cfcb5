/-
How the parts of a depot are shown.

Every part has a form in words for those who look into a running system: a record with
its fields in order.
-/
import KernelDepot.Depot.Basic
import KernelDepot.SearchPath
import KernelDepot.Text.Record

namespace KernelDepot

open Text (record tagged braced quoted quotedPath quotedList)
open Number (decimalText)

def boolText (b : Bool) : String := if b then "true" else "false"

def Fingerprint.inspect (f : Fingerprint) : String := tagged "Fingerprint" f.short

def ToolchainIdentity.inspect (t : ToolchainIdentity) : String :=
  record "ToolchainIdentity" [("name", quoted t.name), ("version", quoted t.version)]

def SearchPath.inspect (s : SearchPath) : String :=
  record "SourceResolver" [("search_order", quotedList s.order)]

def DeviceInfo.inspect (d : DeviceInfo) : String :=
  record "DeviceInfo" [("ordinal", decimalText d.ordinal), ("name", quoted d.name),
    ("compute_capability",
      "(" ++ decimalText d.capability.1 ++ ", " ++ decimalText d.capability.2 ++ ")")]

def DeviceGlobal.inspect (g : DeviceGlobal) : String :=
  record "DeviceGlobal" [("ptr", tagged "DevicePtr" (decimalText g.address)),
    ("size", decimalText g.size)]

def Occupancy.inspect (o : Occupancy) : String :=
  record "Occupancy" [("min_grid_size", decimalText o.minGridSize),
    ("block_size", decimalText o.blockSize)]

def KernelFunction.inspect (f : KernelFunction) : String :=
  record "KernelFunction" [("entry", quoted f.entry), ("lowered_name", quoted f.symbol),
    ("handle", tagged "FunctionHandle" (decimalText f.handle)), ("occupancy", f.occupancy.inspect)]

def LoadedModule.inspect (m : LoadedModule) : String :=
  record "LoadedModule" [("fingerprint", m.fingerprint.inspect), ("arch", quoted m.arch),
    ("handle", tagged "ModuleHandle" (decimalText m.key.handle)),
    ("functions", quotedList m.functions.names),
    ("constants", braced (m.constants.entries.map fun (name, g) => (quoted name, g.inspect)))]

def KernelHandle.inspect (h : KernelHandle) : String :=
  record "KernelHandle" [("entry", quoted h.function.entry),
    ("fingerprint", h.loaded.fingerprint.inspect)]

def ArtifactStore.inspect (s : ArtifactStore) : String :=
  record "ArtifactStore" [("cache_dir", quotedPath s.dir), ("enabled", boolText s.enabled)]

def Counters.inspect (c : Counters) : String :=
  record "CacheStats" [("memory_hits", decimalText c.memoryHits),
    ("disk_hits", decimalText c.diskHits), ("compilations", decimalText c.compilations),
    ("disk_writes", decimalText c.diskWrites),
    ("corrupt_recoveries", decimalText c.corruptRecoveries),
    ("persistence_failures", decimalText c.persistenceFailures)]

def Depot.inspect (d : Depot) : String :=
  record "KernelCache" [("modules", decimalText d.index.length),
    ("inflight", decimalText d.inFlight), ("store", d.setup.store.inspect),
    ("stats", d.counters.inspect)]

def inspectCompiler (t : ToolchainIdentity) (builtins : List String) (verbose : Bool) : String :=
  record "KernelCompiler" [("toolchain", t.inspect), ("builtin_includes", quotedList builtins),
    ("verbose", boolText verbose)]

def inspectModules (device : DeviceInfo) : String :=
  record "ModuleLoader" [("device", device.inspect)]

def inspectLoader (d : Depot) (path : SearchPath) : String :=
  record "KernelLoader" [("device", d.setup.device.inspect), ("providers", quotedList path.order),
    ("cache", d.inspect)]

end KernelDepot
