/-
Events.

While a depot works it reports what it does, one event at a time.  An event has a
level and a line of text; everything else about it is not part of the report.
-/

namespace KernelDepot

inductive Level where
  | trace
  | debug
  | info
  | warn
  | error
  deriving DecidableEq, Repr

def Level.name : Level → String
  | trace => "TRACE"
  | debug => "DEBUG"
  | info => "INFO"
  | warn => "WARN"
  | error => "ERROR"

inductive Event where
  | resolvedInclude (name provider : String)
  /-- The scan left an include to the toolchain. -/
  | deferredInclude (name : String)
  /-- A provider has a source but could not read it. -/
  | unreadableSource (name provider : String)
  /-- A program is handed to the toolchain, with its numbered listing. -/
  | compiling (program listing : String)
  /-- The toolchain opened an include that the scan had not found. -/
  | unscannedInclude (name provider : String)
  /-- The toolchain needs an include that no provider has. -/
  | requiredIncludeMissing (log : String)
  | compilationFailed (log : String)
  | compiled
  /-- What the toolchain reported although it succeeded. -/
  | toolchainLog (log : String)
  | artifactPresent
  | artifactStored
  | artifactLoaded
  | artifactDamaged
  | artifactUnreadable
  | artifactRejected
  | notPersisted
  | memoryHit
  | memoryHitAfterWait
  | diskHit
  | miss
  | notCacheable
  | moduleLoaded
  | moduleUnloaded
  | unloadFailed
  | released
  | depotCreated
  | depotDropped
  | providerRegistered
  | providerUnregistered
  deriving DecidableEq, Repr

namespace Event

def level : Event → Level
  | resolvedInclude .. | moduleUnloaded => .trace
  | compiled => .info
  | unreadableSource .. | unscannedInclude .. | artifactDamaged | artifactUnreadable
  | artifactRejected | notPersisted | notCacheable | unloadFailed => .warn
  | requiredIncludeMissing _ | compilationFailed _ => .error
  | _ => .debug

def text : Event → String
  | resolvedInclude .. => "Resolved include"
  | deferredInclude _ => "No provider has include, deferring to toolchain"
  | unreadableSource .. => "Unable to read source"
  | compiling program listing => "Compiling " ++ program ++ ":\n" ++ listing
  | unscannedInclude .. => "Toolchain requested an include the scan did not find"
  | requiredIncludeMissing log => "No provider has a required include:\n" ++ log
  | compilationFailed log => "Kernel compilation failed:\n" ++ log
  | compiled => "Compiled kernel"
  | toolchainLog log => "Toolchain log:\n" ++ log
  | artifactPresent => "Artifact already cached"
  | artifactStored => "Cached artifact"
  | artifactLoaded => "Loaded cached artifact"
  | artifactDamaged => "Discarded corrupted kernel artifact, recompiling"
  | artifactUnreadable => "Failed to read kernel cache, recompiling"
  | artifactRejected => "Driver rejected cached artifact, recompiling"
  | notPersisted => "Failed to persist compiled kernel"
  | memoryHit => "Kernel cache hit"
  | memoryHitAfterWait => "Kernel cache hit after waiting for compile"
  | diskHit => "Loaded kernel from disk cache"
  | miss => "Kernel cache miss"
  | notCacheable =>
    "Toolchain pulled in includes the scan did not see; result will not be cached"
  | moduleLoaded => "Loaded module"
  | moduleUnloaded => "Unloaded module"
  | unloadFailed => "Failed to unload module"
  | released => "Released kernel cache"
  | depotCreated => "Created kernel loader"
  | depotDropped => "Dropped kernel loader"
  | providerRegistered => "Registered include provider"
  | providerUnregistered => "Unregistered include provider"

def line (e : Event) : String := e.level.name ++ " " ++ e.text

end Event
end KernelDepot
