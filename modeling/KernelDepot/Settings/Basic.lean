/-
Settings of a depot.

The settings say where artifacts are stored, which flags every request gets, which
include roots and headers are there from the start, and which includes are left to the
toolchain.  A flag may not be blank, and none may choose an architecture, because that
is for each request to say.
-/
import KernelDepot.Artifact.Store
import KernelDepot.Disk.Tree
import KernelDepot.Failure

namespace KernelDepot

structure Settings where
  cacheDir : Option String := none
  diskCache : Bool := true
  /-- The flags that are put in front of those of every request. -/
  defaultFlags : List String :=
    ["-std=c++17", "--use_fast_math", "--generate-line-info", "-D__NVCC__=1", "-DCUDA_NO_HOST=1"]
  includeDirs : List String := []
  bundledHeaders : Bool := true
  /-- The includes that are left to the toolchain. -/
  builtinIncludes : List String := ["cuda_fp16.h", "cuda_bf16.h", "cuda_runtime.h"]
  verbose : Bool := false
  deriving DecidableEq, Repr

abbrev Environment := List (String × String)

namespace Settings

def withCacheDir (s : Settings) (dir : String) : Settings :=
  { s with cacheDir := some dir, diskCache := true }

def withoutDiskCache (s : Settings) : Settings := { s with diskCache := false }

def withFlag (s : Settings) (flag : String) : Settings :=
  { s with defaultFlags := s.defaultFlags ++ [flag] }

def withDefaultFlags (s : Settings) (flags : List String) : Settings :=
  { s with defaultFlags := flags }

def withIncludeDir (s : Settings) (dir : String) : Settings :=
  { s with includeDirs := s.includeDirs ++ [dir] }

def withBuiltinInclude (s : Settings) (name : String) : Settings :=
  { s with builtinIncludes := s.builtinIncludes ++ [name] }

def withoutBundledHeaders (s : Settings) : Settings := { s with bundledHeaders := false }

def verbosely (s : Settings) : Settings := { s with verbose := true }

/-- Whether a flag chooses an architecture. -/
def isArchFlag (flag : String) : Bool :=
  ["--gpu-architecture", "-arch"].any fun lead => lead.toList.isPrefixOf flag.toList

def validate (s : Settings) : Except SettingsFault Unit :=
  match s.defaultFlags.find? Text.isBlankText with
  | some flag => .error (.blankFlag flag)
  | none =>
    match s.defaultFlags.find? isArchFlag with
    | some flag => .error (.archFlag flag)
    | none => .ok ()

/-- The directory in which artifacts are stored if nothing else is said: the one that
the environment names, else one below the home directory, else one for temporary
files. -/
def defaultCacheDir (env : Environment) : String :=
  match env.lookup "RINGKERNEL_LOADER_CACHE_DIR" with
  | some dir => dir
  | none =>
    match env.lookup "HOME" with
    | some home => Path.join home ".cache/ringkernel/kernels"
    | none => Path.join ((env.lookup "TMPDIR").getD "/tmp") "ringkernel/kernels"

end Settings

/-- Open a store in a directory, which is created if there is nothing of that name. -/
def ArtifactStore.inDir (disk : Disk) (dir : String) :
    Except StoreFailure ArtifactStore × Disk :=
  if disk.pathExists dir then (.ok ⟨dir, true⟩, disk)
  else
    match disk.createDirectories dir with
    | (.ok (), disk) => (.ok ⟨dir, true⟩, disk)
    | (.error e, disk) => (.error (.createDirectory dir e), disk)

def Settings.openStore (s : Settings) (env : Environment) (disk : Disk) :
    Except StoreFailure ArtifactStore × Disk :=
  if s.diskCache then ArtifactStore.inDir disk (s.cacheDir.getD (defaultCacheDir env))
  else (.ok .disabled, disk)

end KernelDepot
