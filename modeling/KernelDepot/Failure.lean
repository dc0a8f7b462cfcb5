/-
Failures of a request.

A request can fail because a source is missing or cannot be read, because the
toolchain refuses the program, because the device refuses the result, because of
the artifact store, or because it is malformed.  Only the failures that depend on
the state of a disk are worth a retry: a program that was refused once is refused
every time.
-/
import KernelDepot.Arch
import KernelDepot.Device.Status
import KernelDepot.Diagnostic
import KernelDepot.Disk.Fault
import KernelDepot.Text.Blank
import KernelDepot.Text.Lines
import KernelDepot.Text.Quoted

namespace KernelDepot

structure CompileFailure where
  kernel : String
  diagnostics : List Diagnostic
  log : String
  missingInclude : Option String
  deriving DecidableEq, Repr

namespace CompileFailure

def errors (f : CompileFailure) : List Diagnostic :=
  f.diagnostics.filter fun d => d.severity = .error

/-- What went wrong in one line: the missing include, else the first error, else
the first line of the log that is not blank. -/
def summary (f : CompileFailure) : String :=
  match f.missingInclude with
  | some name => "cannot open include '" ++ name ++ "'"
  | none =>
    match f.errors.head? with
    | some d => d.text
    | none =>
      match (Text.lines f.log.toList).find? fun line => !(Text.trim line).isEmpty with
      | some line => String.ofList line
      | none => "toolchain reported failure without a log"

def message (f : CompileFailure) : String :=
  "Failed to compile kernel '" ++ f.kernel ++ "': " ++ f.summary

end CompileFailure

inductive Damage where
  | version (found expected : Nat)
  | foreign
  | imageSize (found expected : Nat)
  | imageChecksum
  | manifest
  | other (reason : String)
  deriving DecidableEq, Repr

def Damage.reason : Damage → String
  | version found expected =>
    "cache version " ++ Number.decimalText found ++ " (expected " ++
      Number.decimalText expected ++ ")"
  | foreign => "manifest belongs to a different fingerprint"
  | imageSize found expected =>
    "image is " ++ Number.decimalText found ++ " bytes, manifest says " ++
      Number.decimalText expected
  | imageChecksum => "image checksum mismatch"
  | manifest => "<json>"
  | other reason => reason

inductive StoreFailure where
  | createDirectory (path : String) (cause : FileFault)
  | read (path : String) (cause : FileFault)
  | write (path : String) (cause : FileFault)
  | damaged (path : String) (damage : Damage)
  deriving DecidableEq, Repr

namespace StoreFailure

def path : StoreFailure → String
  | createDirectory path _ | read path _ | write path _ | damaged path _ => path

def reason : StoreFailure → String
  | createDirectory _ cause | read _ cause | write _ cause => cause.message
  | damaged _ damage => damage.reason

def message (f : StoreFailure) : String :=
  (match f with
    | createDirectory .. => "Failed to create cache directory "
    | read .. => "Failed to read cached artifact "
    | write .. => "Failed to write artifact to cache "
    | damaged .. => "Cache entry corrupted ") ++ f.path ++ ": " ++ f.reason

end StoreFailure

inductive SettingsFault where
  | noEntries
  | blankEntry (entry : String)
  | unnamedSource
  | arch (fault : ArchFault)
  | constantSize (name : String) (size given : Nat)
  | blankFlag (flag : String)
  | archFlag (flag : String)
  | unreadable
  | other (text : String)
  deriving DecidableEq, Repr

def SettingsFault.text : SettingsFault → String
  | noEntries => "kernel request has no entry symbols"
  | blankEntry entry => "kernel request has an empty entry symbol: " ++ Text.quoted entry
  | unnamedSource => "kernel source name is empty"
  | arch fault => fault.message
  | constantSize name size given =>
    "constant '" ++ name ++ "' is " ++ Number.decimalText size ++ " bytes, got " ++
      Number.decimalText given
  | blankFlag flag => "Empty default flag: " ++ Text.quoted flag
  | archFlag flag =>
    "Architecture flag '" ++ flag ++ "' is not allowed in default flags; set it per request"
  | unreadable => "the configuration could not be read"
  | other text => text

/-- A provider has a source but could not read it. -/
structure Unreadable where
  name : String
  provider : String
  cause : FileFault
  deriving DecidableEq, Repr

inductive Failure where
  /-- A source or an include could not be found. -/
  | notFound (name : String) (includedFrom : Option String) (searched : List String)
  | unreadable (source : Unreadable)
  | compile (failure : CompileFailure)
  | device (failure : DeviceFailure)
  | store (failure : StoreFailure)
  | settings (fault : SettingsFault)
  deriving DecidableEq, Repr

namespace Failure

/-- Whether the same request could succeed later. -/
def isRetryable : Failure → Bool
  | store _ | unreadable _ => true
  | _ => false

def message : Failure → String
  | notFound name includedFrom _ =>
    "Source not found: '" ++ name ++ "'" ++
      (match includedFrom with
        | some file => " (included from '" ++ file ++ "')"
        | none => "")
  | unreadable u =>
    "Failed to read source '" ++ u.name ++ "' from " ++ u.provider ++ ": " ++ u.cause.message
  | compile f => f.message
  | device f => f.message
  | store f => f.message
  | settings fault => "Configuration error: " ++ fault.text

end Failure
end KernelDepot
