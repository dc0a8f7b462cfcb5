/-
Toolchains.

A toolchain turns a job into an image.  While it works it may ask for includes, any
number of them, each depending on the answers so far, and in the end it succeeds or
fails with a log.  A compilation is therefore a finite tree of questions, and
whoever runs it decides on the answers.
-/
import KernelDepot.Arch
import KernelDepot.Fingerprint
import KernelDepot.Image
import KernelDepot.NameTable
import KernelDepot.Program

namespace KernelDepot

/-- Everything that a toolchain needs for one compilation. -/
structure Job where
  programName : String
  source : Bytes
  headers : List (String × Bytes)
  options : List String
  arch : Arch
  /-- The expressions whose lowered names are wanted. -/
  names : List String
  deriving DecidableEq, Repr

structure IncludeRequest where
  name : String
  /-- The file that includes it, if the toolchain says so. -/
  includer : Option String
  deriving DecidableEq, Repr

structure ToolchainOutput where
  image : Bytes
  format : ImageFormat
  loweredNames : NameTable String
  log : String
  deriving DecidableEq, Repr

/-- A computation that may ask for includes; the answer is a content or nothing. -/
abbrev Asking (α : Type) := Program IncludeRequest (fun _ => Option Bytes) α

/-- A compilation: questions for includes, then a failure with its log or a result. -/
abbrev Dialogue := Asking (Except String ToolchainOutput)

structure Toolchain where
  identity : ToolchainIdentity
  compile : Job → Dialogue

end KernelDepot
