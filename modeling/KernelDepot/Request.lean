/-
Requests for a kernel.

A request names the entries and constants wanted from a program, where the program
comes from, how to compile it and for which architecture.  It is checked once
before any work is done; the check also reads the architecture.
-/
import KernelDepot.Failure

namespace KernelDepot

inductive ProgramSource where
  | inline (text : String)
  /-- A name that the include providers resolve. -/
  | named (name : String)
  deriving DecidableEq, Repr

/-- The name under which an inline program is handed to the toolchain. -/
def mainProgramName : String := "main.cu"

/-- A program of one line that includes `name`. -/
def includeProgram (name : String) : String := "#include \"" ++ name ++ "\"\n"

structure Request where
  /-- The entry expressions to extract. -/
  entries : List String
  /-- The constant variables whose addresses are wanted. -/
  constants : List String := []
  source : ProgramSource
  /-- Include roots that are searched before every other provider. -/
  includeDirs : List String := []
  flags : List String := []
  arch : String
  /-- Report the listing of the program and the log of the toolchain. -/
  verbose : Bool := false
  deriving DecidableEq, Repr

namespace Request

def single (entry : String) (source : ProgramSource) (arch : String) : Request :=
  { entries := [entry], source, arch }

def withEntry (r : Request) (entry : String) : Request := { r with entries := r.entries ++ [entry] }

def withConstant (r : Request) (name : String) : Request :=
  { r with constants := r.constants ++ [name] }

def withFlags (r : Request) (flags : List String) : Request := { r with flags := r.flags ++ flags }

def withIncludeDir (r : Request) (dir : String) : Request :=
  { r with includeDirs := r.includeDirs ++ [dir] }

def debug (r : Request) : Request := r.withFlags ["-G"]

def verbosely (r : Request) : Request := { r with verbose := true }

/-- The label of a request in reports and failures. -/
def label (r : Request) : String := ", ".intercalate r.entries

def programName (r : Request) : String :=
  match r.source with
  | .named name => name
  | .inline _ => mainProgramName

def validate (r : Request) : Except SettingsFault Arch :=
  if r.entries.isEmpty then .error .noEntries
  else
    match r.entries.find? Text.isBlankText with
    | some entry => .error (.blankEntry entry)
    | none =>
      if r.source = .named "" then .error .unnamedSource
      else (Arch.parse r.arch).mapError .arch

end Request
end KernelDepot
