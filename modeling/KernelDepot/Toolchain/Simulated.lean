/-
A toolchain that only looks at symbols.

It opens every include of the live part of the program, transitively, each name once:
a name of its own system headers is passed over, a name in the header table is taken
from there, and every other name is asked for.  The names defined in one file stay
defined in the next one.  A live `#error` in the program fails the compilation.  The
image lists the lowered names.

A compilation opens fewer than `openLimit` files, more than a machine can hold.
-/
import KernelDepot.Image.Listing
import KernelDepot.Include.Directive
import KernelDepot.Toolchain
import KernelDepot.Toolchain.Conditional

namespace KernelDepot

structure SimulatedToolchain where
  version : String := "1.0"
  /-- Includes that are asked for in every compilation although no directive names
  them. -/
  hiddenIncludes : List String := []
  deriving DecidableEq, Repr

namespace SimulatedToolchain

/-- The headers that the toolchain brings along. -/
def systemHeaders : List String := ["cuda_fp16.h", "cuda_bf16.h", "cuda_runtime.h"]

/-- The names that are defined in every compilation. -/
def predefinedNames : List String := ["__CUDACC__", "__CUDACC_RTC__", "__CUDA_ARCH__"]

/-- The number of files that one compilation may open. -/
def openLimit : Nat := Number.limit64

/-- The name that an option defines, if it defines one. -/
def optionName? (option : String) : Option String := do
  let definition ← (Text.after? "-D".toList option.toList).or
    (Text.after? "--define-macro=".toList option.toList)
  let name := definition.takeWhile (· ≠ '=')
  if name.isEmpty then none else some (String.ofList name)

/-- The names that are defined at the start of a compilation. -/
def definedAtStart (options : List String) : List String :=
  (options.filterMap optionName?).foldl Conditional.define predefinedNames

def isPlain (c : Char) : Bool := c.isAlphanum

/-- The lowered name of an expression: the variable behind an ampersand, a plain
identifier as it is, and everything else with its length in front and every character
that is not plain replaced. -/
def lower (expression : String) : String :=
  match expression.toList with
  | '&' :: name => String.ofList (Text.trim name)
  | cs =>
    if cs.all fun c => isPlain c || c == '_' then expression
    else
      let mangled := cs.map fun c => if isPlain c then c else '_'
      "_Z" ++ Number.decimalText mangled.length ++ String.ofList mangled

def cannotOpen (file : String) (line : Nat) (name : String) : String :=
  file ++ "(" ++ Number.decimalText line ++ "): catastrophic error: cannot open source file \"" ++
    name ++ "\"\n"

def errorDirective (file : String) (line : Nat) (text : List Char) : String :=
  file ++ "(" ++ Number.decimalText line ++ "): error: #error directive: " ++ String.ofList text ++
    "\n\n1 error detected in the compilation of \"" ++ file ++ "\".\n"

/-- The includes that were opened and the files that wait to be read. -/
structure Opening where
  /-- The names that were met, each of which is opened once. -/
  met : List String
  /-- A stack of files with their names. -/
  pending : List (String × Bytes)
  deriving DecidableEq, Repr

def header? (headers : List (String × Bytes)) (name : String) : Option Bytes :=
  headers.reverse.lookup name

/-- Open the include that a directive of `file` names, or fail with a log. -/
def openInclude (headers : List (String × Bytes)) (file : String) (s : Opening) (d : Directive) :
    Asking (Except String Opening) :=
  if d.name ∈ systemHeaders ∨ d.name ∈ s.met then pure (.ok s)
  else
    let met := d.name :: s.met
    let push (content : Bytes) : Opening := ⟨met, (d.name, content) :: s.pending⟩
    match header? headers d.name with
    | some content => pure (.ok (push content))
    | none => do
      match (← Program.question (⟨d.name, some file⟩ : IncludeRequest)) with
      | some content => pure (.ok (push content))
      | none => pure (.error (cannotOpen file d.line.toNat d.name))

/-- Open the includes of `file` in order, up to the first failure. -/
def openAll (headers : List (String × Bytes)) (file : String) (s : Opening) :
    List Directive → Asking (Except String Opening)
  | [] => pure (.ok s)
  | d :: rest => do
    match (← openInclude headers file s d) with
    | .ok s => openAll headers file s rest
    | .error log => pure (.error log)

/-- Read the files that wait, at most `fuel` of them, and open their live includes. -/
def readPending (headers : List (String × Bytes)) :
    Nat → List String → Opening → Asking (Except String Unit)
  | 0, _, _ => pure (.error "too many files\n")
  | fuel + 1, defined, s =>
    match s.pending with
    | [] => pure (.ok ())
    | (file, content) :: rest => do
      let (live, defined) := Conditional.liveText defined (Text.lossy content)
      match (← openAll headers file { s with pending := rest } (Directive.ofText live)) with
      | .ok s => readPending headers fuel defined s
      | .error log => pure (.error log)

def askHidden (program : String) : List String → Asking (Except String Unit)
  | [] => pure (.ok ())
  | name :: rest => do
    match (← Program.question (⟨name, some program⟩ : IncludeRequest)) with
    | some _ => askHidden program rest
    | none => pure (.error (cannotOpen program 1 name))

/-- The number and the text of the first live error directive. -/
def errorLine? (live : List Char) : Option (Nat × List Char) :=
  (Text.numberedLines live).findSome? fun (number, line) =>
    (Text.after? "#error".toList (Text.trimStart line)).map fun text => (number, Text.trim text)

def isAddress (expression : String) : Bool := ['&'].isPrefixOf expression.toList

def output (job : Job) : ToolchainOutput :=
  let entries := job.names.filter fun e => !isAddress e
  let constants := job.names.filter isAddress
  { image := Text.bytes (Listing.render job.arch.text (entries.map lower)
      (constants.map fun e => (lower e, Listing.constantSize)))
    format := .ptx
    loweredNames := .ofList (job.names.map fun e => (e, lower e))
    log := "" }

def compile (t : SimulatedToolchain) (job : Job) : Dialogue := do
  let defined := definedAtStart job.options
  match (← readPending job.headers openLimit defined ⟨[], [(job.programName, job.source)]⟩) with
  | .error log => pure (.error log)
  | .ok () =>
    match (← askHidden job.programName t.hiddenIncludes) with
    | .error log => pure (.error log)
    | .ok () =>
      match errorLine? (Conditional.liveText defined (Text.lossy job.source)).1 with
      | some (line, text) => pure (.error (errorDirective job.programName line text))
      | none => pure (.ok (output job))

def toolchain (t : SimulatedToolchain) : Toolchain where
  identity := ⟨"mock", t.version⟩
  compile := t.compile

end SimulatedToolchain

/-- A toolchain that follows a script: it asks for given includes and then fails with a
given log or succeeds with a given result. -/
structure ScriptedToolchain where
  identity : ToolchainIdentity
  includes : List IncludeRequest
  result : Except String ToolchainOutput

namespace ScriptedToolchain

def askAll : List IncludeRequest → Asking Unit
  | [] => pure ()
  | request :: rest => do
    let _ ← Program.question request
    askAll rest

def toolchain (t : ScriptedToolchain) : Toolchain where
  identity := t.identity
  compile _ := do
    askAll t.includes
    pure t.result

end ScriptedToolchain
end KernelDepot
