/-
Compiling a request.

A request whose includes are resolved becomes a job, and the toolchain's questions for
includes are answered from the scan.  An include that the scan did not see is looked up
in search order and noted as an extra dependency: the fingerprint does not cover it.
Of the includes that nobody has the first is noted, and of those that cannot be read
also the first.

When the toolchain fails, a source that could not be read explains the failure.  Next
comes a missing include: if the scan had left it to the toolchain, it turned out to be
needed, and the request fails because a source was not found.  Everything else is a
failure of the compilation with the diagnostics of its log.
-/
import KernelDepot.Artifact
import KernelDepot.Diagnostic.Log
import KernelDepot.Include.Closure
import KernelDepot.Toolchain

namespace KernelDepot

/-- What the includes of one compilation left behind. -/
structure Session where
  /-- The includes that the scan had not seen, in the order of their discovery. -/
  extra : List Dependency := []
  /-- The first include that nobody has, and the file that includes it. -/
  missing : Option IncludeRequest := none
  unreadable : Option Unreadable := none
  events : List Event := []
  answers : List (Option Bytes) := []
  deriving DecidableEq, Repr

namespace Session

def reply (s : Session) (answer : Option Bytes) : Option Bytes × Session :=
  (answer, { s with answers := s.answers ++ [answer] })

/-- Look up an include that neither the scan nor the session knows. -/
def search (space : IncludeSpace) (request : IncludeRequest) (s : Session) :
    Option Bytes × Session :=
  match space.path.resolve space.disk request.name with
  | .ok (some hit) =>
    let found : Dependency := ⟨request.name, hit.provider, hit.content, request.includer⟩
    let event := Event.unscannedInclude request.name hit.provider
    reply { s with extra := s.extra ++ [found], events := s.events ++ [event] } (some hit.content)
  | .ok none => reply { s with missing := s.missing.or (some request) } none
  | .error cause =>
    let event := Event.unreadableSource cause.name cause.provider
    reply { s with unreadable := s.unreadable.or (some cause), events := s.events ++ [event] } none

/-- Answer a question for an include.  A name that the including file's provider has is
taken from there. -/
def answer (space : IncludeSpace) (source : ResolvedSource) :
    Program.Handler IncludeRequest (fun _ => Option Bytes) Session := fun request s =>
  let provider := (request.includer.bind fun file => source.dependency? file none).map (·.provider)
  match source.dependency? request.name provider with
  | some d => s.reply (some d.content)
  | none =>
    match s.extra.find? fun d => d.name = request.name with
    | some d => s.reply (some d.content)
    | none =>
      if request.name ∈ space.builtins then s.reply none
      else s.search space request

end Session

/-- A job that a toolchain has worked on. -/
structure ToolchainRun where
  job : Job
  answers : List (Option Bytes)
  succeeded : Bool
  deriving DecidableEq, Repr

structure Compilation where
  artifact : Artifact
  /-- The includes that the scan had not seen.  If there are any, the fingerprint does
  not cover everything that the artifact was made from. -/
  extra : List Dependency
  deriving DecidableEq, Repr

structure PreparedRequest where
  request : Request
  arch : Arch
  /-- The flags that apply to every request, and then those of this one. -/
  flags : List String
  space : IncludeSpace
  source : ResolvedSource

structure CompileReport where
  events : List Event
  run : ToolchainRun
  outcome : Except Failure Compilation

namespace PreparedRequest

/-- The expressions whose lowered names are wanted: the entries, and the addresses of
the constants. -/
def nameExpressions (request : Request) : List String :=
  request.entries ++ request.constants.map ("&" ++ ·)

def job (p : PreparedRequest) : Job where
  programName := p.request.programName
  source := p.source.text
  headers := p.source.headers
  options := p.flags
  arch := p.arch
  names := nameExpressions p.request

def listing (text : List Char) : String :=
  String.join ((Text.numberedLines text).map fun (number, line) =>
    "[" ++ String.ofList (Number.paddedDecimal 5 number) ++ "] " ++ String.ofList line ++ "\n")

/-- The symbol of an expression: the lowered name that the toolchain gave, else the
expression without ampersands in front. -/
def symbol (output : ToolchainOutput) (expression : String) : String :=
  (output.loweredNames.find? expression).getD
    (String.ofList (expression.toList.dropWhile (· == '&')))

def artifact (p : PreparedRequest) (output : ToolchainOutput) : Artifact where
  image := output.image
  format := output.format
  arch := p.arch.text
  entries := .ofList (p.request.entries.map fun e => (e, symbol output e))
  constants := .ofList (p.request.constants.map fun c => (c, symbol output ("&" ++ c)))

def explain (p : PreparedRequest) (log : String) (s : Session) : Failure :=
  match s.unreadable with
  | some cause => .unreadable cause
  | none =>
    let diagnostics := Diagnostic.ofLog log
    let missing := match s.missing with
      | some request => some request
      | none => (Diagnostic.missingInclude? log).map fun name => ⟨name, none⟩
    let refusal : Failure :=
      .compile ⟨p.request.label, diagnostics, log, missing.map (·.name)⟩
    match missing with
    | none => refusal
    | some request =>
      if request.name ∈ p.source.deferred then
        .notFound request.name (request.includer.or (diagnostics.head?.map (·.file)))
          p.space.path.order
      else refusal

def failureEvents (log : String) : Failure → List Event
  | .notFound .. => [.requiredIncludeMissing log]
  | .compile _ => [.compilationFailed log]
  | _ => []

/-- Answer the questions of a compilation and report how it ended.  `verbose` asks for
the listing and the log in addition. -/
def compile (p : PreparedRequest) (verbose : Bool) (dialogue : Dialogue) : CompileReport :=
  let (result, s) := dialogue.run (Session.answer p.space p.source) {}
  let opening :=
    if verbose then [Event.compiling p.request.programName (listing (Text.lossy p.source.text))]
    else []
  match result with
  | .error log =>
    let failure := p.explain log s
    { events := opening ++ s.events ++ failureEvents log failure
      run := ⟨p.job, s.answers, false⟩
      outcome := .error failure }
  | .ok output =>
    let closing :=
      if verbose ∧ ¬ Text.isBlankText output.log then [Event.toolchainLog output.log] else []
    { events := opening ++ s.events ++ .compiled :: closing
      run := ⟨p.job, s.answers, true⟩
      outcome := .ok ⟨p.artifact output, s.extra⟩ }

end PreparedRequest
end KernelDepot
