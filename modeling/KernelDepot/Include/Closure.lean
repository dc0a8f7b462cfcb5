/-
The include closure of a program.

The scan starts from the text of a program and follows every include directive,
also those in blocks that a compiler would skip, so what a compiler opens is meant
to be among what the scan finds.  A quoted name is looked for in the provider of
the file that includes it and then in search order; a name in angle brackets in
search order only.  A built-in name is left to the toolchain, and so is one that no
provider has.

Files wait on a stack.  A file is identified by its name and its provider, it is
put on the stack when it is found first, and never again.  The number of such
pairs is bounded by the texts that the providers can serve: a name is written on
some line of some text.  `fuel` is that bound, so the scan always empties its stack.
-/
import KernelDepot.Event
import KernelDepot.Include.Directive
import KernelDepot.Include.Resolved
import KernelDepot.Request
import KernelDepot.SearchPath

namespace KernelDepot

/-- What a directive turned out to be when it was met first. -/
inductive Finding where
  | dependency (d : Dependency)
  | builtin (name : String)
  | deferred (name : String)
  deriving DecidableEq, Repr

namespace Finding

def dependency? : Finding → Option Dependency
  | dependency d => some d
  | _ => none

def builtin? : Finding → Option String
  | builtin name => some name
  | _ => none

/-- The name that was left to the toolchain because no provider has it. -/
def deferred? : Finding → Option String
  | deferred name => some name
  | _ => none

def event? : Finding → Option Event
  | dependency d => some (.resolvedInclude d.name d.provider)
  | deferred name => some (.deferredInclude name)
  | builtin _ => none

end Finding

structure Page where
  label : String
  /-- The provider of the file; an inline program has none. -/
  provider : Option String
  content : Bytes
  deriving DecidableEq, Repr

/-- The state of a scan: what was found, in order, and the stack of files to read. -/
structure Survey where
  findings : List Finding
  pending : List Page
  deriving DecidableEq, Repr

/-- A scan that met a source it could not read, with what it had found before. -/
structure Interruption where
  findings : List Finding
  cause : Unreadable

/-- Where names are looked up: the providers, the disk they read, and the names
that are left to the toolchain. -/
structure IncludeSpace where
  path : SearchPath
  disk : Disk
  builtins : List String

namespace IncludeSpace

def look (space : IncludeSpace) (page : Page) (d : Directive) :
    Except Unreadable (Option Resolution) := do
  let near ← match d.quoted, page.provider with
    | true, some id => space.path.resolveIn space.disk id d.name
    | _, _ => pure none
  match near with
  | some hit => return some hit
  | none => space.path.resolve space.disk d.name

end IncludeSpace

namespace Survey

def hasSeen (s : Survey) (name provider : String) : Bool :=
  s.findings.any fun f =>
    match f.dependency? with
    | some d => d.name = name ∧ d.provider = provider
    | none => false

def note (s : Survey) (f : Finding) : Survey :=
  if f ∈ s.findings then s else { s with findings := s.findings ++ [f] }

/-- Note a file that `page` includes and put it on the stack, unless it was found
before. -/
def add (s : Survey) (page : Page) (name : String) (hit : Resolution) : Survey :=
  if s.hasSeen name hit.provider then s
  else
    { findings := s.findings ++ [.dependency ⟨name, hit.provider, hit.content, some page.label⟩]
      pending := ⟨name, some hit.provider, hit.content⟩ :: s.pending }

def follow (space : IncludeSpace) (page : Page) (s : Survey) (d : Directive) :
    Except Interruption Survey :=
  if d.name ∈ space.builtins then .ok (s.note (.builtin d.name))
  else
    match space.look page d with
    | .error cause => .error ⟨s.findings, cause⟩
    | .ok none => .ok (s.note (.deferred d.name))
    | .ok (some hit) => .ok (s.add page d.name hit)

def read (space : IncludeSpace) (page : Page) (s : Survey) : Except Interruption Survey :=
  (Directive.ofBytes page.content).foldlM (follow space page) s

/-- Read files from the stack until it is empty, at most `fuel` of them. -/
def drain (space : IncludeSpace) : Nat → Survey → Except Interruption Survey
  | 0, s => .ok s
  | fuel + 1, s =>
    match s.pending with
    | [] => .ok s
    | page :: rest =>
      match read space page { s with pending := rest } with
      | .error e => .error e
      | .ok s => drain space fuel s

end Survey

/-- The result of a scan, with its findings also when it failed. -/
structure Scan where
  findings : List Finding
  outcome : Except Failure ResolvedSource

namespace Scan

/-- A bound on the number of files that can be found from a text. -/
def fuel (space : IncludeSpace) (text : Bytes) : Nat :=
  space.path.lineBound space.disk [text] * space.path.registrations.length + 1

def ofPage (space : IncludeSpace) (origin : String) (page : Page) : Scan :=
  match Survey.drain space (fuel space page.content) ⟨[], [page]⟩ with
  | .error e => ⟨e.findings, .error (.unreadable e.cause)⟩
  | .ok s =>
    ⟨s.findings, .ok {
      origin
      text := page.content
      dependencies := s.findings.filterMap Finding.dependency?
      builtins := s.findings.filterMap Finding.builtin?
      deferred := s.findings.filterMap Finding.deferred? }⟩

def ofSource (space : IncludeSpace) (source : ProgramSource) : Scan :=
  match source with
  | .inline text => ofPage space "text" ⟨mainProgramName, none, Text.bytes text⟩
  | .named name =>
    match space.path.resolve space.disk name with
    | .error cause => ⟨[], .error (.unreadable cause)⟩
    | .ok none => ⟨[], .error (.notFound name none space.path.order)⟩
    | .ok (some hit) =>
      ofPage space (hit.provider ++ ":" ++ name) ⟨name, some hit.provider, hit.content⟩

def events (s : Scan) : List Event :=
  s.findings.filterMap Finding.event? ++
    match s.outcome with
    | .error (.unreadable u) => [.unreadableSource u.name u.provider]
    | _ => []

end Scan
end KernelDepot
