/-
Names that several files contend for.

The scan looks a directive up in the place where it stands, so two directives with one name
may lead to files of different providers, and both are dependencies.  A toolchain that has
the header table opens an include by its name alone and gets the file that was discovered
first.  So all directives of a program are opened as the scan resolved them if and only if
no two dependencies of one name differ in content: this is `opened_eq_iff`.
-/
import KernelDepot.Proofs.Fingerprint.Jobs
import KernelDepot.Proofs.Include.Closure

namespace KernelDepot

open IncludeSpace

namespace ResolvedSource

/-- The files that a scan has read: the program itself, and the dependencies. -/
def pages (s : ResolvedSource) (root : Page) : List Page :=
  root :: s.dependencies.map fun d => ⟨d.name, some d.provider, d.content⟩

/-- No two dependencies contend for a name with different contents. -/
def Uncontested (s : ResolvedSource) : Prop :=
  ∀ d ∈ s.dependencies, ∀ e ∈ s.dependencies, d.name = e.name → d.content = e.content

end ResolvedSource

namespace PreparedRequest

/-- What a toolchain gets that opens an include of a file: the header of that name, and if
there is none the answer to its question. -/
def opened (p : PreparedRequest) (s : Session) (page : Page) (name : String) : Option Bytes :=
  match p.job.headers.lookup name with
  | some content => some content
  | none => (Session.answer p.space p.source ⟨name, some page.label⟩ s).1

end PreparedRequest

namespace IncludeSpace

variable {space : IncludeSpace} {root page : Page} {source : ResolvedSource} {d : Directive}
  {hit : Resolution}

/-- The directive is resolved to the file when it is read in the page. -/
structure Resolves (space : IncludeSpace) (page : Page) (d : Directive) (hit : Resolution) :
    Prop where
  stands : d ∈ Directive.ofBytes page.content
  notBuiltin : d.name ∉ space.builtins
  look : space.look page d = .ok (some hit)

theorem Resolves.finds (h : space.Resolves page d hit) :
    space.Finds page d.name hit.provider hit.content :=
  finds_of_look h.stands h.notBuiltin h.look

theorem Finds.exists_resolves {name provider : String} {content : Bytes}
    (h : space.Finds page name provider content) :
    ∃ d, d.name = name ∧ space.Resolves page d ⟨provider, content⟩ := by
  obtain ⟨d, hd, rfl, hlook⟩ := h.exists_look
  exact ⟨d, rfl, hd, h.notBuiltin, hlook⟩

namespace IsClosure

/-- The files that a scan has read are those that the program reaches. -/
theorem mem_pages_iff (hc : space.IsClosure root source) :
    page ∈ source.pages root ↔ space.Reaches root page := by
  unfold ResolvedSource.pages
  rw [List.mem_cons, List.mem_map]
  constructor
  · rintro (rfl | ⟨d, hd, rfl⟩)
    · exact .root
    · obtain ⟨including, hreach, hfinds⟩ :=
        (hc.dependencies d.name d.provider d.content).mp ⟨d, hd, rfl, rfl, rfl⟩
      exact .follow hreach hfinds
  · rintro (_ | ⟨hreach, hfinds⟩)
    · exact .inl rfl
    · obtain ⟨d, hd, rfl, rfl, rfl⟩ := (hc.dependencies _ _ _).mpr ⟨_, hreach, hfinds⟩
      exact .inr ⟨d, hd, rfl⟩

/-- What a directive of a scanned file is resolved to is a dependency. -/
theorem exists_dependency (hc : space.IsClosure root source) (hpage : page ∈ source.pages root)
    (h : space.Resolves page d hit) :
    ∃ e ∈ source.dependencies,
      e.name = d.name ∧ e.provider = hit.provider ∧ e.content = hit.content :=
  (hc.dependencies _ _ _).mpr ⟨page, hc.mem_pages_iff.mp hpage, h.finds⟩

/-- Every dependency is what some directive of a scanned file is resolved to. -/
theorem exists_resolves (hc : space.IsClosure root source) {e : Dependency}
    (he : e ∈ source.dependencies) :
    ∃ page ∈ source.pages root, ∃ d, d.name = e.name ∧
      space.Resolves page d ⟨e.provider, e.content⟩ := by
  obtain ⟨page, hreach, hfinds⟩ := (hc.dependencies _ _ _).mp ⟨e, he, rfl, rfl, rfl⟩
  obtain ⟨d, hname, hresolves⟩ := hfinds.exists_resolves
  exact ⟨page, hc.mem_pages_iff.mpr hreach, d, hname, hresolves⟩

end IsClosure
end IncludeSpace

namespace PreparedRequest

variable {p : PreparedRequest} {program : ProgramSource} {origin : String} {root page : Page}
  {d : Directive} {hit : Resolution} {s : Session}

/-- A name that has a dependency is opened as the first of that name. -/
theorem opened_eq_of_dependency? {first : Dependency} {name : String}
    (h : p.source.dependency? name none = some first) :
    p.opened s page name = some first.content := by
  have hlookup : p.job.headers.lookup name = some first.content := by
    show p.source.headers.lookup name = _
    rw [ResolvedSource.lookup_headers, h]
    rfl
  unfold opened
  rw [hlookup]

theorem dependency?_of_resolves (hc : p.space.IsClosure root p.source)
    (hpage : page ∈ p.source.pages root) (h : p.space.Resolves page d hit) :
    ∃ first, p.source.dependency? d.name none = some first := by
  obtain ⟨e, he, hname, -⟩ := hc.exists_dependency hpage h
  exact Option.isSome_iff_exists.mp
    ((ResolvedSource.dependency?_isSome_iff p.source d.name).mpr ⟨e, he, hname⟩)

/-- A toolchain that opens an include gets the file of that name that the scan discovered
first.  It is the one that the scan resolved the directive to if they have the provider in
common or at least the content, and this holds for all directives of all files together if
and only if no name is contested. -/
theorem opened_eq_iff (hpath : p.space.path.Assembled)
    (hscan : (Scan.ofSource p.space program).outcome = .ok p.source)
    (hstarts : p.space.Starts program origin root) (s : Session) :
    (∀ page ∈ p.source.pages root, ∀ d hit, p.space.Resolves page d hit →
      ∃ first, p.source.dependency? d.name none = some first ∧
        p.opened s page d.name = some first.content ∧
        (p.opened s page d.name = some hit.content ↔
          first.provider = hit.provider ∨ first.content = hit.content)) ∧
    ((∀ page ∈ p.source.pages root, ∀ d hit, p.space.Resolves page d hit →
        p.opened s page d.name = some hit.content) ↔ p.source.Uncontested) := by
  obtain ⟨_, root', hstarts', -, -, hc⟩ := (Scan.ofSource_isClosure hpath program).2.2 _ hscan
  obtain ⟨-, rfl⟩ := hstarts'.unique hstarts
  have hopened : ∀ page ∈ p.source.pages root', ∀ d hit, p.space.Resolves page d hit →
      ∃ first, p.source.dependency? d.name none = some first ∧
        p.opened s page d.name = some first.content := by
    intro page hpage d hit h
    obtain ⟨first, hfirst⟩ := dependency?_of_resolves hc hpage h
    exact ⟨first, hfirst, opened_eq_of_dependency? hfirst⟩
  refine ⟨?_, ?_, ?_⟩
  · intro page hpage d hit h
    obtain ⟨first, hfirst, hcontent⟩ := hopened page hpage d hit h
    refine ⟨first, hfirst, hcontent, ?_⟩
    rw [hcontent, Option.some.injEq]
    refine ⟨.inr, ?_⟩
    rintro (hprovider | hsame)
    · -- one provider serves one content under a name
      obtain ⟨hmem, hname⟩ := ResolvedSource.mem_of_dependency? hfirst
      obtain ⟨including, -, hfinds⟩ := (hc.dependencies d.name hit.provider first.content).mp
        ⟨first, hmem, hname, hprovider, rfl⟩
      exact hfinds.content_eq hpath h.finds
    · exact hsame
  · intro hall a ha b hb hname
    obtain ⟨pageA, hpageA, dA, hdA, hresolvesA⟩ := hc.exists_resolves ha
    obtain ⟨pageB, hpageB, dB, hdB, hresolvesB⟩ := hc.exists_resolves hb
    have hA := hall pageA hpageA dA _ hresolvesA
    have hB := hall pageB hpageB dB _ hresolvesB
    obtain ⟨first, hfirst, -⟩ := hopened pageA hpageA dA _ hresolvesA
    rw [opened_eq_of_dependency? hfirst] at hA
    rw [hdB, ← hname, ← hdA, opened_eq_of_dependency? hfirst] at hB
    exact Option.some.inj (hA.symm.trans hB)
  · intro huncontested page hpage d hit h
    obtain ⟨first, hfirst, hcontent⟩ := hopened page hpage d hit h
    obtain ⟨hmem, hname⟩ := ResolvedSource.mem_of_dependency? hfirst
    obtain ⟨e, he, hename, -, hecontent⟩ := hc.exists_dependency hpage h
    rw [hcontent, huncontested first hmem e he (hname.trans hename.symm), hecontent]

end PreparedRequest

/-! ## Two copies in the ring

The header `deep.h` of `far` includes "ring.h".  The scan takes that from `far` too, but it
has met the copy of `near` before. -/

namespace Ring

def deep : Page := ⟨"deep.h", some "far", Text.bytes "#include \"ring.h\"\n#include <cuda.h>\n"⟩

def nearCopy : Bytes :=
  Text.bytes "#include \"ring.h\"\n#include <deep.h>\n#include <none.h>\n"

def farCopy : Bytes := Text.bytes "#include <deep.h>\n"

def found : ResolvedSource where
  origin := "text"
  text := Text.bytes "#include <ring.h>\n"
  dependencies := [⟨"ring.h", "near", nearCopy, some mainProgramName⟩,
    ⟨"deep.h", "far", deep.content, some "ring.h"⟩, ⟨"ring.h", "far", farCopy, some "deep.h"⟩]
  builtins := ["cuda.h"]
  deferred := ["none.h"]

def prepared : PreparedRequest :=
  ⟨Request.single "k" program "sm_80", .sm 8 0, [], space, found⟩

theorem outcome_prepared :
    (Scan.ofSource prepared.space program).outcome = .ok prepared.source := by
  refine Except.eq_ok_of_toOption ?_
  rw [prepared, space, path_eq]
  decide +kernel

theorem resolves_deep : prepared.space.Resolves deep ⟨"ring.h", true, 1⟩ ⟨"far", farCopy⟩ := by
  refine ⟨by decide +kernel, by decide, Except.eq_ok_of_toOption ?_⟩
  rw [prepared, space, path_eq]
  decide +kernel

/-- The toolchain gets the copy of `near` where the scan resolved the directive to `far`. -/
theorem opened_deep : prepared.space.Resolves deep ⟨"ring.h", true, 1⟩ ⟨"far", farCopy⟩ ∧
    prepared.opened {} deep "ring.h" = some nearCopy ∧ nearCopy ≠ farCopy ∧
    ¬ prepared.source.Uncontested := by
  have hne : nearCopy ≠ farCopy := by decide +kernel
  have hdeep : deep ∈ prepared.source.pages
      ⟨mainProgramName, none, Text.bytes "#include <ring.h>\n"⟩ := by decide +kernel
  obtain ⟨heach, hall⟩ := PreparedRequest.opened_eq_iff assembled_path outcome_prepared
    (.inline "#include <ring.h>\n") {}
  obtain ⟨first, hfirst, hopened, -⟩ := heach deep hdeep _ _ resolves_deep
  obtain rfl : first = ⟨"ring.h", "near", nearCopy, some mainProgramName⟩ :=
    Option.some.inj (hfirst.symm.trans rfl)
  refine ⟨resolves_deep, hopened, hne, fun huncontested => hne ?_⟩
  exact Option.some.inj (hopened.symm.trans
    (hall.mpr huncontested deep hdeep _ _ resolves_deep))

end Ring
end KernelDepot
