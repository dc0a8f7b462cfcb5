/-
What a compilation opens.

The simulated toolchain opens the includes of the live part of a program, and the scan follows
the directives of all of it.  If comments and conditional blocks do not cross in any text that
was scanned, then all that is opened was scanned: every name that the toolchain comes upon is
one of a dependency or was left to the toolchain, it asks for names of the second kind only,
and nobody has these.  So the session has no extra dependencies at the end.
-/
import KernelDepot.Proofs.Include.Contested
import KernelDepot.Proofs.Include.Questions
import KernelDepot.Proofs.Toolchain.Live
import KernelDepot.Toolchain.Simulated

namespace KernelDepot

open IncludeSpace SearchPath

namespace ResolvedSource

/-- The texts that a scan has read. -/
def texts (s : ResolvedSource) : List Bytes := s.text :: s.dependencies.map (·.content)

/-- A name that was left to the toolchain. -/
def Leaves (s : ResolvedSource) (name : String) : Prop := name ∈ s.builtins ∨ name ∈ s.deferred

/-- A name that a scan has met. -/
def Knows (s : ResolvedSource) (name : String) : Prop :=
  (∃ d ∈ s.dependencies, d.name = name) ∨ s.Leaves name

variable {s : ResolvedSource} {name : String} {content : Bytes}

theorem mem_firstOfEach {seen : List String} {ds : List Dependency} {entry : String × Bytes}
    (h : entry ∈ firstOfEach seen ds) : ∃ d ∈ ds, d.name = entry.1 ∧ d.content = entry.2 := by
  induction ds generalizing seen with
  | nil => exact absurd h List.not_mem_nil
  | cons d ds ih =>
    have hlater {seen : List String} (h : entry ∈ firstOfEach seen ds) :
        ∃ d' ∈ d :: ds, d'.name = entry.1 ∧ d'.content = entry.2 := by
      obtain ⟨d', hd', hentry⟩ := ih h
      exact ⟨d', List.mem_cons_of_mem _ hd', hentry⟩
    unfold firstOfEach at h
    split at h
    · exact hlater h
    · rcases List.mem_cons.mp h with rfl | h
      · exact ⟨d, List.mem_cons_self, rfl, rfl⟩
      · exact hlater h

end ResolvedSource

namespace IncludeSpace

variable {space : IncludeSpace} {root page : Page} {source : ResolvedSource}

/-- The directives of all scanned texts are known, as no file was met that cannot be read. -/
theorem IsClosure.knows (hc : space.IsClosure root source) (hno : ∀ u, ¬ space.Stumbles root u)
    (htext : source.text = root.content) {text : Bytes} (h : text ∈ source.texts)
    {d : Directive} (hd : d ∈ Directive.ofBytes text) : source.Knows d.name := by
  have hpage : ∃ page, space.Reaches root page ∧ page.content = text := by
    rcases List.mem_cons.mp h with rfl | h
    · exact ⟨root, .root, htext.symm⟩
    · obtain ⟨e, he, rfl⟩ := List.mem_map.mp h
      exact ⟨⟨e.name, some e.provider, e.content⟩,
        hc.mem_pages_iff.mp (List.mem_cons_of_mem _ (List.mem_map_of_mem he)), rfl⟩
  obtain ⟨page, hreaches, rfl⟩ := hpage
  have hmentions : space.Mentions root d.name := ⟨page, hreaches, d, hd, rfl⟩
  by_cases hb : d.name ∈ space.builtins
  · exact .inr (.inl ((hc.builtins _).mpr ⟨hb, hmentions⟩))
  · cases hlook : space.look page d with
    | error u => exact absurd (stumbles_of_look hreaches hd hb hlook) (hno u)
    | ok found =>
      cases found with
      | none => exact .inr (.inr ((hc.deferred _).mpr ⟨hb, hmentions, look_eq_none_iff.mp hlook⟩))
      | some hit =>
        obtain ⟨e, he, hname, -⟩ :=
          (hc.dependencies _ _ _).mpr ⟨page, hreaches, finds_of_look hd hb hlook⟩
        exact .inl ⟨e, he, hname⟩

theorem IsClosure.unscanned (hc : space.IsClosure root source) {name : String}
    (h : source.Leaves name) : ∀ d ∈ source.dependencies, d.name ≠ name := by
  rintro d hd rfl
  obtain ⟨hbuiltins, hdeferred⟩ := hc.disjoint d hd
  exact h.elim hbuiltins hdeferred

/-- Nobody is asked for a name that was left to the toolchain, or nobody has it. -/
theorem IsClosure.resolve_of_leaves (hc : space.IsClosure root source) {name : String}
    (h : source.Leaves name) :
    name ∈ space.builtins ∨ space.path.resolve space.disk name = .ok none := by
  rcases h with h | h
  · exact .inl ((hc.builtins name).mp h).1
  · exact .inr (resolveAmong_eq_none_iff.mpr ((hc.deferred name).mp h).2.2)

end IncludeSpace

/-! ## Dialogues that ask for what was left to the toolchain -/

/-- A dialogue from a session without extra dependencies asks only for names that were left to
the toolchain, adds no extra dependency, and has a result of some kind. -/
structure Foreseen {α : Type} (space : IncludeSpace) (source : ResolvedSource)
    (dialogue : Asking α) (s : Session) (good : α → Prop) : Prop where
  questions : ∀ r ∈ dialogue.questions (Session.answer space source) s, source.Leaves r.name
  extra : (dialogue.run (Session.answer space source) s).2.extra = []
  result : good (dialogue.run (Session.answer space source) s).1

namespace Foreseen

variable {α β : Type} {space : IncludeSpace} {root : Page} {source : ResolvedSource}
  {s : Session} {good : α → Prop} {good' : β → Prop}

theorem pure {a : α} (hs : s.extra = []) (ha : good a) :
    Foreseen space source (Pure.pure a) s good :=
  ⟨fun _ hr => absurd hr List.not_mem_nil, hs, ha⟩

theorem bind {dialogue : Asking α} {next : α → Asking β}
    (h : Foreseen space source dialogue s good)
    (hnext : ∀ a s', s'.extra = [] → good a → Foreseen space source (next a) s' good') :
    Foreseen space source (dialogue >>= next) s good' := by
  have h' := hnext _ _ h.extra h.result
  refine ⟨fun r hr => ?_, ?_, ?_⟩
  · rw [Program.questions_bind] at hr
    rcases List.mem_append.mp hr with hr | hr
    · exact h.questions r hr
    · exact h'.questions r hr
  · rw [Program.run_bind]
    exact h'.extra
  · rw [Program.run_bind]
    exact h'.result

/-- A name that was left to the toolchain is not found for it either. -/
theorem question (hc : space.IsClosure root source) (hs : s.extra = [])
    {request : IncludeRequest} (h : source.Leaves request.name) :
    Foreseen space source (Program.question request) s (· = none) := by
  have hunscanned := hc.unscanned h
  have hnone : ∀ provider, source.dependency? request.name provider = none :=
    fun _ => ResolvedSource.dependency?_eq_none_iff.mpr hunscanned
  have hunforeseen : ¬ space.Unforeseen source request := by
    rintro ⟨-, hbuiltin, hit, hfound⟩
    rcases hc.resolve_of_leaves h with hb | hresolve
    · exact hbuiltin hb
    · exact nomatch hfound.symm.trans hresolve
  refine ⟨?_, (Session.extra_answer space source request s).mpr ⟨hs, hunforeseen⟩, ?_⟩
  · intro r hr
    obtain rfl := List.mem_singleton.mp hr
    exact h
  · show (Session.answer space source request s).1 = none
    unfold Session.answer
    simp only [hnone, hs, List.find?_nil]
    rcases hc.resolve_of_leaves h with hb | hresolve
    · rw [if_pos hb]
      rfl
    · split
      · rfl
      · unfold Session.search
        rw [hresolve]
        rfl

end Foreseen

namespace SimulatedToolchain

/-! ## The walk of the toolchain -/

/-- The names in the live directives of all files that are read, in order. -/
def namesRead {σ : Type} (headers : List (String × Bytes))
    (handle : Program.Handler IncludeRequest (fun _ => Option Bytes) σ) :
    Nat → List String → Opening → σ → List String
  | 0, _, _, _ => []
  | fuel + 1, defined, s, x =>
    match s.pending with
    | [] => []
    | (file, content) :: rest =>
      let live := Conditional.liveText defined (Text.lossy content)
      let directives := Directive.ofText live.1
      let opened := (openAll headers file { s with pending := rest } directives).run handle x
      directives.map (·.name) ++
        match opened.1 with
        | .ok s => namesRead headers handle fuel live.2 s opened.2
        | .error _ => []

/-- The names that a compilation comes upon when it reads the live part of its files. -/
def namesMet {σ : Type} (job : Job)
    (handle : Program.Handler IncludeRequest (fun _ => Option Bytes) σ) (x : σ) : List String :=
  namesRead job.headers handle openLimit (definedAtStart job.options)
    ⟨[], [(job.programName, job.source)]⟩ x

/-- Only files with given contents wait. -/
def Opening.Within (texts : List Bytes) (s : Opening) : Prop :=
  ∀ waiting ∈ s.pending, waiting.2 ∈ texts

theorem Opening.Within.next {texts : List Bytes} {s : Opening} (h : s.Within texts)
    {file : String} {content : Bytes} {rest : List (String × Bytes)}
    (hpending : s.pending = (file, content) :: rest) :
    content ∈ texts ∧ Opening.Within texts { s with pending := rest } := by
  unfold Within at h
  rw [hpending] at h
  exact List.forall_mem_cons.mp h

section Walk

variable {space : IncludeSpace} {root : Page} {source : ResolvedSource} {session : Session}

theorem mem_texts_of_header? {name : String} {content : Bytes}
    (h : header? source.headers name = some content) : content ∈ source.texts := by
  obtain ⟨before, after, heq, -⟩ := List.lookup_eq_some_iff.mp h
  have hmem : (name, content) ∈ source.headers := by
    rw [← List.mem_reverse, heq]
    exact List.mem_append_right _ List.mem_cons_self
  obtain ⟨d, hd, -, rfl⟩ := ResolvedSource.mem_firstOfEach hmem
  exact List.mem_cons_of_mem _ (List.mem_map_of_mem hd)

theorem header?_of_mem {d : Dependency} (hd : d ∈ source.dependencies) :
    header? source.headers d.name ≠ none := by
  intro hnone
  have hlookup : source.headers.lookup d.name = none := by
    rw [List.lookup_eq_none_iff]
    exact fun entry hentry => List.lookup_eq_none_iff.mp hnone entry (List.mem_reverse.mpr hentry)
  rw [ResolvedSource.lookup_headers, Option.map_eq_none_iff] at hlookup
  exact ResolvedSource.dependency?_eq_none_iff.mp hlookup d hd rfl

variable (hc : space.IsClosure root source)
include hc

theorem foreseen_openInclude {file : String} {s : Opening} {d : Directive}
    (hs : s.Within source.texts) (hd : source.Knows d.name) (hsession : session.extra = []) :
    Foreseen space source (openInclude source.headers file s d) session
      fun result => ∀ s', result = .ok s' → s'.Within source.texts := by
  unfold openInclude
  split
  · exact .pure hsession fun s' h => Except.ok.inj h ▸ hs
  · simp only
    cases hheader : header? source.headers d.name with
    | some content =>
      refine .pure hsession fun s' h => ?_
      rw [← Except.ok.inj h]
      exact List.forall_mem_cons.mpr ⟨mem_texts_of_header? hheader, hs⟩
    | none =>
      have hleaves : source.Leaves d.name := by
        rcases hd with ⟨e, he, hname⟩ | hleaves
        · exact absurd (hname ▸ hheader) (header?_of_mem he)
        · exact hleaves
      have hasked : Foreseen space source (Program.question ⟨d.name, some file⟩) session
          (· = none) := .question hc hsession hleaves
      refine hasked.bind ?_
      rintro _ session' hsession' rfl
      exact .pure hsession' fun s' h => nomatch h

theorem foreseen_openAll {file : String} {s : Opening} {ds : List Directive}
    (hs : s.Within source.texts) (hds : ∀ d ∈ ds, source.Knows d.name)
    (hsession : session.extra = []) :
    Foreseen space source (openAll source.headers file s ds) session
      fun result => ∀ s', result = .ok s' → s'.Within source.texts := by
  induction ds generalizing s session with
  | nil => exact .pure hsession fun s' h => Except.ok.inj h ▸ hs
  | cons d rest ih =>
    obtain ⟨hd, hrest⟩ := List.forall_mem_cons.mp hds
    refine (foreseen_openInclude hc hs hd hsession).bind fun result session' hsession' hgood => ?_
    cases result with
    | ok s' => exact ih (hgood s' rfl) hrest hsession'
    | error log => exact .pure hsession' fun s' h => nomatch h

variable (hknows : ∀ text ∈ source.texts, ∀ defined,
  ∀ d ∈ Directive.ofText (Conditional.liveText defined (Text.lossy text)).1, source.Knows d.name)
include hknows

theorem foreseen_readPending {fuel : Nat} {defined : List String} {s : Opening}
    (hs : s.Within source.texts) (hsession : session.extra = []) :
    Foreseen space source (readPending source.headers fuel defined s) session fun _ => True := by
  induction fuel generalizing defined s session with
  | zero => exact .pure hsession trivial
  | succ fuel ih =>
    unfold readPending
    split
    · exact .pure hsession trivial
    · next file content rest hpending =>
      obtain ⟨hcontent, hrest⟩ := hs.next hpending
      refine (foreseen_openAll hc hrest (hknows content hcontent defined) hsession).bind
        fun result session' hsession' hgood => ?_
      cases result with
      | ok s' => exact ih (hgood s' rfl) hsession'
      | error log => exact .pure hsession' trivial

theorem knows_of_mem_namesRead {fuel : Nat} {defined : List String} {s : Opening}
    (hs : s.Within source.texts) (hsession : session.extra = []) {name : String}
    (h : name ∈ namesRead source.headers (Session.answer space source) fuel defined s session) :
    source.Knows name := by
  induction fuel generalizing defined s session with
  | zero => exact absurd h List.not_mem_nil
  | succ fuel ih =>
    unfold namesRead at h
    split at h
    · exact absurd h List.not_mem_nil
    · next file content rest hpending =>
      obtain ⟨hcontent, hrest⟩ := hs.next hpending
      have hopened := @foreseen_openAll _ _ _ _ hc file _ _ hrest
        (hknows content hcontent defined) hsession
      rcases List.mem_append.mp h with hread | hlater
      · obtain ⟨d, hd, rfl⟩ := List.mem_map.mp hread
        exact hknows content hcontent defined d hd
      · split at hlater
        · next s' hrun => exact ih (hopened.result s' hrun) hopened.extra hlater
        · exact absurd hlater List.not_mem_nil

theorem foreseen_compile {t : SimulatedToolchain} (hhidden : t.hiddenIncludes = []) {job : Job}
    (hheaders : job.headers = source.headers) (htext : job.source = source.text)
    (hsession : session.extra = []) :
    Foreseen space source (t.compile job) session fun _ => True := by
  have hstart : Opening.Within source.texts ⟨[], [(job.programName, job.source)]⟩ := by
    intro waiting hwaiting
    obtain rfl := List.mem_singleton.mp hwaiting
    rw [htext]
    exact List.mem_cons_self
  unfold compile
  rw [hheaders, hhidden]
  refine (foreseen_readPending hc hknows hstart hsession).bind fun result session' hsession' _ => ?_
  cases result with
  | error log => exact .pure hsession' trivial
  | ok _ =>
    simp only [askHidden, pure_bind]
    split <;> exact .pure hsession' trivial

end Walk

end SimulatedToolchain

open SimulatedToolchain

/-- If comments and conditional blocks do not cross in the scanned texts, all that a compilation
comes upon in live directives was scanned or left to the toolchain, what it asks for was left to
it, and nothing is noted as an extra dependency. -/
theorem PreparedRequest.foresees_compile {p : PreparedRequest} {program : ProgramSource}
    {t : SimulatedToolchain} (hpath : p.space.path.Assembled)
    (hscan : (Scan.ofSource p.space program).outcome = .ok p.source)
    (hhidden : t.hiddenIncludes = [])
    (halike : ∀ text ∈ p.source.texts, ∀ defined,
      Conditional.ReadsAlike ⟨[], defined⟩ false false (Text.lines (Text.lossy text))) :
    (∀ name ∈ namesMet p.job (Session.answer p.space p.source) {}, p.source.Knows name) ∧
    (∀ r ∈ (t.compile p.job).questions (Session.answer p.space p.source) {},
      p.source.Leaves r.name) ∧
    ∀ verbose result, (p.compile verbose (t.compile p.job)).outcome = .ok result →
      result.extra = [] := by
  obtain ⟨-, hends, hclosure⟩ := Scan.ofSource_isClosure hpath program
  obtain ⟨origin, root, hstarts, hno⟩ := hends.mp ⟨_, hscan⟩
  obtain ⟨_, root', hstarts', -, htext, hc⟩ := hclosure _ hscan
  obtain ⟨-, rfl⟩ := hstarts'.unique hstarts
  have hknows : ∀ text ∈ p.source.texts, ∀ defined,
      ∀ d ∈ Directive.ofText (Conditional.liveText defined (Text.lossy text)).1,
        p.source.Knows d.name := fun text hmem defined d hd =>
    hc.knows hno htext hmem (Conditional.mem_ofText_of_readsAlike (halike text hmem defined) hd)
  have hforeseen := @foreseen_compile _ _ _ {} hc hknows t hhidden p.job rfl rfl rfl
  refine ⟨fun name hname => ?_, hforeseen.questions, fun verbose result hresult => ?_⟩
  · refine knows_of_mem_namesRead hc hknows ?_ rfl hname
    intro waiting hwaiting
    obtain rfl := List.mem_singleton.mp hwaiting
    exact List.mem_cons_self
  · have hextra := hforeseen.extra
    unfold PreparedRequest.compile at hresult
    simp only at hresult
    split at hresult
    · exact nomatch hresult
    · rw [← Except.ok.inj hresult]
      exact hextra

/-! ## A comment that begins in a block that is switched off -/

namespace Crossing

def provider : Provider := Ring.provider "p" [("x.h", "")]

def path : SearchPath := ({} : SearchPath).register provider 0

theorem path_eq : path = ⟨[⟨provider, 0, false, 0⟩], 1⟩ := by
  simp [path, SearchPath.register, SearchPath.insert, SearchPath.unregister]

def space : IncludeSpace := ⟨path, {}, []⟩

def apart : String := "#if 0\n#include <none.h>\n#endif\n/* two\nlines */\n#include \"x.h\"\n"

/-- The first `#endif` stands in the comment.  Who evaluates the block first sees no comment. -/
def crossed : String := "#if 0\n/*\n#endif\n#include \"x.h\"\n*/\n#endif\nvoid k();\n"

def prepared (text : String) (dependencies : List Dependency) (deferred : List String) :
    PreparedRequest :=
  ⟨Request.single "k" (.inline text) "sm_80", .sm 8 0, [], space,
    ⟨"text", Text.bytes text, dependencies, [], deferred⟩⟩

def header : Dependency := ⟨"x.h", "p", [], some mainProgramName⟩

def apartRequest : PreparedRequest := prepared apart [header] ["none.h"]

def crossedRequest : PreparedRequest := prepared crossed [] []

/-- The extra dependencies of a compilation that succeeds. -/
def extra? (p : PreparedRequest) : Option (List Dependency) :=
  (p.compile false (({} : SimulatedToolchain).compile p.job)).outcome.toOption.map (·.extra)

theorem outcome_apart :
    (Scan.ofSource space (.inline apart)).outcome = .ok apartRequest.source := by
  refine Except.eq_ok_of_toOption ?_
  rw [space, path_eq]
  decide +kernel

theorem outcome_crossed :
    (Scan.ofSource space (.inline crossed)).outcome = .ok crossedRequest.source := by
  refine Except.eq_ok_of_toOption ?_
  rw [space, path_eq]
  decide +kernel

theorem isSome_extra?_apart : (extra? apartRequest).isSome = true := by
  rw [apartRequest, prepared, space, path_eq]
  decide +kernel

theorem extra?_crossed : extra? crossedRequest = some [header] := by
  rw [crossedRequest, prepared, space, path_eq]
  decide +kernel

theorem isTidy_apart : ∀ text ∈ apartRequest.source.texts,
    Conditional.isTidy false (Text.lines (Text.lossy text)) = true := by
  decide +kernel

/-- Where they stand apart the compilation has no extra dependencies.  Where they cross it has
one, although the scan has met no include at all. -/
theorem extra_apart_crossed : apartRequest.space.path.Assembled ∧
    (Scan.ofSource apartRequest.space (.inline apart)).outcome = .ok apartRequest.source ∧
    (∀ text ∈ apartRequest.source.texts, ∀ defined,
      Conditional.ReadsAlike ⟨[], defined⟩ false false (Text.lines (Text.lossy text))) ∧
    extra? apartRequest = some [] ∧
    (Scan.ofSource crossedRequest.space (.inline crossed)).outcome = .ok crossedRequest.source ∧
    extra? crossedRequest = some [header] := by
  have hpath : apartRequest.space.path.Assembled := .register provider 0 .empty
  have halike : ∀ text ∈ apartRequest.source.texts, ∀ defined,
      Conditional.ReadsAlike ⟨[], defined⟩ false false (Text.lines (Text.lossy text)) :=
    fun text h defined => Conditional.readsAlike_of_isTidy (isTidy_apart text h) (fun _ => rfl)
      fun h => nomatch h
  obtain ⟨-, -, hextra⟩ := PreparedRequest.foresees_compile (t := {}) hpath outcome_apart rfl halike
  refine ⟨hpath, outcome_apart, halike, ?_, outcome_crossed, extra?_crossed⟩
  obtain ⟨found, hfound⟩ := Option.isSome_iff_exists.mp isSome_extra?_apart
  obtain ⟨result, hresult, rfl⟩ := Option.map_eq_some_iff.mp hfound
  rw [hfound, hextra false result (Except.eq_ok_of_toOption hresult)]

end Crossing
end KernelDepot
