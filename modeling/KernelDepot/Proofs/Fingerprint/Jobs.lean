/-
What equal fingerprints say about the jobs of a toolchain.

Two requests whose fingerprints are made from the same bytes hand the toolchain the same
source, the same options, the same architecture and the same name expressions.  The two
parts of a job that are left need not be the same, and `alike_iff_of_ofInputs_eq` says
exactly when they are.

The program of a named source is called by its name, while the preimage holds the
provider and the name with a colon between them.  Either may hold a colon of its own, so
the same origin can be cut at two places.

The header table keeps the copy of a name that was discovered first, while the preimage
holds all copies sorted.  Two search paths can discover the same copies in different
orders, and then the tables differ in a name of which there are two different copies.
-/
import KernelDepot.Proofs.Depot.Prepare
import KernelDepot.Proofs.Fingerprint.Canonical
import KernelDepot.Proofs.Include.Survey
import KernelDepot.Provider.Table

namespace KernelDepot

/-- Two jobs that are the same for a toolchain, which looks headers up by name. -/
structure Job.Alike (a b : Job) : Prop where
  programName : a.programName = b.programName
  source : a.source = b.source
  headers : ∀ name, a.headers.lookup name = b.headers.lookup name
  options : a.options = b.options
  arch : a.arch = b.arch
  names : a.names = b.names

/-! ## Header tables -/

namespace ResolvedSource

/-- The header table answers with the first dependency of a name. -/
theorem lookup_firstOfEach (seen : List String) (ds : List Dependency) (name : String) :
    (firstOfEach seen ds).lookup name =
      if name ∈ seen then none else (ds.find? fun d => d.name = name).map (·.content) := by
  induction ds generalizing seen with
  | nil => simp [firstOfEach]
  | cons d ds ih =>
    by_cases hd : d.name ∈ seen
    · rw [firstOfEach, if_pos hd, ih]
      by_cases hn : name ∈ seen
      · rw [if_pos hn, if_pos hn]
      · have hne : d.name ≠ name := fun e => hn (e ▸ hd)
        rw [if_neg hn, if_neg hn, List.find?_cons_of_neg (by simpa using hne)]
    · rw [firstOfEach, if_neg hd, List.lookup_cons, ih]
      by_cases he : name = d.name
      · subst he
        rw [if_neg hd, List.find?_cons_of_pos (by simp)]
        simp
      · have hbeq : (name == d.name) = false := beq_false_of_ne he
        have hmem : name ∈ d.name :: seen ↔ name ∈ seen := by simp [he]
        rw [hbeq, List.find?_cons_of_neg (by simpa using fun e => he e.symm)]
        simp only [hmem]

theorem lookup_headers (s : ResolvedSource) (name : String) :
    s.headers.lookup name = (s.dependency? name none).map (·.content) := by
  unfold headers dependency?
  rw [lookup_firstOfEach, if_neg List.not_mem_nil]
  rfl

theorem mem_of_dependency? {s : ResolvedSource} {name : String} {d : Dependency}
    (h : s.dependency? name none = some d) : d ∈ s.dependencies ∧ d.name = name := by
  have hf : (s.dependencies.find? fun d => d.name = name) = some d := h
  exact ⟨List.mem_of_find?_eq_some hf, by simpa using List.find?_some hf⟩

/-- A name is in the header table exactly if it has a dependency. -/
theorem dependency?_isSome_iff (s : ResolvedSource) (name : String) :
    (s.dependency? name none).isSome ↔ ∃ d ∈ s.dependencies, d.name = name := by
  show (s.dependencies.find? fun d => d.name = name).isSome ↔ _
  simp

end ResolvedSource

/-! ## Sources that the same bytes stand for -/

namespace Preimage

variable {s₁ s₂ : ResolvedSource}

/-- Every dependency of one source has its counterpart in the other. -/
theorem exists_counterpart (h : sortedKeys s₁ = sortedKeys s₂) {d : Dependency}
    (hd : d ∈ s₁.dependencies) : ∃ e ∈ s₂.dependencies, e.key = d.key :=
  mem_sortedKeys.mp (h ▸ mem_sortedKeys.mpr ⟨d, hd, rfl⟩)

theorem dependency?_isSome_eq (h : sortedKeys s₁ = sortedKeys s₂) (name : String) :
    (s₁.dependency? name none).isSome = (s₂.dependency? name none).isSome := by
  rw [Bool.eq_iff_iff, ResolvedSource.dependency?_isSome_iff,
    ResolvedSource.dependency?_isSome_iff]
  constructor
  · rintro ⟨d, hd, rfl⟩
    obtain ⟨e, he, hk⟩ := exists_counterpart h hd
    exact ⟨e, he, congrArg Prod.fst hk⟩
  · rintro ⟨d, hd, rfl⟩
    obtain ⟨e, he, hk⟩ := exists_counterpart h.symm hd
    exact ⟨e, he, congrArg Prod.fst hk⟩

/-- Copies of one name from one provider have one content in both sources. -/
theorem content_eq_of_provider_eq {space : IncludeSpace} {program : ProgramSource}
    (hs : (Scan.ofSource space program).outcome = .ok s₂) (h : sortedKeys s₁ = sortedKeys s₂)
    {d e : Dependency} (hd : d ∈ s₁.dependencies) (he : e ∈ s₂.dependencies)
    (hname : d.name = e.name) (hprovider : d.provider = e.provider) : d.content = e.content := by
  obtain ⟨c, hc, hk⟩ := exists_counterpart h hd
  simp only [Dependency.key, Prod.mk.injEq] at hk
  obtain ⟨hcn, hcp, hcc⟩ := hk
  rw [← hcc, Scan.eq_of_mem_dependencies hs hc he (hcn.trans hname) (hcp.trans hprovider)]

end Preimage

namespace Depot

/-- An inline program and a named one never have the same origin. -/
theorem text_ne_origin (provider name : String) : "text" ≠ provider ++ ":" ++ name := by
  intro h
  have hcolon : ':' ∈ "text".toList := by rw [h]; simp
  exact absurd hcolon (by decide)

/-- An origin is cut into a provider and a name by the length of the name. -/
theorem name_eq_of_origin_eq {provider₁ provider₂ name₁ name₂ : String}
    (h : provider₁ ++ ":" ++ name₁ = provider₂ ++ ":" ++ name₂)
    (hlen : name₁.length = name₂.length) : name₁ = name₂ := by
  have hl := congrArg String.toList h
  simp only [String.toList_append] at hl
  exact String.toList_inj.mp (List.append_inj_right' hl hlen)

variable {d₁ d₂ : Depot} {disk₁ disk₂ : Disk} {path₁ path₂ : SearchPath}
variable {request₁ request₂ : Request} {p₁ p₂ : KeyedRequest}

/-- Programs of one origin have one name, unless they are named and the names are not of
the same length. -/
theorem programName_eq_iff (h₁ : d₁.Prepares disk₁ path₁ request₁ p₁)
    (h₂ : d₂.Prepares disk₂ path₂ request₂ p₂) (h : p₁.source.origin = p₂.source.origin) :
    request₁.programName = request₂.programName ↔
      ∀ name₁ name₂, request₁.source = .named name₁ → request₂.source = .named name₂ →
        name₁.length = name₂.length := by
  have horigin {space : IncludeSpace} {origin : String} {page : Page} {source : ResolvedSource}
      (hp : (Scan.ofPage space origin page).outcome = .ok source) : source.origin = origin := by
    obtain ⟨_, _, he, _⟩ := Scan.ofPage_eq_ok hp
    exact he
  unfold Request.programName
  rcases Scan.ofSource_eq_ok h₁.source with ⟨_, hr₁, hs₁⟩ | ⟨name₁, hit₁, hr₁, _, hs₁⟩ <;>
    rcases Scan.ofSource_eq_ok h₂.source with ⟨_, hr₂, hs₂⟩ | ⟨name₂, hit₂, hr₂, _, hs₂⟩ <;>
    rw [horigin hs₁, horigin hs₂] at h <;> rw [hr₁, hr₂]
  · exact ⟨fun _ _ _ he => (nomatch he), fun _ => rfl⟩
  · exact absurd h (text_ne_origin _ _)
  · exact absurd h.symm (text_ne_origin _ _)
  · constructor
    · rintro rfl a b ha hb
      rw [← ProgramSource.named.inj ha, ← ProgramSource.named.inj hb]
    · intro hlen
      exact name_eq_of_origin_eq h (hlen name₁ name₂ rfl rfl)

/-- Tables of the same copies answer alike, unless the copies of a name that were
discovered first are from different providers and not the same. -/
theorem headers_eq_iff (h₂ : d₂.Prepares disk₂ path₂ request₂ p₂)
    (h : Preimage.sortedKeys p₁.source = Preimage.sortedKeys p₂.source) :
    (∀ name, p₁.source.headers.lookup name = p₂.source.headers.lookup name) ↔
      ∀ name a b, p₁.source.dependency? name none = some a →
        p₂.source.dependency? name none = some b →
        a.provider = b.provider ∨ a.content = b.content := by
  simp only [ResolvedSource.lookup_headers]
  constructor
  · intro hall name a b ha hb
    have hab := hall name
    rw [ha, hb] at hab
    exact .inr (Option.some.inj hab)
  · intro hall name
    have hsome := Preimage.dependency?_isSome_eq h name
    cases ha : p₁.source.dependency? name none with
    | none =>
      rw [ha] at hsome
      rw [Option.isSome_eq_false_iff.mp hsome.symm |> Option.isNone_iff_eq_none.mp]
    | some a =>
      rw [ha] at hsome
      obtain ⟨b, hb⟩ := Option.isSome_iff_exists.mp hsome.symm
      rw [hb]
      refine congrArg some ?_
      rcases hall name a b ha hb with hp | hc
      · obtain ⟨hma, hna⟩ := ResolvedSource.mem_of_dependency? ha
        obtain ⟨hmb, hnb⟩ := ResolvedSource.mem_of_dependency? hb
        exact Preimage.content_eq_of_provider_eq h₂.source h hma hmb (hna.trans hnb.symm) hp
      · exact hc

/-- Requests whose fingerprints are made from the same bytes, on any search paths, disks and
depots, have the same source, options, architecture and names in their jobs.  The jobs are
alike exactly if named programs have names of one length and, of every name, the copies that
were discovered first come from one provider or hold the same. -/
theorem alike_iff_of_ofInputs_eq
    (h₁ : (d₁.prepare disk₁ path₁ request₁).outcome = .ok p₁)
    (h₂ : (d₂.prepare disk₂ path₂ request₂).outcome = .ok p₂)
    (hs₁ : Preimage.Addressable p₁.request p₁.flags p₁.source d₁.setup.toolchain)
    (hs₂ : Preimage.Addressable p₂.request p₂.flags p₂.source d₂.setup.toolchain)
    (h : Preimage.ofInputs p₁.request p₁.flags p₁.source d₁.setup.toolchain =
      Preimage.ofInputs p₂.request p₂.flags p₂.source d₂.setup.toolchain) :
    (p₁.job.source = p₂.job.source ∧ p₁.job.options = p₂.job.options ∧
      p₁.job.arch = p₂.job.arch ∧ p₁.job.names = p₂.job.names) ∧
    (p₁.job.Alike p₂.job ↔
      (∀ name₁ name₂, request₁.source = .named name₁ → request₂.source = .named name₂ →
        name₁.length = name₂.length) ∧
      ∀ name a b, p₁.source.dependency? name none = some a →
        p₂.source.dependency? name none = some b →
        a.provider = b.provider ∨ a.content = b.content) := by
  replace h₁ := prepare_eq_ok_iff.mp h₁
  replace h₂ := prepare_eq_ok_iff.mp h₂
  have hagree := Preimage.agree_of_ofInputs_eq hs₁ hs₂ h
  have hprogram := programName_eq_iff h₁ h₂ hagree.origin
  have hheaders := headers_eq_iff h₂ hagree.dependencies
  have harch : p₁.arch = p₂.arch := by
    have ha₁ := Request.arch_of_validate h₁.arch
    have ha₂ := Request.arch_of_validate h₂.arch
    rw [← h₁.request, hagree.arch, h₂.request, ha₂] at ha₁
    exact (Except.ok.inj ha₁).symm
  have hnames : p₁.job.names = p₂.job.names := by
    show PreparedRequest.nameExpressions p₁.request = PreparedRequest.nameExpressions p₂.request
    unfold PreparedRequest.nameExpressions
    rw [hagree.entries, hagree.constants]
  refine ⟨⟨hagree.text, hagree.flags, harch, hnames⟩, ?_⟩
  rw [← hprogram, ← hheaders, ← h₁.request, ← h₂.request]
  constructor
  · intro ha
    exact ⟨ha.programName, ha.headers⟩
  · rintro ⟨hp, hh⟩
    exact ⟨hp, hagree.text, hh, hagree.flags, harch, hnames⟩

/-! ## Two search paths that discover the same copies in different orders -/

/-- A provider of the name `twice.h` and of a name of its own that includes it. -/
def rival (id own content : String) : Provider :=
  { id
    kind := .other
    files := [("twice.h", Text.bytes content), (own, Text.bytes "#include \"twice.h\"\n")]
    failures := [] : AnswerTable }.provider

def rivalA : Registration := ⟨rival "a" "left.h" "1", 0, false, 0⟩

def rivalB (priority : Int) : Registration := ⟨rival "b" "right.h" "2", priority, false, 1⟩

/-- A program that includes the contested name and then both names that include it. -/
def rivalProgram : String := "#include <twice.h>\n#include <left.h>\n#include <right.h>\n"

def rivalDepot : Depot where
  setup := { toolchain := ⟨"t", "1"⟩, deviceId := 0, device := ⟨0, "", (8, 0)⟩, store := .disabled }

/-- The program as it is prepared over a search path, given its dependencies. -/
def rivalPrepared (order : List Registration) (dependencies : List Dependency) : KeyedRequest :=
  let request : Request := { entries := ["k"], source := .inline rivalProgram, arch := "sm_80" }
  let source : ResolvedSource :=
    { origin := "text", text := Text.bytes rivalProgram, dependencies, builtins := []
      deferred := [] }
  { request, arch := .sm 8 0, flags := [], space := ⟨⟨order, 2⟩, {}, []⟩, source
    fingerprint := .compute request [] source rivalDepot.setup.toolchain }

def copyOf (name provider content includer : String) : Dependency :=
  ⟨name, provider, Text.bytes content, some includer⟩

def rivalsAB : KeyedRequest :=
  rivalPrepared [rivalA, rivalB 0]
    [copyOf "twice.h" "a" "1" "main.cu", copyOf "left.h" "a" "#include \"twice.h\"\n" "main.cu",
      copyOf "right.h" "b" "#include \"twice.h\"\n" "main.cu", copyOf "twice.h" "b" "2" "right.h"]

def rivalsBA : KeyedRequest :=
  rivalPrepared [rivalB 1, rivalA]
    [copyOf "twice.h" "b" "2" "main.cu", copyOf "left.h" "a" "#include \"twice.h\"\n" "main.cu",
      copyOf "right.h" "b" "#include \"twice.h\"\n" "main.cu", copyOf "twice.h" "a" "1" "left.h"]

theorem prepares_rivalsAB :
    rivalDepot.Prepares {} ⟨[rivalA, rivalB 0], 2⟩ rivalsAB.request rivalsAB where
  request := rfl
  arch := Except.eq_ok_of_toOption (by decide +kernel)
  device := Except.eq_ok_of_toOption (by decide +kernel)
  flags := rfl
  space := rfl
  source := Except.eq_ok_of_toOption (by decide +kernel)
  fingerprint := rfl

theorem prepares_rivalsBA :
    rivalDepot.Prepares {} ⟨[rivalB 1, rivalA], 2⟩ rivalsBA.request rivalsBA where
  request := rfl
  arch := Except.eq_ok_of_toOption (by decide +kernel)
  device := Except.eq_ok_of_toOption (by decide +kernel)
  flags := rfl
  space := rfl
  source := Except.eq_ok_of_toOption (by decide +kernel)
  fingerprint := rfl

theorem sortedKeys_rivals :
    Preimage.sortedKeys rivalsAB.source = Preimage.sortedKeys rivalsBA.source :=
  (Preimage.sortedKeys_eq_iff (by decide +kernel)).mpr (by decide +kernel)

theorem ofInputs_rivals :
    Preimage.ofInputs rivalsAB.request rivalsAB.flags rivalsAB.source rivalDepot.setup.toolchain =
      Preimage.ofInputs rivalsBA.request rivalsBA.flags rivalsBA.source
        rivalDepot.setup.toolchain := by
  rw [Preimage.ofInputs_eq_encode, Preimage.ofInputs_eq_encode, Preimage.records, Preimage.records,
    sortedKeys_rivals]
  rfl

/-- The two prepared requests share their fingerprint, and a header that is looked up by the
contested name has another content in each. -/
theorem rivals_not_alike :
    (rivalDepot.prepare {} ⟨[rivalA, rivalB 0], 2⟩ rivalsAB.request).outcome = .ok rivalsAB ∧
    (rivalDepot.prepare {} ⟨[rivalB 1, rivalA], 2⟩ rivalsBA.request).outcome = .ok rivalsBA ∧
    Preimage.ofInputs rivalsAB.request rivalsAB.flags rivalsAB.source rivalDepot.setup.toolchain =
      Preimage.ofInputs rivalsBA.request rivalsBA.flags rivalsBA.source
        rivalDepot.setup.toolchain ∧
    ¬ rivalsAB.job.Alike rivalsBA.job := by
  have hAB := prepare_eq_ok_iff.mpr prepares_rivalsAB
  have hBA := prepare_eq_ok_iff.mpr prepares_rivalsBA
  refine ⟨hAB, hBA, ofInputs_rivals, fun h => ?_⟩
  have hfirst := ((alike_iff_of_ofInputs_eq hAB hBA (by decide +kernel) (by decide +kernel)
    ofInputs_rivals).2.mp h).2
  have hcopies := hfirst "twice.h" (copyOf "twice.h" "a" "1" "main.cu")
    (copyOf "twice.h" "b" "2" "main.cu") (by decide +kernel) (by decide +kernel)
  exact absurd hcopies (by decide +kernel)

end Depot
end KernelDepot
