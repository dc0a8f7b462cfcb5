/-
Entries that are never missing.

If all requests with one fingerprint ask for the same entries, the toolchain makes artifacts with
the entries that are wanted under their fingerprint.  Then the manifests in a directory that only
holds what was stored have them, and so have the modules that are loaded and those of the index.
`Covering` says so, every step of a call keeps it, and no call fails because the module that it
got lacks the entry that it wants.
-/
import KernelDepot.Proofs.Artifact.Written
import KernelDepot.Proofs.Depot.Tiers
import KernelDepot.Proofs.Device.Entries

namespace KernelDepot

open ArtifactStore

def Artifact.Covers (a : Artifact) (entries : List String) : Prop :=
  ∀ entry ∈ entries, entry ∈ a.entries.names

def LoadedModule.Covers (m : LoadedModule) (entries : List String) : Prop :=
  ∀ entry ∈ entries, (m.function? entry).isSome

/-- The manifests that can be read have the entries that are wanted. -/
def ManifestsCover (wanted : Fingerprint → List String) (content : String → Option Bytes) : Prop :=
  ∀ f written m, content (manifestName f) = some written → Manifest.read? written = some m →
    ∀ entry ∈ wanted f, entry ∈ m.entries.names

def Depot.Covers (d : Depot) (wanted : Fingerprint → List String) : Prop :=
  ∀ f m, d.find? f = some m → m.Covers (wanted f)

/-- Whether an outcome is other than that a module lacks an entry. -/
def Spotless (outcome : Outcome) : Prop :=
  ∀ e, outcome = .error (.device e) → ¬ e.LacksEntry

/-- What a call that wants some entries brings along. -/
def Stage.Covers (entries : List String) : Stage → Prop
  | .holding _ (.store a) | .holding _ (.load a _) => a.Covers entries
  | .holding _ (.insert m) => m.Covers entries
  | .holding _ (.unlock outcome) | .holding _ (.leave outcome) | .finished outcome =>
    Spotless outcome
  | _ => True

namespace ManifestsCover

variable {wanted : Fingerprint → List String} {before after : String → Option Bytes}

theorem of_empty (h : ∀ name, before name = none) : ManifestsCover wanted before :=
  fun _ _ _ hwritten => nomatch (h _).symm.trans hwritten

theorem fades (h : ManifestsCover wanted before) (hfades : Fades after before) :
    ManifestsCover wanted after :=
  fun f written m hwritten => h f written m (hfades.eq_some hwritten)

theorem stores (h : ManifestsCover wanted before) {f : Fingerprint} {a : Artifact}
    {result : Except StoreFailure Bool} (hstores : KeptFiles.Stores f a before after result)
    (ha : a.Covers (wanted f)) : ManifestsCover wanted after := by
  intro g written m hwritten hread
  rcases hstores.cases_content (isLasting_manifestName g) with hsame | ⟨hname, hnew⟩ | ⟨hname, -⟩
  · exact h g written m (hsame.symm.trans hwritten) hread
  · obtain rfl := manifestName_inj hname
    obtain rfl := Option.some.inj (hwritten.symm.trans hnew)
    rw [Manifest.eq_of_read?_write hread]
    exact ha
  · exact absurd hname.symm (imageName_ne_manifestName _ _ _)

theorem covers_of_stored? (h : ManifestsCover wanted before) {s : ArtifactStore}
    {f : Fingerprint} {a : Artifact} (ha : s.stored? before f = some a) : a.Covers (wanted f) := by
  obtain ⟨-, written, m, image, hwritten, hm, -, -, rfl⟩ := exists_of_stored? ha
  exact h f written m hwritten hm

end ManifestsCover

theorem PreparedRequest.covers_of_compile {p : PreparedRequest} {verbose : Bool}
    {dialogue : Dialogue} {result : Compilation}
    (h : (p.compile verbose dialogue).outcome = .ok result) :
    result.artifact.Covers p.request.entries := by
  intro entry hentry
  unfold compile at h
  simp only at h
  generalize dialogue.run (Session.answer p.space p.source) {} = answered at h
  obtain ⟨output, session⟩ := answered
  cases output with
  | error log => exact nomatch h
  | ok output =>
    rw [← Except.ok.inj h]
    refine NameTable.mem_names_ofList.mpr ?_
    rw [List.map_map]
    exact List.mem_map.mpr ⟨entry, hentry, rfl⟩

/-- Whether a failure is about the sources or the program, and not about the device, the store
or the settings. -/
def Failure.isOfProgram : Failure → Bool
  | notFound .. | unreadable _ | compile _ => true
  | _ => false

theorem Scan.isOfProgram_of_ofPage {space : IncludeSpace} {origin : String} {page : Page}
    {e : Failure} (h : (ofPage space origin page).outcome = .error e) : e.isOfProgram := by
  unfold ofPage at h
  split at h
  · obtain rfl := Except.error.inj h
    rfl
  · exact nomatch h

theorem Scan.isOfProgram_of_ofSource {space : IncludeSpace} {source : ProgramSource}
    {e : Failure} (h : (ofSource space source).outcome = .error e) : e.isOfProgram := by
  unfold ofSource at h
  split at h
  · exact isOfProgram_of_ofPage h
  · split at h
    · obtain rfl := Except.error.inj h
      rfl
    · obtain rfl := Except.error.inj h
      rfl
    · exact isOfProgram_of_ofPage h

/-- Why a request cannot be prepared: it is malformed, its architecture is not one for the
device, or its sources cannot be had. -/
theorem Depot.cases_of_prepare {d : Depot} {disk : Disk} {path : SearchPath} {request : Request}
    {e : Failure} (h : (d.prepare disk path request).outcome = .error e) :
    (∃ fault, e = .settings fault) ∨
      (∃ arch failure, d.setup.device.check arch .ptx = .error failure ∧ e = .device failure) ∨
      e.isOfProgram := by
  unfold prepare at h
  cases hvalidate : request.validate with
  | error fault =>
    rw [hvalidate] at h
    exact .inl ⟨fault, (Except.error.inj h).symm⟩
  | ok arch =>
    simp only [hvalidate] at h
    cases hcheck : d.setup.device.check arch .ptx with
    | error failure =>
      rw [hcheck] at h
      exact .inr (.inl ⟨arch, failure, hcheck, (Except.error.inj h).symm⟩)
    | ok =>
      simp only [hcheck] at h
      refine .inr (.inr ?_)
      have hscan (e' : Failure) (he' : (Scan.ofSource
          ⟨path.withRoots disk request.includeDirs, disk, d.setup.builtins⟩
          request.source).outcome = .error e') : e'.isOfProgram := Scan.isOfProgram_of_ofSource he'
      revert h hscan
      generalize (Scan.ofSource _ request.source).outcome = scanned
      cases scanned with
      | error e' =>
        intro h hscan
        exact Except.error.inj h ▸ hscan e' rfl
      | ok source => exact nofun

/-- A request that cannot be prepared does not fail because a module lacks an entry. -/
theorem Depot.not_lacksEntry_of_prepare {d : Depot} {disk : Disk} {path : SearchPath}
    {request : Request} {e : DeviceFailure}
    (h : (d.prepare disk path request).outcome = .error (.device e)) : ¬ e.LacksEntry := by
  rcases cases_of_prepare h with ⟨fault, he⟩ | ⟨arch, failure, hcheck, he⟩ | he
  · exact nomatch he
  · obtain rfl := Failure.device.inj he
    exact DeviceInfo.not_lacksEntry_of_check hcheck
  · exact absurd he Bool.false_ne_true

theorem PreparedRequest.isOfProgram_of_compile {p : PreparedRequest} {verbose : Bool}
    {dialogue : Dialogue} {e : Failure} (h : (p.compile verbose dialogue).outcome = .error e) :
    e.isOfProgram := by
  unfold compile at h
  simp only at h
  generalize dialogue.run (Session.answer p.space p.source) {} = answered at h
  obtain ⟨output, session⟩ := answered
  cases output with
  | ok output => exact nomatch h
  | error log =>
    obtain rfl := Except.error.inj h
    simp only
    unfold explain
    split
    · rfl
    · simp only
      split
      · rfl
      · split <;> rfl

namespace Site

variable {σ : Type} {host : Host σ} {s : Site σ}

theorem covers_of_compile {p : PreparedRequest} {result : Compilation}
    (h : (s.compile host p).1 = .ok result) : result.artifact.Covers p.request.entries :=
  PreparedRequest.covers_of_compile (p := { p with space := { p.space with
    disk := host.disk (host.compile p.job s.world.outside).2 } }) h

theorem covers_of_load {f : Fingerprint} {a : Artifact} {m : LoadedModule} {entries : List String}
    (ha : a.Covers entries) (h : (s.load host f a).1 = .ok m) : m.Covers entries := by
  rw [load_outcome] at h
  exact fun entry hentry => (LoadedModule.isSome_function?_of_outcome h entry).mpr (ha entry hentry)

theorem not_lacksEntry_of_load {f : Fingerprint} {a : Artifact} {e : DeviceFailure}
    (h : (s.load host f a).1 = .error e) : ¬ e.LacksEntry := by
  rw [load_outcome] at h
  exact LoadedModule.not_lacksEntry_of_outcome h

theorem not_lacksEntry_of_restore {f : Fingerprint} {e : DeviceFailure}
    (h : (s.restore host f).1 = .error e) : ¬ e.LacksEntry := by
  unfold restore at h
  simp only at h
  generalize s.file host (s.depot.setup.store.load f) = found at h
  obtain ⟨found, s₁⟩ := found
  cases found with
  | error failure => cases failure <;> exact nomatch h
  | ok artifact =>
    cases artifact with
    | none => exact nomatch h
    | some a =>
      have hload (e : DeviceFailure)
          (he : ((s₁.report (loadEvents (.ok (some a)))).load host f a).1 = .error e) :
          ¬ e.LacksEntry := not_lacksEntry_of_load he
      simp only at h
      generalize Site.load host _ f a = loaded at hload h
      obtain ⟨outcome, s₂⟩ := loaded
      cases outcome with
      | ok m => exact nomatch h
      | error e' =>
        cases hfault : e'.isArtifactFault with
        | true =>
          simp only [hfault, if_true] at h
          exact nomatch h
        | false =>
          simp only [hfault, Bool.false_eq_true, if_false] at h
          exact Except.error.inj h ▸ hload e' rfl

theorem covers_of_restore (k : KeptFiles host.files) {wanted : Fingerprint → List String}
    {f : Fingerprint} (hfiles : ManifestsCover wanted (k.content s.world.outside))
    {m : LoadedModule} (h : (s.restore host f).1 = .ok (some m)) : m.Covers (wanted f) := by
  obtain ⟨a, s₁, hstored, hload⟩ := exists_of_restore k h
  exact covers_of_load (hfiles.covers_of_stored? hstored) hload

end Site

theorem LoadedModule.Covers.of_eq_ok {m : LoadedModule} {entries : List String} {entry : String}
    (h : m.Covers entries) (hentry : entry ∈ entries) :
    ∃ handle, KernelHandle.of m entry = .ok handle := by
  obtain ⟨f, hf⟩ := Option.isSome_iff_exists.mp (h entry hentry)
  unfold KernelHandle.of
  rw [hf]
  exact ⟨_, rfl⟩

theorem LoadedModule.Covers.spotless {m : LoadedModule} {entries : List String} {entry : String}
    (h : m.Covers entries) (hentry : entry ∈ entries) : Spotless (m.outcome entry) := by
  obtain ⟨handle, hof⟩ := h.of_eq_ok hentry
  unfold LoadedModule.outcome
  rw [hof]
  exact nofun

namespace Call

variable {σ : Type} {host : Host σ} (k : KeptFiles host.files) (wanted : Fingerprint → List String)

/-- What is known of the entries while a call is on its way. -/
structure Covering (order : KeyedRequest) (s : Site σ) (stage : Stage) : Prop where
  files : ManifestsCover wanted (k.content s.world.outside)
  index : s.depot.Covers wanted
  stage : stage.Covers (wanted order.fingerprint)

variable {k wanted} {order : KeyedRequest} {s : Site σ} {stage : Stage}

theorem manifestsCover_act (horderly : k.IsOrderly)
    (hdevice : ∀ call x, k.content (host.device call x).2 = k.content x)
    (hcompile : ∀ job x, k.content (host.compile job x).2 = k.content x)
    (h : Covering k wanted order s stage) :
    ManifestsCover wanted (k.content (act host order s stage).2.world.outside) := by
  have hfiles := h.files
  cases hout : stage.goesOut with
  | false =>
    rw [outside_act hdevice order s stage hout]
    exact hfiles
  | true =>
    cases stage with
    | holding n task =>
      cases task with
      | restore =>
        rw [outside_act_restore]
        exact hfiles.fades (Site.fades_restore k hdevice)
      | compile =>
        rw [outside_act_compile, hcompile]
        exact hfiles
      | store a =>
        have hstores := horderly.run_store s.depot.setup.store order.fingerprint a s.world.outside
        rw [← Site.outside_persist] at hstores
        exact hfiles.stores hstores h.stage
      | _ => exact absurd hout Bool.false_ne_true
    | _ => exact absurd hout Bool.false_ne_true

theorem depot_covers_act (h : Covering k wanted order s stage) :
    (act host order s stage).2.depot.Covers wanted := by
  intro f m hm
  by_cases hr : stage.rank = 0
  · obtain ⟨outcome, rfl⟩ := Stage.eq_finished_of_rank hr
    exact h.index f m hm
  · have hmoves := moves_act host order s stage hr
    rcases hmoves.index_cases with hindex | ⟨n, m', rfl, hnone, hindex⟩
    · exact h.index f m ((Depot.find?_of_index hindex f).symm.trans hm)
    · rw [Depot.find?_of_index_append hindex hnone] at hm
      split at hm
      next heq =>
        rw [← Option.some.inj hm, heq]
        exact h.stage
      next => exact h.index f m hm

theorem Covering.covers_enter {n : Nat} {m : LoadedModule}
    (h : Covering k wanted order s (.holding n (.insert m))) :
    (s.enter host order.fingerprint m).1.Covers (wanted order.fingerprint) := by
  rw [Site.enter_fst]
  cases hm : s.depot.find? order.fingerprint with
  | some present => exact h.index _ present hm
  | none => exact h.stage

variable (hentries : order.request.entries = wanted order.fingerprint)
  (hne : order.request.entries ≠ [])
include hentries hne

theorem entry_mem : order.request.entries.headD "" ∈ wanted order.fingerprint := by
  rw [← hentries]
  cases he : order.request.entries with
  | nil => exact absurd he hne
  | cons entry rest => exact List.mem_cons_self

theorem stage_covers_work {n : Nat} {task : Task}
    (h : Covering k wanted order s (.holding n task)) :
    (work host order s n task).1.Covers (wanted order.fingerprint) := by
  have hentry := entry_mem hentries hne
  have hstage := h.stage
  have hcompile (result : Compilation)
      (hc : (s.compile host order.toPreparedRequest).1 = .ok result) :
      result.artifact.Covers (wanted order.fingerprint) := by
    rw [← hentries]
    exact Site.covers_of_compile hc
  have hworks := works_work host order s n task
  generalize work host order s n task = worked at hworks ⊢
  obtain ⟨after, s'⟩ := worked
  cases hworks with
  | lock => exact trivial
  | refuse failure hfailure => exact fun _ he => nomatch he
  | find m hfailure hm => exact (h.index _ m hm).spotless hentry
  | search hfailure hm => exact trivial
  | restoreFailed e hr =>
    intro e' he'
    exact Failure.device.inj (Except.error.inj he') ▸ Site.not_lacksEntry_of_restore hr
  | restored m hr => exact Site.covers_of_restore k h.files hr
  | missed hr => exact trivial
  | compileRefused failure hc => exact fun _ he => nomatch he
  | compileFailed e hc hne =>
    intro e' he'
    rw [Except.error.inj he'] at hc
    exact absurd (PreparedRequest.isOfProgram_of_compile hc) Bool.false_ne_true
  | compiled result hc hextra => exact hcompile result hc
  | compiledOnce result hc hextra => exact hcompile result hc
  | store a => exact hstage
  | loadFailed a shared e hl =>
    intro e' he'
    exact Failure.device.inj (Except.error.inj he') ▸ Site.not_lacksEntry_of_load hl
  | loaded a m hl => exact Site.covers_of_load hstage hl
  | loadedOnce a m hl => exact (Site.covers_of_load hstage hl).spotless hentry
  | insert m => exact h.covers_enter.spotless hentry
  | unlock outcome => exact hstage
  | leave outcome => exact hstage

theorem stage_covers_act (h : Covering k wanted order s stage) :
    (act host order s stage).1.Covers (wanted order.fingerprint) := by
  cases stage with
  | lookup =>
    unfold act
    cases hm : s.depot.find? order.fingerprint with
    | some m =>
      simp only
      rw [serveHit_outcome]
      exact (h.index _ m hm).spotless (entry_mem hentries hne)
    | none => exact trivial
  | join => exact trivial
  | holding n task => exact stage_covers_work hentries hne h
  | finished outcome => exact h.stage

/-- Every step of a call keeps the entries that are wanted. -/
theorem covering_act (horderly : k.IsOrderly)
    (hdevice : ∀ call x, k.content (host.device call x).2 = k.content x)
    (hcompile : ∀ job x, k.content (host.compile job x).2 = k.content x)
    (h : Covering k wanted order s stage) :
    Covering k wanted order (act host order s stage).2 (act host order s stage).1 where
  files := manifestsCover_act horderly hdevice hcompile h
  index := depot_covers_act h
  stage := stage_covers_act hentries hne h

end Call
end KernelDepot
