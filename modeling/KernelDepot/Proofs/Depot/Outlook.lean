/-
What a request comes to.

In calm surroundings the toolchain and the driver always do the same with the same things, a
search path always serves the same, and files only change when somebody changes them.  What a
request comes to is then settled by the index, by the files of its fingerprint and by what
compiling it comes to.  `Promises` says so without a step being taken, and every step of a
call that is alone keeps it, so it tells how the call ends and what is left for the next one.
-/
import KernelDepot.Proofs.Artifact.Kept
import KernelDepot.Proofs.Depot.Alone
import KernelDepot.Proofs.Depot.Prepare
import KernelDepot.Proofs.Depot.Surroundings
import KernelDepot.Proofs.Device.Working

namespace KernelDepot

/-- Surroundings that always do the same with the same things.  What is found on a search path
with some include roots does not change, nor does the directory except by what is done to its
files. -/
structure Calm {σ : Type} (host : Host σ) (path : SearchPath) (dirs : List String) where
  disk : Disk
  dialogue : Job → Dialogue
  driver : WorkingDriver host.device
  files : KeptFiles host.files
  serves : ∀ x, path.ServesAlike dirs disk (host.disk x)
  compile_eq : ∀ job x, (host.compile job x).1 = dialogue job
  content_compile : ∀ job x, files.content (host.compile job x).2 = files.content x
  content_device : ∀ call x, files.content (host.device call x).2 = files.content x

theorem LoadedModule.isOk_outcome (m : LoadedModule) (entry : String) :
    (m.outcome entry).isOk = (m.function? entry).isSome := by
  unfold outcome KernelHandle.of
  cases m.function? entry <;> rfl

namespace Calm

variable {σ : Type} {host : Host σ} {path : SearchPath} {dirs : List String}
  (calm : Calm host path dirs)

def content (s : Site σ) : String → Option Bytes := calm.files.content s.world.outside

theorem content_grant (s : Site σ) (m : LoadedModule) (entry : String) :
    calm.content (s.grant host m entry).2 = calm.content s :=
  Site.view_grant calm.content_device s m entry

theorem content_load (s : Site σ) (f : Fingerprint) (a : Artifact) :
    calm.content (s.load host f a).2 = calm.content s :=
  Site.view_load calm.content_device s f a

theorem content_serveHit (s : Site σ) (m : LoadedModule) (entry : String) (event : Event) :
    calm.content (s.serveHit host m entry event).2 = calm.content s :=
  Site.view_serveHit calm.content_device s m entry event

/-! ## What is known in advance -/

variable (setup : Setup) (order : KeyedRequest)

/-- The names of a request are looked up where nothing changes. -/
def Searches : Prop := order.space.path = path.withRoots calm.disk dirs

def report : CompileReport :=
  (order.on calm.disk).compile (setup.verbose || order.request.verbose) (calm.dialogue order.job)

def Yields (a : Artifact) : Prop :=
  calm.driver.verdict setup.device a = .ok () ∧ order.request.entries.headD "" ∈ a.entries.names

def Compiles : Prop := ∃ result, (calm.report setup order).outcome = .ok result ∧
  calm.Yields setup order result.artifact

def Blames (a : Artifact) : Prop :=
  ∃ e, calm.driver.verdict setup.device a = .error e ∧ e.isArtifactFault = true

def Promises (s : Site σ) : Prop :=
  match s.depot.find? order.fingerprint with
  | some m => (m.function? (order.request.entries.headD "")).isSome
  | none =>
    match setup.store.stored? (calm.content s) order.fingerprint with
    | some a => calm.Yields setup order a ∨ calm.Blames setup a ∧ calm.Compiles setup order
    | none => calm.Compiles setup order

variable {calm setup order} {s s' : Site σ}

theorem promises_of_find? {m : LoadedModule} (h : s.depot.find? order.fingerprint = some m) :
    calm.Promises setup order s ↔ (m.function? (order.request.entries.headD "")).isSome := by
  unfold Promises
  rw [h]

theorem promises_congr (hfind : s'.depot.find? order.fingerprint = s.depot.find? order.fingerprint)
    (hcontent : calm.content s' = calm.content s) :
    calm.Promises setup order s' ↔ calm.Promises setup order s := by
  unfold Promises
  rw [hfind, hcontent]

/-- Where nothing but a compilation can help, it still does when files have disappeared. -/
theorem promises_of_fades (hfind : s'.depot.find? order.fingerprint = none)
    (hfades : Fades (calm.content s') (calm.content s))
    (hstored : ∀ a, setup.store.stored? (calm.content s) order.fingerprint = some a →
      calm.Blames setup a) :
    calm.Promises setup order s' ↔ calm.Compiles setup order := by
  unfold Promises
  rw [hfind]
  cases ha : setup.store.stored? (calm.content s') order.fingerprint with
  | none => exact .rfl
  | some a =>
    have hbefore : setup.store.stored? (calm.content s) order.fingerprint = some a := by
      rcases setup.store.stored?_of_fades hfades order.fingerprint with h | h
      · rw [← h, ha]
      · rw [h] at ha
        exact nomatch ha
    obtain ⟨e, he, hfault⟩ := hstored a hbefore
    constructor
    · rintro (⟨hok, -⟩ | ⟨-, hc⟩)
      · rw [he] at hok
        exact nomatch hok
      · exact hc
    · intro hc
      exact .inr ⟨⟨e, he, hfault⟩, hc⟩

theorem compile_fst (hpath : calm.Searches order) (h : s.depot.setup = setup) :
    (s.compile host order.toPreparedRequest).1 = (calm.report setup order).outcome := by
  have hresolve (x : σ) (name : String) : order.space.path.resolve (host.disk x) name =
      order.space.path.resolve calm.disk name := by
    rw [hpath]
    exact SearchPath.resolve_congr (calm.serves x) name
  unfold Site.compile report KeyedRequest.on
  simp only
  rw [PreparedRequest.compile_congr (hresolve _), calm.compile_eq, h]

theorem content_compileStep :
    calm.content (s.compile host order.toPreparedRequest).2 = calm.content s :=
  calm.content_compile _ _

/-- Loading an artifact comes to the verdict on it. -/
theorem load_fst (h : s.depot.setup = setup) (f : Fingerprint) (a : Artifact) :
    (s.load host f a).1.map (fun _ => ()) = calm.driver.verdict setup.device a ∧
      ∀ m, (s.load host f a).1 = .ok m →
        ∀ entry, (m.function? entry).isSome ↔ entry ∈ a.entries.names := by
  rw [Site.load_outcome, h]
  exact calm.driver.outcome_load s.world.outside setup.deviceId setup.device f a

/-! ## The course of a call -/

variable (calm setup order)

def Compiled (a : Artifact) : Prop :=
  ∃ result, (calm.report setup order).outcome = .ok result ∧ result.artifact = a

/-- What is known at each stage of a call that leads to a handle exactly if `good`. -/
def OnCourse (good : Prop) (s : Site σ) : Stage → Prop
  | .lookup | .join => s.depot.IsIdle ∧ (calm.Promises setup order s ↔ good)
  | .holding n .lock | .holding n .recheck =>
    s.depot.arena.failure? n = none ∧ (calm.Promises setup order s ↔ good)
  | .holding _ .restore =>
    s.depot.find? order.fingerprint = none ∧ (calm.Promises setup order s ↔ good)
  | .holding _ .compile =>
    s.depot.find? order.fingerprint = none ∧
      (calm.Promises setup order s ↔ calm.Compiles setup order) ∧
        (calm.Compiles setup order ↔ good)
  | .holding _ (.store a) | .holding _ (.load a true) =>
    s.depot.find? order.fingerprint = none ∧ (calm.Compiles setup order ↔ good) ∧
      calm.Compiled setup order a
  | .holding _ (.load a false) =>
    s.depot.find? order.fingerprint = none ∧ (calm.Compiles setup order ↔ good) ∧
      calm.Compiled setup order a ∧
        (calm.Promises setup order s ↔ calm.Compiles setup order)
  | .holding _ (.insert m) =>
    s.depot.find? order.fingerprint = none ∧
      ((m.function? (order.request.entries.headD "")).isSome ↔ good)
  | .holding _ (.unlock outcome) | .holding _ (.leave outcome) | .finished outcome =>
    (outcome.isOk ↔ good) ∧
      (calm.Compiles setup order → (calm.Promises setup order s ↔ good))

variable {calm setup order} {good : Prop}

/-- What a compiled artifact comes to decides what compiling comes to. -/
theorem compiles_iff_of_compiled {a : Artifact} (h : calm.Compiled setup order a) :
    calm.Compiles setup order ↔ calm.Yields setup order a := by
  obtain ⟨result, hresult, rfl⟩ := h
  constructor
  · rintro ⟨result', hresult', hyields⟩
    rw [hresult] at hresult'
    rw [Except.ok.inj hresult']
    exact hyields
  · intro hyields
    exact ⟨result, hresult, hyields⟩

/-- A loaded module has the entry exactly if the artifact yields it. -/
theorem function?_isSome_iff {a : Artifact} {m : LoadedModule} (h : s.depot.setup = setup)
    (hm : (s.load host order.fingerprint a).1 = .ok m) :
    (m.function? (order.request.entries.headD "")).isSome ↔ calm.Yields setup order a := by
  obtain ⟨hverdict, hentries⟩ := calm.load_fst h order.fingerprint a
  rw [hm] at hverdict
  rw [hentries m hm]
  exact ⟨fun hmem => ⟨hverdict.symm, hmem⟩, fun hy => hy.2⟩

/-- The look-up of a call, the first one and the one under the lock. -/
theorem onCourse_hit {m : LoadedModule} (event : Event)
    (hm : s.depot.find? order.fingerprint = some m) (h : calm.Promises setup order s ↔ good) :
    ((s.serveHit host m (order.request.entries.headD "") event).1.isOk ↔ good) ∧
      (calm.Promises setup order (s.serveHit host m (order.request.entries.headD "") event).2 ↔
        good) := by
  have hfind : (s.serveHit host m (order.request.entries.headD "") event).2.depot.find?
      order.fingerprint = s.depot.find? order.fingerprint :=
    (Site.recounted_serveHit m _ event).sameBooks.find? _
  constructor
  · rw [Call.serveHit_outcome, LoadedModule.isOk_outcome, ← h, calm.promises_of_find? hm]
  · rw [← h]
    exact promises_congr hfind (calm.content_serveHit s m _ event)

theorem promises_of_none (hfind : s.depot.find? order.fingerprint = none)
    (ha : setup.store.stored? (calm.content s) order.fingerprint = none) :
    calm.Promises setup order s ↔ calm.Compiles setup order := by
  unfold Promises
  rw [hfind]
  simp only
  rw [ha]

theorem promises_of_some {a : Artifact} (hfind : s.depot.find? order.fingerprint = none)
    (ha : setup.store.stored? (calm.content s) order.fingerprint = some a) :
    calm.Promises setup order s ↔
      calm.Yields setup order a ∨ calm.Blames setup a ∧ calm.Compiles setup order := by
  unfold Promises
  rw [hfind]
  simp only
  rw [ha]

theorem restore_of_none {f : Fingerprint}
    (ha : s.depot.setup.store.stored? (calm.content s) f = none) :
    (s.restore host f).1 = .ok none ∧
      Fades (calm.content (s.restore host f).2) (calm.content s) := by
  obtain ⟨hnone, hfades⟩ := calm.files.run_load_of_none ha
  obtain ⟨hend, houtside⟩ := Site.restore_of_missing hnone
  refine ⟨hend, ?_⟩
  unfold content
  rw [houtside]
  exact hfades

/-- What a stored artifact leads to is for the driver to say. -/
theorem restore_of_some {f : Fingerprint} {a : Artifact}
    (ha : s.depot.setup.store.stored? (calm.content s) f = some a) :
    match calm.driver.verdict s.depot.setup.device a with
    | .ok () => ∃ m, (s.restore host f).1 = .ok (some m) ∧
      ∀ entry, (m.function? entry).isSome ↔ entry ∈ a.entries.names
    | .error e =>
      if e.isArtifactFault then
        (s.restore host f).1 = .ok none ∧
          Fades (calm.content (s.restore host f).2) (calm.content s)
      else
        (s.restore host f).1 = .error e ∧
          calm.content (s.restore host f).2 = calm.content s := by
  obtain ⟨hfound, hkept⟩ := calm.files.run_load_of_some ha
  have hfile : (s.file host (s.depot.setup.store.load f)).1 = .ok (some a) := hfound
  unfold Site.restore
  simp only [hfile]
  generalize hs₁ : (s.file host (s.depot.setup.store.load f)).2.report
    (ArtifactStore.loadEvents (.ok (some a))) = s₁
  have hcontent₁ : calm.content s₁ = calm.content s := by
    rw [← hs₁]
    exact hkept
  have hsetup₁ : s₁.depot.setup = s.depot.setup := by
    rw [← hs₁]
    rfl
  have hload := calm.load_fst hsetup₁ f a
  have hcontent₂ := (calm.content_load s₁ f a).trans hcontent₁
  generalize s₁.load host f a = loaded at hload hcontent₂ ⊢
  obtain ⟨outcome, s₂⟩ := loaded
  rw [← hload.1]
  cases outcome with
  | ok m => exact ⟨m, rfl, hload.2 m rfl⟩
  | error e =>
    show if e.isArtifactFault then _ else _
    by_cases hfault : e.isArtifactFault = true
    · simp only [hfault, if_true, true_and]
      have hfades := calm.files.fades_remove s.depot.setup.store f s₂.world.outside
      rw [show calm.files.content s₂.world.outside = calm.content s from hcontent₂] at hfades
      exact hfades
    · simp only [hfault, Bool.false_eq_true, if_false, true_and]
      exact hcontent₂

/-- What a call that looks into the store finds there. -/
theorem onCourse_restore (h : s.depot.setup = setup)
    (hfind : s.depot.find? order.fingerprint = none) (hgood : calm.Promises setup order s ↔ good) :
    match (s.restore host order.fingerprint).1 with
    | .ok (some m) => (m.function? (order.request.entries.headD "")).isSome ↔ good
    | .ok none =>
      (calm.Promises setup order (s.restore host order.fingerprint).2 ↔
        calm.Compiles setup order) ∧ (calm.Compiles setup order ↔ good)
    | .error _ => ¬ good ∧
      (calm.Promises setup order (s.restore host order.fingerprint).2 ↔ good) := by
  have hfind' : (s.restore host order.fingerprint).2.depot.find? order.fingerprint = none :=
    ((Site.recounted_restore _).sameBooks.find? _).trans hfind
  subst h
  cases ha : s.depot.setup.store.stored? (calm.content s) order.fingerprint with
  | none =>
    obtain ⟨hend, hfades⟩ := calm.restore_of_none ha
    rw [hend]
    refine ⟨calm.promises_of_fades hfind' hfades fun a hsome => ?_,
      (calm.promises_of_none hfind ha).symm.trans hgood⟩
    rw [ha] at hsome
    exact nomatch hsome
  | some a =>
    have hpromises := (calm.promises_of_some hfind ha).symm.trans hgood
    have hend := calm.restore_of_some ha
    cases hverdict : calm.driver.verdict s.depot.setup.device a with
    | ok accepted =>
      rw [hverdict] at hend
      obtain ⟨m, hm, hentries⟩ := hend
      rw [hm]
      simp only
      rw [hentries, ← hpromises]
      refine ⟨fun hmem => .inl ⟨hverdict, hmem⟩, fun hor => ?_⟩
      -- The driver took the artifact, so it does not blame it for anything.
      rcases hor with hy | ⟨⟨e, he, -⟩, -⟩
      · exact hy.2
      · rw [hverdict] at he
        exact nomatch he
    | error e =>
      rw [hverdict] at hend
      have hnot : ¬ calm.Yields s.depot.setup order a := fun hy => by
        rw [hy.1] at hverdict
        exact nomatch hverdict
      cases hfault : e.isArtifactFault with
      | true =>
        have hblames : calm.Blames s.depot.setup a := ⟨e, hverdict, hfault⟩
        simp only [hfault, if_true] at hend
        rw [hend.1]
        refine ⟨calm.promises_of_fades hfind' hend.2 fun a' hsome => ?_, ?_⟩
        · rw [ha] at hsome
          rw [← Option.some.inj hsome]
          exact hblames
        · rw [← hpromises]
          exact ⟨fun hc => .inr ⟨hblames, hc⟩, fun hor => (hor.resolve_left hnot).2⟩
      | false =>
        simp only [hfault, Bool.false_eq_true, if_false] at hend
        rw [hend.1]
        refine ⟨fun hg => ?_, ?_⟩
        · rcases hpromises.mpr hg with hy | ⟨⟨e', he', hfault'⟩, -⟩
          · exact hnot hy
          · rw [hverdict] at he'
            rw [← Except.error.inj he', hfault] at hfault'
            exact Bool.false_ne_true hfault'
        · rw [← hgood]
          exact promises_congr (hfind'.trans hfind.symm) hend.2

theorem onCourse_work_restore (n : Nat) (hsetup : s.depot.setup = setup)
    (h : calm.OnCourse setup order good s (.holding n .restore)) :
    calm.OnCourse setup order good (Call.work host order s n .restore).2
      (Call.work host order s n .restore).1 := by
  obtain ⟨hfind, hgood⟩ := h
  have hrestore := onCourse_restore hsetup hfind hgood
  have hfind' : (s.restore host order.fingerprint).2.depot.find? order.fingerprint = none :=
    ((Site.recounted_restore _).sameBooks.find? _).trans hfind
  unfold Call.work
  simp only
  generalize s.restore host order.fingerprint = result at hrestore hfind' ⊢
  obtain ⟨outcome, s₁⟩ := result
  rcases outcome with e | m
  · refine ⟨?_, fun _ => hrestore.2⟩
    exact ⟨fun hok => absurd hok Bool.false_ne_true, fun hg => absurd hg hrestore.1⟩
  · cases m with
    | none => exact ⟨hfind', hrestore⟩
    | some m => exact ⟨hfind', hrestore⟩

theorem onCourse_work_compile (hpath : calm.Searches order) (n : Nat)
    (hsetup : s.depot.setup = setup)
    (h : calm.OnCourse setup order good s (.holding n .compile)) :
    calm.OnCourse setup order good (Call.work host order s n .compile).2
      (Call.work host order s n .compile).1 := by
  obtain ⟨hfind, hkeep, hgood⟩ := h
  have hreport : (s.compile host order.toPreparedRequest).1 = _ := compile_fst hpath hsetup
  have hcontent : calm.content (s.compile host order.toPreparedRequest).2 = _ :=
    calm.content_compileStep
  have hfind' : (s.compile host order.toPreparedRequest).2.depot.find? order.fingerprint =
      none := ((Site.sameBooks_compile _).find? _).trans hfind
  have hkeep' : calm.Promises setup order (s.compile host order.toPreparedRequest).2 ↔
      calm.Compiles setup order :=
    (promises_congr (hfind'.trans hfind.symm) hcontent).trans hkeep
  unfold Call.work
  simp only
  generalize s.compile host order.toPreparedRequest = result at hreport hfind' hkeep' ⊢
  obtain ⟨outcome, s₁⟩ := result
  rcases outcome with e | result
  · have hnot : ¬ calm.Compiles setup order := by
      rintro ⟨result, hresult, -⟩
      rw [← hreport] at hresult
      exact nomatch hresult
    have hend : ((false : Bool) = true ↔ good) ∧
        (calm.Compiles setup order → (calm.Promises setup order s₁ ↔ good)) :=
      ⟨⟨fun hf => absurd hf Bool.false_ne_true, fun hg => absurd (hgood.mpr hg) hnot⟩,
        fun hc => absurd hc hnot⟩
    cases e <;> exact hend
  · have hcompiled : calm.Compiled setup order result.artifact :=
      ⟨result, hreport.symm, rfl⟩
    simp only
    split
    · exact ⟨hfind', hgood, hcompiled⟩
    · exact ⟨hfind', hgood, hcompiled, hkeep'⟩

theorem onCourse_work_load (n : Nat) (hsetup : s.depot.setup = setup) {a : Artifact} {shared : Bool}
    (h : calm.OnCourse setup order good s (.holding n (.load a shared))) :
    calm.OnCourse setup order good (Call.work host order s n (.load a shared)).2
      (Call.work host order s n (.load a shared)).1 := by
  have hboth : s.depot.find? order.fingerprint = none ∧ (calm.Compiles setup order ↔ good) ∧
      calm.Compiled setup order a ∧ (shared = false →
        (calm.Promises setup order s ↔ calm.Compiles setup order)) := by
    cases shared with
    | true => exact ⟨h.1, h.2.1, h.2.2, nofun⟩
    | false => exact ⟨h.1, h.2.1, h.2.2.1, fun _ => h.2.2.2⟩
  obtain ⟨hfind, hgood, hcompiled, hkeep⟩ := hboth
  have hyields := (compiles_iff_of_compiled hcompiled).symm.trans hgood
  have hload := calm.load_fst hsetup order.fingerprint a
  have hentry := fun m => @function?_isSome_iff σ host path dirs calm setup order s a m hsetup
  have hdepot : (s.load host order.fingerprint a).2.depot = s.depot := Site.load_depot _ a
  have hcontent := calm.content_load s order.fingerprint a
  unfold Call.work
  simp only
  generalize s.load host order.fingerprint a = loaded at hload hentry hdepot hcontent ⊢
  obtain ⟨outcome, s₁⟩ := loaded
  have hfind' : s₁.depot.find? order.fingerprint = none :=
    (congrArg (·.find? order.fingerprint) hdepot).trans hfind
  cases outcome with
  | error e =>
    have hnot : ¬ good := fun hg => by
      have hok := (hyields.mpr hg).1
      rw [← hload.1] at hok
      exact nomatch hok
    refine ⟨⟨fun hf => absurd hf Bool.false_ne_true, fun hg => absurd hg hnot⟩, fun hc => ?_⟩
    exact absurd (hgood.mp hc) hnot
  | ok m =>
    have hm : (m.function? (order.request.entries.headD "")).isSome ↔ good :=
      (hentry m rfl).trans hyields
    cases shared with
    | true => exact ⟨hfind', hm⟩
    | false =>
      refine ⟨?_, fun _ => ?_⟩
      · show (s₁.grant host m _).1.isOk ↔ good
        rw [Site.grant_fst, LoadedModule.isOk_outcome]
        exact hm
      · refine Iff.trans (promises_congr ?_ ?_) ((hkeep rfl).trans hgood)
        · show (s₁.grant host m _).2.depot.find? _ = _
          rw [Site.grant_depot, hfind', hfind]
        · show calm.content (s₁.grant host m _).2 = _
          rw [content_grant, hcontent]

theorem onCourse_work_insert (n : Nat) {m : LoadedModule}
    (h : calm.OnCourse setup order good s (.holding n (.insert m))) :
    calm.OnCourse setup order good (Call.work host order s n (.insert m)).2
      (Call.work host order s n (.insert m)).1 := by
  obtain ⟨hfind, hm⟩ := h
  have henter : s.enter host order.fingerprint m =
      (m, (s.mapDepot fun d => { d with index := d.index ++ [(order.fingerprint, m)] }).hold
        m.key) := by
    unfold Site.enter
    rw [hfind]
  have hfound (s₁ : Site σ) (hindex : s₁.depot.index =
      s.depot.index ++ [(order.fingerprint, m)]) :
      s₁.depot.find? order.fingerprint = some m := by
    rw [Depot.find?_of_index_append hindex hfind, if_pos rfl]
  unfold Call.work
  simp only
  rw [henter]
  refine ⟨?_, fun _ => ?_⟩
  · show (Site.grant host _ m _).1.isOk ↔ good
    rw [Site.grant_fst, LoadedModule.isOk_outcome]
    exact hm
  · refine Iff.trans (promises_of_find? (hfound _ ?_)) hm
    show (Site.grant host _ m _).2.depot.index = _
    rw [Site.grant_depot]
    rfl

/-- Every step of a call that is alone keeps what is known. -/
theorem onCourse_act (hpath : calm.Searches order) (stage : Stage) (hr : stage.rank ≠ 0)
    (hsound : s.depot.Sound [⟨order, stage⟩]) (hsetup : s.depot.setup = setup)
    (h : calm.OnCourse setup order good s stage) :
    calm.OnCourse setup order good (Call.act host order s stage).2
      (Call.act host order s stage).1 := by
  cases stage with
  | lookup =>
    obtain ⟨hidle, hgood⟩ := h
    unfold Call.act
    cases hm : s.depot.find? order.fingerprint with
    | some m =>
      obtain ⟨hok, hkeep⟩ := onCourse_hit .memoryHit hm hgood
      exact ⟨hok, fun _ => hkeep⟩
    | none => exact ⟨hidle, hgood⟩
  | join =>
    obtain ⟨hidle, hgood⟩ := h
    exact ⟨hsound.failure?_join_of_isIdle hidle order.fingerprint, hgood⟩
  | finished outcome => exact absurd rfl hr
  | holding n task =>
    unfold Call.act
    cases task with
    | lock =>
      obtain ⟨hfailure, hgood⟩ := h
      refine ⟨?_, hgood⟩
      show (s.depot.arena.update n fun slot => { slot with locked := true }).failure? n = none
      rw [Arena.failure?_update_of_eq]
      · exact hfailure
      · exact fun _ => rfl
    | recheck =>
      obtain ⟨hfailure, hgood⟩ := h
      unfold Call.work
      simp only [hfailure]
      cases hm : s.depot.find? order.fingerprint with
      | some m =>
        obtain ⟨hok, hkeep⟩ := onCourse_hit .memoryHitAfterWait hm hgood
        exact ⟨hok, fun _ => hkeep⟩
      | none => exact ⟨hm, hgood⟩
    | restore => exact onCourse_work_restore n hsetup h
    | compile => exact onCourse_work_compile hpath n hsetup h
    | store a =>
      obtain ⟨hfind, hgood, hcompiled⟩ := h
      exact ⟨((Site.recounted_persist _ _).sameBooks.find? _).trans hfind, hgood, hcompiled⟩
    | load a shared => exact onCourse_work_load n hsetup h
    | insert m => exact onCourse_work_insert n h
    | unlock outcome => exact h
    | leave outcome => exact h

/-- A call that is alone ends as it was known in advance.  If compiling leads to a handle,
the next call for the same fingerprint will end alike. -/
theorem isOk_complete (hpath : calm.Searches order) (hidle : s.depot.IsIdle)
    (hsetup : s.depot.setup = setup) :
    ((Call.complete host order s .lookup).1.isOk ↔ calm.Promises setup order s) ∧
      (calm.Compiles setup order →
        (calm.Promises setup order (Call.complete host order s .lookup).2 ↔
          calm.Promises setup order s)) ∧
      (Call.complete host order s .lookup).2.depot.setup = setup ∧
      (Call.complete host order s .lookup).2.depot.IsIdle := by
  obtain ⟨⟨hsetup', hok, hkeep⟩, hidle'⟩ := Call.complete_induction_of_sound
    (P := fun s₁ stage => s₁.depot.setup = setup ∧
      calm.OnCourse setup order (calm.Promises setup order s) s₁ stage)
    (fun s₁ stage hr hsound h =>
      ⟨(Call.setup_act host order s₁ stage).trans h.1, onCourse_act hpath stage hr hsound h.1 h.2⟩)
    (Depot.Sound.of_isIdle hidle order) ⟨hsetup, hidle, .rfl⟩
  exact ⟨hok, hkeep, hsetup', hidle'⟩

end Calm
end KernelDepot
