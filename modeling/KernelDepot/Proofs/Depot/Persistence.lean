/-
What a compilation leaves for the next depot.

A call that compiles has its artifact written if the store can do so, and then any depot over
the directory takes it from there.  A failure to write is counted.  But the store looks for
the image where the look-up before has looked for the manifest, and an image that was
overlooked is taken for the entry: nothing is written and nothing is counted, and the next
call compiles again.  `Site.load_of_getKernel` says that this is the only case.
-/
import KernelDepot.Proofs.Depot.Passage

namespace KernelDepot

open ArtifactStore

section
variable {σ : Type} {host : Host σ} {k : KeptFiles host.files} {order : KeyedRequest}
  {s s' : Site σ}

/-! ## A call that the store answers -/

/-- The same surroundings with a toolchain that never succeeds. -/
def Host.still (host : Host σ) : Host σ :=
  { host with
    disk := fun _ => {}
    compile := fun _ x => (.done (.error ""), x) }

def Calm.still (w : WorkingDriver host.device) (k : KeptFiles host.files)
    (hdevice : ∀ call x, k.content (host.device call x).2 = k.content x) :
    Calm host.still ⟨[], 0⟩ [] where
  disk := {}
  dialogue _ := .done (.error "")
  driver := w
  files := k
  serves _ := .refl _ _ _
  compile_eq _ _ := rfl
  content_compile _ _ := rfl
  content_device := hdevice

/-- What is known of a call for which an artifact is stored that a driver takes. -/
def Call.Retrieves (k : KeptFiles host.files) (order : KeyedRequest) (a : Artifact) (s : Site σ) :
    Stage → Prop
  | .lookup | .join => s.depot.IsIdle ∧ s.depot.find? order.fingerprint = none ∧
    s.depot.setup.store.stored? (k.content s.world.outside) order.fingerprint = some a
  | .holding n .lock | .holding n .recheck => s.depot.arena.failure? n = none ∧
    s.depot.find? order.fingerprint = none ∧
    s.depot.setup.store.stored? (k.content s.world.outside) order.fingerprint = some a
  | .holding _ .restore => s.depot.find? order.fingerprint = none ∧
    s.depot.setup.store.stored? (k.content s.world.outside) order.fingerprint = some a
  | .holding _ (.insert m) => s.depot.find? order.fingerprint = none ∧
    (m.function? (order.request.entries.headD "")).isSome
  | .holding _ (.unlock outcome) | .holding _ (.leave outcome) | .finished outcome => outcome.isOk
  | _ => False

theorem Call.retrieves_act (w : WorkingDriver host.device)
    (hdevice : ∀ call x, k.content (host.device call x).2 = k.content x) {a : Artifact}
    (hverdict : w.verdict s.depot.setup.device a = .ok ())
    (hentry : order.request.entries.headD "" ∈ a.entries.names) {stage : Stage}
    (hsound : s.depot.Sound [⟨order, stage⟩]) (h : Retrieves k order a s stage) :
    Retrieves k order a (act host order s stage).2 (act host order s stage).1 := by
  cases stage with
  | lookup =>
    rw [act_lookup_of_none h.2.1]
    exact h
  | join => exact ⟨hsound.failure?_join_of_isIdle h.1 order.fingerprint, h.2⟩
  | finished outcome => exact h
  | holding n task =>
    cases task with
    | lock =>
      refine ⟨?_, h.2⟩
      show (s.depot.arena.update n fun slot => { slot with locked := true }).failure? n = none
      rw [Arena.failure?_update_of_eq]
      · exact h.1
      · exact fun _ => rfl
    | recheck =>
      rw [act_recheck_of_none h.1 h.2.1]
      exact h.2
    | restore =>
      have hrestore := (Calm.still w k hdevice).restore_of_some h.2
      have hfind : (s.restore host order.fingerprint).2.depot.find? order.fingerprint = none :=
        ((Site.recounted_restore _).sameBooks.find? _).trans h.1
      rw [show (Calm.still w k hdevice).driver.verdict s.depot.setup.device a = .ok () from
        hverdict] at hrestore
      obtain ⟨m, hm, hentries⟩ := hrestore
      replace hm : (s.restore host order.fingerprint).1 = .ok (some m) := hm
      unfold act work
      simp only
      generalize s.restore host order.fingerprint = restored at hm hfind ⊢
      obtain ⟨outcome, s₁⟩ := restored
      cases hm
      exact ⟨hfind, (hentries _).mpr hentry⟩
    | insert m =>
      unfold act work
      simp only
      rw [Site.grant_fst, Site.enter_fst, h.1, Option.getD_none]
      exact (LoadedModule.isOk_outcome m _).trans h.2
    | unlock outcome => exact h
    | leave outcome => exact h
    | _ => exact h.elim

/-- A depot that has nothing in its index answers from the store, without the toolchain. -/
theorem Site.getKernel_of_stored {path : SearchPath} {request : Request}
    (w : WorkingDriver host.device)
    (hdevice : ∀ call x, k.content (host.device call x).2 = k.content x) {a : Artifact}
    (hnew : s.depot.IsNew) (hprepare : (s.prepare host path request).1 = .ok order)
    (hstored : s.depot.setup.store.stored? (k.content s.world.outside) order.fingerprint = some a)
    (hverdict : w.verdict s.depot.setup.device a = .ok ())
    (hentry : order.request.entries.headD "" ∈ a.entries.names) :
    (s.getKernel host path request).1.isOk ∧
      (s.getKernel host path request).2.depot.runs = s.depot.runs := by
  have hfind : s.depot.find? order.fingerprint = none := by
    unfold Depot.find?
    rw [hnew.index]
    rfl
  have hidle : (s.prepare host path request).2.depot.IsIdle := hnew.toIsIdle
  obtain ⟨⟨-, hruns, hok⟩, -⟩ := Call.complete_induction_of_sound
    (P := fun s' stage => s'.depot.setup = s.depot.setup ∧ s'.depot.runs = s.depot.runs ∧
      Call.Retrieves k order a s' stage)
    (fun s' stage _ hsound hP => by
      obtain ⟨hsetup, hruns, hretrieves⟩ := hP
      refine ⟨(Call.setup_act host order s' stage).trans hsetup, ?_, ?_⟩
      · refine (Call.runs_act host order s' stage ?_).trans hruns
        rintro n rfl
        exact hretrieves.elim
      · rw [← hsetup] at hverdict
        exact Call.retrieves_act w hdevice hverdict hentry hsound hretrieves)
    (Depot.Sound.of_isIdle hidle order) ⟨rfl, rfl, hidle, hfind, hstored⟩
  rw [getKernel_of_prepare hprepare]
  exact ⟨hok, hruns⟩

/-! ## What a compilation leaves -/

namespace Site

variable {path : SearchPath} {request : Request} {s₁ : Site σ} {n : Nat} {result : Compilation}

/-- How a request is prepared depends on the setup and on what its search path serves. -/
theorem exists_prepare_of_servesAlike (hsetup : s'.depot.setup = s.depot.setup)
    (hserves : path.ServesAlike request.includeDirs (host.disk s.world.outside)
      (host.disk s'.world.outside)) (h : (s.prepare host path request).1 = .ok order) :
    ∃ order', (s'.prepare host path request).1 = .ok order' ∧
      order'.fingerprint = order.fingerprint ∧ order'.request = order.request := by
  have hcongr := Depot.prepare_congr hserves { setup := s.depot.setup }
  rw [show (({ setup := s.depot.setup } : Depot).prepare (host.disk s.world.outside) path
    request).outcome = .ok order from h, ← hsetup] at hcongr
  change (s'.prepare host path request).1.map _ = _ at hcongr
  cases hprepare : (s'.prepare host path request).1 with
  | error e =>
    rw [hprepare] at hcongr
    exact nomatch hcongr
  | ok order' =>
    rw [hprepare] at hcongr
    rw [← Except.ok.inj hcongr]
    exact ⟨order', rfl, rfl, rfl⟩

/-- Suppose a call compiles, the result is to be kept, and no failure to store is counted.  If
the directory had an image that the look-up overlooks, then it finds nothing afterwards either,
and the files of the fingerprint are as they were.  Otherwise it finds the artifact, and if the
call has led to a handle then so does the first one of any other depot over the directory,
without the toolchain. -/
theorem load_of_getKernel {after : Site σ} {outcome : Outcome} (hk : k.IsObedient)
    (hcompile : ∀ job x, k.content (host.compile job x).2 = k.content x)
    (hdevice : ∀ call x, k.content (host.device call x).2 = k.content x)
    (he : s.depot.setup.store.enabled = true)
    (hprepare : (s.prepare host path request).1 = .ok order)
    (hreach : Call.advance host Stage.isCompile (s.prepare host path request).2
      ⟨order, .lookup⟩ = (⟨order, .holding n .compile⟩, s₁))
    (hresult : (s₁.compile host order.toPreparedRequest).1 = .ok result)
    (hsize : result.artifact.image.length < Number.limit64)
    (hforeseen : ¬ s₁.StraysFrom host order.toPreparedRequest)
    (hget : s.getKernel host path request = (outcome, after))
    (hcount : after.depot.counters.persistenceFailures =
      s.depot.counters.persistenceFailures) :
    (IsOverlooked (k.content s.world.outside) order.fingerprint result.artifact.format →
      ((s.depot.setup.store.load order.fingerprint).run host.files after.world.outside).1 =
          .ok none ∧
        ∀ name ∈ namesOf order.fingerprint,
          k.content after.world.outside name = k.content s.world.outside name) ∧
    (¬ IsOverlooked (k.content s.world.outside) order.fingerprint result.artifact.format →
      ((s.depot.setup.store.load order.fingerprint).run host.files after.world.outside).1 =
          .ok (some result.artifact) ∧
        (outcome.isOk → ∀ _ : WorkingDriver host.device, ∀ fresh : Site σ, fresh.depot.IsNew →
          fresh.depot.setup = s.depot.setup →
          path.ServesAlike request.includeDirs (host.disk s.world.outside)
            (host.disk fresh.world.outside) →
          k.content fresh.world.outside = k.content after.world.outside →
          (fresh.getKernel host path request).1.isOk ∧
            (fresh.getKernel host path request).2.depot.runs = fresh.depot.runs)) := by
  -- No driver that works is needed to store the artifact, so all of them are asked at once what
  -- they say of it.
  have hload (s' : Site σ) (hs' : s'.depot.setup = s.depot.setup) (m : LoadedModule)
      (hm : (s'.load host order.fingerprint result.artifact).1 = .ok m)
      (hentry : (m.function? (order.request.entries.headD "")).isSome)
      (w : WorkingDriver host.device) :
      w.verdict s.depot.setup.device result.artifact = .ok () ∧
        order.request.entries.headD "" ∈ result.artifact.entries.names := by
    have hfst := (Calm.still w k hdevice).load_fst hs' order.fingerprint result.artifact
    rw [show (s'.load host.still order.fingerprint result.artifact).1 = _ from hm] at hfst
    exact ⟨hfst.1.symm, (hfst.2 m rfl _).mp hentry⟩
  obtain ⟨x, hmissed, hfailures, hcontent, hgood⟩ := getKernel_stores hk hcompile hdevice he
    hprepare hreach hresult hforeseen _ hload
  rw [hget] at hfailures hcontent hgood
  have hok : ((s.depot.setup.store.store order.fingerprint result.artifact).run host.files
      x).1.isOk := by
    by_contra hnot
    rw [hcount, if_neg hnot] at hfailures
    exact Nat.succ_ne_self _ hfailures.symm
  obtain ⟨hoverlooked, hstored⟩ := hk.run_load_run_store he hsize hmissed hok hcontent
  refine ⟨hoverlooked, fun hnot => ⟨(k.run_load_of_some (hstored hnot)).1, ?_⟩⟩
  intro houtcome w fresh hnew hsetup hserves hsame
  obtain ⟨hverdict, hentry⟩ := hgood houtcome w
  obtain ⟨order', hprepare', hfingerprint, hrequest⟩ :=
    exists_prepare_of_servesAlike hsetup hserves hprepare
  refine getKernel_of_stored w hdevice hnew hprepare' ?_ (by rw [hsetup]; exact hverdict)
    (by rw [hrequest]; exact hentry)
  rw [hsetup, hsame, hfingerprint]
  exact hstored hnot

end Site
end

/-! ## An image without a manifest -/

namespace Shelf

/-- The image of the fingerprint alone. -/
def orphan (name : String) : Option Bytes :=
  if name = imageName fingerprint .ptx then some [] else none

theorem isOverlooked_orphan : IsOverlooked (files.content orphan) fingerprint .ptx where
  image := by
    rw [show files.content orphan (imageName fingerprint .ptx) = orphan (imageName fingerprint .ptx)
      from plainly_eq (isPlain_imageName fingerprint .ptx)]
    unfold orphan
    rw [if_pos rfl]
    rfl
  manifest written h := by
    have hnone : orphan (manifestName fingerprint) = some written := (eq_some_of_plainly h).2
    unfold orphan at hnone
    rw [if_neg (imageName_ne_manifestName _ _ _).symm] at hnone
    exact nomatch hnone

theorem stored?_orphan : setup.store.stored? (files.content orphan) fingerprint = none := by
  refine (setup.store.stored?_plainly _ _).trans ?_
  unfold ArtifactStore.stored? orphan
  rw [if_neg (imageName_ne_manifestName _ _ _).symm]
  split <;> rfl

theorem isOk_getKernel_orphan : ((site orphan).getKernel host ⟨[], 0⟩ request).1.isOk := by
  rw [(Site.isOk_getKernel rfl (isNew_site _).toIsIdle prepare_depot).1]
  refine (calm.promises_of_none rfl ?_).mpr compiles_order
  rw [fingerprint_order]
  exact stored?_orphan

/-- A call over such a directory compiles and leads to a handle, no failure is counted, and
nothing is stored. -/
theorem load_orphan :
    ((site orphan).getKernel host ⟨[], 0⟩ request).1.isOk ∧
      ((site orphan).getKernel host ⟨[], 0⟩ request).2.depot.counters.persistenceFailures = 0 ∧
      ((setup.store.load fingerprint).run host.files
        ((site orphan).getKernel host ⟨[], 0⟩ request).2.world.outside).1 = .ok none := by
  have hfind : (site orphan).depot.find? order.fingerprint = none := rfl
  obtain ⟨n, s₁, hreach, hsetup⟩ := Call.advance_to_compile calm (isNew_site orphan).toIsIdle hfind
    (by rw [fingerprint_order]; exact stored?_orphan)
  have hresult : (s₁.compile host order.toPreparedRequest).1 =
      .ok ⟨⟨[], .ptx, "sm_80", .ofList [("k", "k")], .empty⟩, []⟩ := by
    rw [calm.compile_fst (Site.searches_of_prepare (prepare_site orphan)) hsetup]
    exact Except.eq_ok_of_toOption (by decide +kernel)
  have hforeseen : ¬ s₁.StraysFrom host order.toPreparedRequest :=
    (Site.extra_eq_nil_iff hresult).mp rfl
  have hcount : ((site orphan).getKernel host ⟨[], 0⟩
      request).2.depot.counters.persistenceFailures = 0 := by
    obtain ⟨x, hmissed, hfailures, -⟩ := Site.getKernel_stores isObedient_files
      (fun _ _ => rfl) (fun _ _ => rfl) rfl (prepare_site orphan) hreach hresult hforeseen True
      fun _ _ _ _ _ => trivial
    rw [fingerprint_order] at hmissed hfailures
    have himage := (hmissed.image_iff .ptx).mpr isOverlooked_orphan
    rw [(isObedient_files.run_store_eq_false_iff rfl).mpr himage] at hfailures
    exact hfailures
  have hload := (Site.load_of_getKernel isObedient_files (fun _ _ => rfl) (fun _ _ => rfl) rfl
    (prepare_site orphan) hreach hresult (by decide) hforeseen rfl hcount).1
  rw [fingerprint_order] at hload
  exact ⟨isOk_getKernel_orphan, hcount, (hload isOverlooked_orphan).1⟩

end Shelf
end KernelDepot
