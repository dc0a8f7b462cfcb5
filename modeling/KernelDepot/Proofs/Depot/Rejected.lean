/-
Stored artifacts that the device refuses.

A stored artifact is removed if the device refuses it and the artifact is to blame, and only then.
The call goes on to the toolchain in that case.  Otherwise it fails, and the artifact stays where
it is (`getKernel_of_refused`): neither a context that cannot be made current nor an architecture
that the device does not run speaks against what is stored.
-/
import KernelDepot.Proofs.Depot.Accounting
import KernelDepot.Proofs.Depot.Passage
import KernelDepot.Proofs.Device.Blame

namespace KernelDepot

open ArtifactStore

namespace DeviceFailure

/-- The failures for which an artifact is to blame. -/
def BlamesArtifact (e : DeviceFailure) : Prop :=
  e.fault = .invalidImage ∨ ∃ name, e.fault = .missingSymbol name

theorem isArtifactFault_iff {e : DeviceFailure} :
    e.isArtifactFault = true ↔ e.BlamesArtifact := by
  unfold isArtifactFault BlamesArtifact
  cases e.fault <;> simp

end DeviceFailure

/-- From the toolchain on a call has one thing compiled. -/
theorem Call.length_runs_complete_compile {σ : Type} (host : Host σ) (order : KeyedRequest)
    (s : Site σ) (n : Nat) :
    (complete host order s (.holding n .compile)).2.depot.runs.length =
      s.depot.runs.length + 1 := by
  have hrank : (Stage.holding n .compile).rank ≠ 0 := Nat.succ_ne_zero 5
  have hlt := rank_act_lt host order s (.holding n .compile) hrank
  -- After the toolchain a call does not come back to it.
  have hend := complete_induction
    (P := fun s' stage => stage.rank < 6 ∧ s'.depot.runs.length = s.depot.runs.length + 1)
    (fun s' stage hr hP => by
      refine ⟨Nat.lt_trans (rank_act_lt host order s' stage hr) hP.1, ?_⟩
      rw [runs_act host order s' stage]
      · exact hP.2
      · rintro m rfl
        exact absurd hP.1 (Nat.lt_irrefl 6))
    ⟨hlt, length_runs_act_compile host order s n⟩
  rw [complete_eq_of_rank hrank]
  exact hend.2

namespace Site

variable {σ : Type} {host : Host σ} {order : KeyedRequest} {s : Site σ} {k : KeptFiles host.files}
  {f : Fingerprint} {a : Artifact} {e : DeviceFailure}

/-- What the outside world is like when the device gets what was found in the store. -/
def found (host : Host σ) (s : Site σ) (f : Fingerprint) : σ :=
  ((s.depot.setup.store.load f).run host.files s.world.outside).2

/-- What the device does with an artifact that was found in the store. -/
def trial (s : Site σ) (f : Fingerprint) (a : Artifact) : Driving (DeviceReport LoadedModule) :=
  LoadedModule.load s.depot.setup.deviceId s.depot.setup.device f a

/-- A look-up in the store whose artifact the device refuses. -/
theorem restore_of_refused (hk : k.IsObedient)
    (hdevice : ∀ call x, k.content (host.device call x).2 = k.content x)
    (hstored : s.depot.setup.store.stored? (k.content s.world.outside) f = some a)
    (hrefused : ((s.trial f a).run host.device (s.found host f)).1.outcome = .error e) :
    (e.isArtifactFault = false → (s.restore host f).1 = .error e ∧
      (s.restore host f).2.depot = s.depot ∧
      k.content (s.restore host f).2.world.outside = k.content s.world.outside) ∧
    (e.isArtifactFault = true → (s.restore host f).1 = .ok none ∧
      (s.restore host f).2.depot =
        s.depot.count (fun c => { c with corruptRecoveries := c.corruptRecoveries + 1 }) ∧
      ∀ name, k.content (s.restore host f).2.world.outside name =
        if name ∈ namesOf f then none else k.content s.world.outside name) := by
  obtain ⟨hfound, hkept⟩ := k.run_load_of_some hstored
  obtain ⟨he, -⟩ := exists_of_stored? hstored
  have hfile : (s.file host (s.depot.setup.store.load f)).1 = .ok (some a) := hfound
  unfold restore
  simp only [hfile]
  generalize hs₁ : (s.file host (s.depot.setup.store.load f)).2.report
    (loadEvents (.ok (some a))) = s₁
  have hdepot₁ : s₁.depot = s.depot := by rw [← hs₁]; rfl
  have houtside₁ : s₁.world.outside = s.found host f := by rw [← hs₁]; rfl
  have hload : (s₁.load host f a).1 = .error e := by
    rw [load_outcome, hdepot₁, houtside₁]
    exact hrefused
  have hdepot₂ : (s₁.load host f a).2.depot = s.depot := (load_depot f a).trans hdepot₁
  have hcontent : k.content (s₁.load host f a).2.world.outside = k.content s.world.outside := by
    rw [view_load hdevice s₁ f a, houtside₁]
    exact hkept
  generalize s₁.load host f a = loaded at hload hdepot₂ hcontent ⊢
  obtain ⟨outcome, s₂⟩ := loaded
  cases hload
  simp only at hdepot₂ hcontent ⊢
  constructor
  · intro hfault
    rw [hfault, if_neg Bool.false_ne_true]
    exact ⟨rfl, hdepot₂, hcontent⟩
  · intro hfault
    rw [hfault, if_pos rfl]
    have hremoved : ∀ name,
        k.content ((s.depot.setup.store.remove f).run host.files s₂.world.outside).2 name =
          if name ∈ namesOf f then none else k.content s.world.outside name := by
      intro name
      unfold remove
      rw [if_pos he, hk.content_run_deleteAll fun _ => isPlain_of_mem_namesOf, hcontent]
    refine ⟨rfl, ?_, hremoved⟩
    rw [file_depot, report_depot, mapDepot_depot, hdepot₂]

/-- A call that has come to the toolchain with one artifact counted as damaged ends with that. -/
theorem corruptRecoveries_getKernel {path : SearchPath} {request : Request} {n : Nat} {s₁ : Site σ}
    (hget : s.getKernel host path request = Call.complete host order s₁ (.holding n .compile))
    (hcount : s₁.depot.counters.corruptRecoveries = s.depot.counters.corruptRecoveries + 1) :
    (s.getKernel host path request).2.depot.counters.corruptRecoveries =
      s.depot.counters.corruptRecoveries + 1 := by
  -- The bill of the whole call has one such entry at most, and what is left of the call from the
  -- toolchain on only adds to one that has it already.
  obtain ⟨bill, hadds, hfair, -⟩ := @accounts_getKernel σ host s path request
  obtain ⟨rest, hrest, -⟩ := @Call.accounts_complete σ host order s₁.depot s₁
    (.holding n .compile) ⟨{}, .refl _, Counters.isFair_zero, rfl⟩
  rw [← hget] at hrest
  have htotal := congrArg Counters.corruptRecoveries hadds.counters
  have hsplit := congrArg Counters.corruptRecoveries hrest.counters
  have hlooked := hfair.looked
  rw [Counters.add_def] at htotal hsplit
  simp only at htotal hsplit
  omega

/-- Suppose the device refuses an artifact that is stored.  If the artifact is not to blame then
the call fails in that way, and of the directory and of the depot nothing has changed apart from
the slots.  If it is to blame then it is removed and counted, and the call goes on to the
toolchain like one that has missed.  It is to blame if the first driver call that failed says so,
or if its architecture has no meaning. -/
theorem getKernel_of_refused {path : SearchPath} {request : Request} (hk : k.IsObedient)
    (hdevice : ∀ call x, k.content (host.device call x).2 = k.content x)
    (hprepare : (s.prepare host path request).1 = .ok order)
    (hfind : s.depot.find? order.fingerprint = none)
    (hslot : s.depot.Admits order.fingerprint)
    (hstored : s.depot.setup.store.stored? (k.content s.world.outside) order.fingerprint = some a)
    (hrefused : ((s.trial order.fingerprint a).run host.device
      (s.found host order.fingerprint)).1.outcome = .error e) :
    (e.BlamesArtifact ↔ (∃ fault, Arch.parse a.arch = .error fault) ∨
      ∃ call status, Driving.failure? host.device (s.trial order.fingerprint a)
        (s.found host order.fingerprint) = some (call, status) ∧ call.blames status = true) ∧
    (¬ e.BlamesArtifact →
      (s.getKernel host path request).1 = .error (.device e) ∧
      k.content (s.getKernel host path request).2.world.outside = k.content s.world.outside ∧
      ∃ arena, (s.getKernel host path request).2.depot = { s.depot with arena }) ∧
    (e.BlamesArtifact → ∃ n s₁,
      s.getKernel host path request = Call.complete host order s₁ (.holding n .compile) ∧
      (∀ name, k.content s₁.world.outside name =
        if name ∈ namesOf order.fingerprint then none else k.content s.world.outside name) ∧
      (∃ arena, s₁.depot = { s.depot with
        arena
        counters := { s.depot.counters with
          corruptRecoveries := s.depot.counters.corruptRecoveries + 1 } }) ∧
      (s.getKernel host path request).2.depot.counters.corruptRecoveries =
        s.depot.counters.corruptRecoveries + 1 ∧
      (s.getKernel host path request).2.depot.runs.length = s.depot.runs.length + 1) := by
  have hfind' : (s.prepare host path request).2.depot.find? order.fingerprint = none := hfind
  obtain ⟨n, s', hcomplete, hworld, arena, hdepot⟩ :=
    Call.complete_lookup_of_none host hfind' hslot
  have hget := (getKernel_of_prepare hprepare).trans hcomplete
  have houtside : s'.world.outside = s.world.outside := congrArg (·.outside) hworld
  have hstored' : s'.depot.setup.store.stored? (k.content s'.world.outside) order.fingerprint =
      some a := by
    rw [hdepot, houtside]
    exact hstored
  have hrefused' : ((s'.trial order.fingerprint a).run host.device
      (s'.found host order.fingerprint)).1.outcome = .error e := by
    unfold trial found
    rw [hdepot, houtside]
    exact hrefused
  obtain ⟨hfails, hrecovers⟩ := restore_of_refused hk hdevice hstored' hrefused'
  rw [← DeviceFailure.isArtifactFault_iff]
  refine ⟨(LoadedModule.isArtifactFault_load_iff hrefused).2, fun hfault => ?_, fun hfault => ?_⟩
  · obtain ⟨houtcome, hsame, hcontent⟩ := hfails (Bool.eq_false_iff.mpr hfault)
    obtain ⟨hend, hendWorld, arena', hendDepot⟩ := Call.complete_restore_of_error n houtcome
    rw [hget]
    refine ⟨hend, ?_, arena', ?_⟩
    · rw [hendWorld, hcontent, houtside]
    · rw [hendDepot, hsame, hdepot]
      rfl
  · obtain ⟨houtcome, hcount, hcontent⟩ := hrecovers hfault
    rw [Call.complete_restore_of_none n houtcome] at hget
    generalize hs₁ : (s'.restore host order.fingerprint).2.report [.miss] = s₁ at hget
    have hdepot₁ : s₁.depot = { s.depot with
        arena
        counters := { s.depot.counters with
          corruptRecoveries := s.depot.counters.corruptRecoveries + 1 } } := by
      rw [← hs₁, report_depot, hcount, hdepot]
      rfl
    refine ⟨n, s₁, hget, fun name => ?_, ⟨arena, hdepot₁⟩, ?_, ?_⟩
    · rw [← hs₁, ← houtside]
      exact hcontent name
    · exact corruptRecoveries_getKernel hget (by rw [hdepot₁])
    · rw [hget, Call.length_runs_complete_compile, hdepot₁]

end Site

/-! ## A device that fails one kind of call -/

namespace Shelf

def refusing (kind : DriverCall.Kind) (status : DriverStatus) : Host (String → Option Bytes) :=
  { host with
    device := fun call content =>
      if call.kind = kind then (.error status, content) else host.device call content }

theorem device_refusing (kind : DriverCall.Kind) (status : DriverStatus) (call : DriverCall)
    (content : String → Option Bytes) :
    ((refusing kind status).device call content).2 = content := by
  show (ite _ _ _ : call.Reply × (String → Option Bytes)).2 = content
  split <;> rfl

theorem prepare_refusing (kind : DriverCall.Kind) (status : DriverStatus) :
    ((site lacking).prepare (refusing kind status) ⟨[], 0⟩ request).1 = .ok order := by
  rw [show (site lacking).prepare (refusing kind status) ⟨[], 0⟩ request =
    (site lacking).prepare host ⟨[], 0⟩ request from rfl]
  exact prepare_site lacking

theorem parse_lacking : Arch.parse "sm_80" = .ok (.sm 8 0) :=
  Except.eq_ok_of_toOption (by decide +kernel)

/-- How the device refuses what is stored. -/
theorem refused_lacking (kind : DriverCall.Kind) (status : DriverStatus)
    (content : String → Option Bytes) (hkind : kind = .bind ∨ kind = .load) :
    (((site lacking).trial order.fingerprint ⟨[], .ptx, "sm_80", .empty, .empty⟩).run
      (refusing kind status).device content).1.outcome = .error (
        if kind = .bind then
          ⟨.invalidContext, "failed to make the device context current", some status⟩
        else LoadedModule.loadFailure setup.device (.sm 8 0) status) := by
  have hcheck : setup.device.check (.sm 8 0) .ptx = .ok () :=
    Except.eq_ok_of_toOption (by decide +kernel)
  unfold Site.trial LoadedModule.load
  simp only [parse_lacking]
  rw [show (site lacking).depot.setup = setup from rfl, hcheck]
  rcases hkind with rfl | rfl <;> rfl

def badImage : DriverStatus := ⟨DriverStatus.invalidImage, "CUDA_ERROR_INVALID_IMAGE", ""⟩

def wrongBinary : DriverStatus :=
  ⟨DriverStatus.noBinaryForDevice, "CUDA_ERROR_NO_BINARY_FOR_GPU", ""⟩

/-- The artifact stays if the context cannot be made current, whatever the status says of the
image, and if its image has no code for the device.  If its image is invalid the call compiles. -/
theorem getKernel_refusing :
    (((site lacking).getKernel (refusing .bind badImage) ⟨[], 0⟩ request).1 = .error (.device
        ⟨.invalidContext, "failed to make the device context current", some badImage⟩) ∧
      files.content ((site lacking).getKernel (refusing .bind badImage) ⟨[], 0⟩
        request).2.world.outside = files.content lacking) ∧
    (((site lacking).getKernel (refusing .load wrongBinary) ⟨[], 0⟩ request).1 = .error (.device
        ⟨.archMismatch "sm_80" "sm_80", "driver found no compatible binary in the image",
          some wrongBinary⟩) ∧
      files.content ((site lacking).getKernel (refusing .load wrongBinary) ⟨[], 0⟩
        request).2.world.outside = files.content lacking) ∧
    ((site lacking).getKernel (refusing .load badImage) ⟨[], 0⟩
        request).2.depot.counters.corruptRecoveries = 1 ∧
      ((site lacking).getKernel (refusing .load badImage) ⟨[], 0⟩
        request).2.depot.runs.length = 1 := by
  have hstored : (site lacking).depot.setup.store.stored? (files.content lacking)
      order.fingerprint = some ⟨[], .ptx, "sm_80", .empty, .empty⟩ := by
    rw [fingerprint_order]
    exact (setup.store.stored?_plainly _ _).trans stored?_lacking
  have hdevice (kind : DriverCall.Kind) (status : DriverStatus) (call : DriverCall)
      (content : String → Option Bytes) :
      files.content ((refusing kind status).device call content).2 = files.content content :=
    congrArg files.content (device_refusing kind status call content)
  have hall (kind : DriverCall.Kind) (status : DriverStatus)
      (hkind : kind = .bind ∨ kind = .load) :=
    @Site.getKernel_of_refused _ (refusing kind status) order (site lacking) files _ _ _ _
      isObedient_files (hdevice kind status) (prepare_refusing kind status) rfl
      ((isNew_site lacking).toIsIdle.admits order) hstored (refused_lacking kind status _ hkind)
  obtain ⟨hbind, hunbound, -⟩ :=
    (hall .bind badImage (.inl rfl)).2.1 (mt DeviceFailure.isArtifactFault_iff.mpr (by decide))
  obtain ⟨hmismatch, hunmatched, -⟩ := (hall .load wrongBinary (.inr rfl)).2.1
    (mt DeviceFailure.isArtifactFault_iff.mpr (by decide))
  obtain ⟨_, _, -, -, -, hcount, hruns⟩ := (hall .load badImage (.inr rfl)).2.2 (.inl rfl)
  have hfailure : LoadedModule.loadFailure setup.device (.sm 8 0) wrongBinary =
      ⟨.archMismatch "sm_80" "sm_80", "driver found no compatible binary in the image",
        some wrongBinary⟩ := by decide +kernel
  rw [if_neg (by decide), hfailure] at hmismatch
  exact ⟨⟨hbind, hunbound⟩, ⟨hmismatch, hunmatched⟩, hcount, hruns⟩

end Shelf
end KernelDepot
