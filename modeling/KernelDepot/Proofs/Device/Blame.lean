/-
Who is to blame for a module that is not loaded.

A load makes several kinds of driver calls and stops at the first that fails.  What it says then
depends on the call as much as on the status: a context that cannot be made current is an
invalid one whatever the status, a symbol that is not found is missing, and otherwise the status
is classified.  The artifact is to blame if its image is, if it lacks a symbol, or if its
architecture has no meaning (`isArtifactFault_load_iff`).  This holds of any driver.
-/
import KernelDepot.Device.Module

namespace KernelDepot

def DriverStatus.imageCodes : List Int := [invalidImage, invalidPtx, unsupportedPtxVersion]

/-- Whether a call that fails with a status speaks against the artifact. -/
def DriverCall.blames (call : DriverCall) (status : DriverStatus) : Bool :=
  match call with
  | .load _ | .occupancy _ => status.code ∈ DriverStatus.imageCodes
  | .getFunction .. | .getGlobal .. =>
    status.code ∈ DriverStatus.notFound :: DriverStatus.imageCodes
  | _ => false

/-- A failure has the status of a call and blames the artifact if the call does. -/
structure DeviceFailure.IsOf (e : DeviceFailure) (call : DriverCall) (s : DriverStatus) : Prop where
  status : e.status = some s
  fault : e.isArtifactFault = call.blames s

/-- A result speaks of the call that has failed, if one has. -/
inductive SpeaksOf {α : Type} :
    Option (DriverCall × DriverStatus) → Except DeviceFailure α → Prop where
  | fine (a : α) : SpeaksOf none (.ok a)
  | failed {call : DriverCall} {s : DriverStatus} {e : DeviceFailure} (h : e.IsOf call s) :
    SpeaksOf (some (call, s)) (.error e)

/-! ## The first call that fails -/

namespace Driving

variable {σ α β γ : Type} {device : DriverHandler σ}

/-- The first call that fails when a program is run, and its status. -/
def failure? (device : DriverHandler σ) : Driving α → σ → Option (DriverCall × DriverStatus)
  | .done _, _ => none
  | .ask call next, x =>
    match (device call x).1 with
    | .error status => some (call, status)
    | .ok _ => failure? device (next (device call x).1) (device call x).2

theorem failure?_ask_of_error {call : DriverCall} {next : call.Reply → Driving α} {x : σ}
    {status : DriverStatus} (h : (device call x).1 = .error status) :
    failure? device (.ask call next) x = some (call, status) := by
  rw [failure?, h]

theorem failure?_ask_of_ok {call : DriverCall} {next : call.Reply → Driving α} {x : σ}
    {answer : call.Answer} (h : (device call x).1 = .ok answer) :
    failure? device (.ask call next) x =
      failure? device (next (.ok answer)) (device call x).2 := by
  rw [failure?, h]

theorem failure?_bind (p : Driving α) (f : α → Driving β) (x : σ) :
    failure? device (p >>= f) x =
      (failure? device p x).or (failure? device (f (p.run device x).1) (p.run device x).2) := by
  induction p generalizing x with
  | done a => rfl
  | ask call next ih =>
    show failure? device (.ask call fun reply => next reply >>= f) x = _
    rw [Program.run_ask]
    cases hreply : (device call x).1 with
    | error status =>
      rw [failure?_ask_of_error hreply, failure?_ask_of_error hreply]
      rfl
    | ok answer =>
      rw [failure?_ask_of_ok hreply, failure?_ask_of_ok hreply]
      exact ih _ _

/-- Whatever the state, the result of a program speaks of the first call that fails. -/
def IsCandid (device : DriverHandler σ) (out : β → Except DeviceFailure γ) (p : Driving β) :
    Prop :=
  ∀ x, SpeaksOf (failure? device p x) (out (p.run device x).1)

variable {out : β → Except DeviceFailure γ}

theorem isCandid_pure {b : β} {c : γ} (h : out b = .ok c) : IsCandid device out (pure b) := by
  intro x
  show SpeaksOf none (out b)
  rw [h]
  exact .fine c

/-- What comes after a failure has no say in the result. -/
theorem isCandid_bind {p : Driving (Except DeviceFailure α)}
    {next : Except DeviceFailure α → Driving β} (hp : IsCandid device id p)
    (herror : ∀ e x, out ((next (.error e)).run device x).1 = .error e)
    (hok : ∀ a, IsCandid device out (next (.ok a))) : IsCandid device out (p >>= next) := by
  intro x
  have hfirst := hp x
  rw [failure?_bind, Program.run_bind]
  generalize failure? device p x = failed at hfirst ⊢
  generalize p.run device x = result at hfirst ⊢
  obtain ⟨result, x₁⟩ := result
  cases result with
  | ok a =>
    cases hfirst
    exact hok a x₁
  | error e =>
    rw [herror]
    cases hfirst with
    | failed h => exact .failed h

theorem isCandid_make {call : DriverCall} {fail : DriverStatus → DeviceFailure}
    {next : call.Reply → Driving β} (hfail : ∀ s, (fail s).IsOf call s)
    (herror : ∀ s x, out ((next (.error s)).run device x).1 = .error (fail s))
    (hok : ∀ a, IsCandid device out (next (.ok a))) :
    IsCandid device out (call.make >>= next) := by
  intro x
  rw [Program.run_bind]
  show SpeaksOf (failure? device (.ask call next) x) (out ((next (device call x).1).run device
    (device call x).2).1)
  cases hreply : (device call x).1 with
  | error s =>
    rw [failure?_ask_of_error hreply, herror]
    exact .failed (hfail s)
  | ok answer =>
    rw [failure?_ask_of_ok hreply]
    exact hok answer _

end Driving

/-! ## The steps of a load -/

namespace DeviceFailure

variable {s : DriverStatus}

theorem isArtifactFault_ofStatus (detail : String) :
    (ofStatus s detail).isArtifactFault = decide (s.code ∈ DriverStatus.imageCodes) := by
  have hdisjoint : ∀ code ∈ [DriverStatus.notInitialized, DriverStatus.deinitialized,
      DriverStatus.invalidContext, DriverStatus.contextIsDestroyed],
      code ∉ DriverStatus.imageCodes := by decide
  unfold isArtifactFault ofStatus DriverStatus.classify
  by_cases hcontext : s.code ∈ [DriverStatus.notInitialized, DriverStatus.deinitialized,
      DriverStatus.invalidContext, DriverStatus.contextIsDestroyed]
  · simp only [if_pos hcontext, decide_eq_false (hdisjoint _ hcontext)]
  · rw [if_neg hcontext]
    by_cases himage : s.code ∈ DriverStatus.imageCodes
    · rw [decide_eq_true himage, if_pos (show s.code ∈ [_, _, _] from himage)]
    · rw [decide_eq_false himage, if_neg (show s.code ∉ [_, _, _] from himage)]

theorem isOf_bind (detail : String) :
    (⟨.invalidContext, detail, some s⟩ : DeviceFailure).IsOf .bind s :=
  ⟨rfl, rfl⟩

theorem isOf_occupancy (f : Nat) (detail : String) : (ofStatus s detail).IsOf (.occupancy f) s :=
  ⟨rfl, isArtifactFault_ofStatus detail⟩

end DeviceFailure

/-- An architecture that the device does not run does not speak against the artifact. -/
theorem DeviceInfo.isArtifactFault_of_check {info : DeviceInfo} {target : Arch}
    {format : ImageFormat} {e : DeviceFailure} (h : info.check target format = .error e) :
    e.isArtifactFault = false ∧ e.status = none := by
  unfold check at h
  simp only at h
  split at h
  all_goals
    split at h
    · exact nomatch h
    · rw [← Except.error.inj h]
      exact ⟨rfl, rfl⟩

namespace LoadedModule

variable {σ : Type} {device : DriverHandler σ} {s : DriverStatus}

theorem isOf_load (info : DeviceInfo) (target : Arch) (image : Bytes) :
    (loadFailure info target s).IsOf (.load image) s := by
  unfold loadFailure
  by_cases hcode : s.code = DriverStatus.noBinaryForDevice
  · rw [if_pos hcode]
    refine ⟨rfl, ?_⟩
    unfold DriverCall.blames
    rw [hcode]
    rfl
  · rw [if_neg hcode]
    exact ⟨rfl, DeviceFailure.isArtifactFault_ofStatus _⟩

/-- A symbol that is not found is missing, and any other status is classified. -/
theorem isOf_symbolFailure (name symbol : String) {call : DriverCall}
    (hcall : call.blames s =
      decide (s.code ∈ DriverStatus.notFound :: DriverStatus.imageCodes)) :
    (symbolFailure s name symbol).IsOf call s := by
  unfold symbolFailure
  by_cases hcode : s.code = DriverStatus.notFound
  · rw [if_pos hcode]
    refine ⟨rfl, ?_⟩
    rw [hcall, hcode]
    rfl
  · rw [if_neg hcode]
    refine ⟨rfl, ?_⟩
    rw [DeviceFailure.isArtifactFault_ofStatus, hcall]
    exact decide_eq_decide.mpr (List.mem_cons.trans (or_iff_right hcode)).symm

open Driving

theorem isCandid_findFunction (handle : Nat) (entry symbol : String) :
    IsCandid device id (findFunction handle entry symbol) :=
  isCandid_make (fun _ => isOf_symbolFailure entry symbol rfl) (fun _ _ => rfl) fun f =>
    isCandid_make (fun _ => DeviceFailure.isOf_occupancy f _) (fun _ _ => rfl) fun _ =>
      isCandid_pure rfl

theorem isCandid_findGlobal (handle : Nat) (name symbol : String) :
    IsCandid device id (findGlobal handle name symbol) :=
  isCandid_make (fun _ => isOf_symbolFailure name symbol rfl) (fun _ _ => rfl) fun _ =>
    isCandid_pure rfl

theorem isCandid_findAll {α : Type} {find : String → String → Driving (Except DeviceFailure α)}
    (hfind : ∀ name symbol, IsCandid device id (find name symbol)) (l : List (String × String)) :
    IsCandid device id (findAll find l) := by
  induction l with
  | nil => exact isCandid_pure rfl
  | cons head rest ih =>
    exact isCandid_bind (hfind head.1 head.2) (fun _ _ => rfl) fun value =>
      isCandid_bind ih (fun _ _ => rfl) fun values => isCandid_pure rfl

theorem isCandid_findSymbols (handle : Nat) (a : Artifact) :
    IsCandid device id (findSymbols handle a) :=
  isCandid_bind (isCandid_findAll (isCandid_findFunction handle) _) (fun _ _ => rfl) fun _ =>
    isCandid_bind (isCandid_findAll (isCandid_findGlobal handle) _) (fun _ _ => rfl) fun _ =>
      isCandid_pure rfl

theorem isCandid_bindContext : IsCandid device id bindContext :=
  isCandid_make (fun _ => DeviceFailure.isOf_bind _) (fun _ _ => rfl) fun _ => isCandid_pure rfl

/-- An artifact for the device is refused for the first call that fails, and for nothing else. -/
theorem isCandid_load {id : Nat} {info : DeviceInfo} {f : Fingerprint} {a : Artifact}
    {target : Arch} (htarget : Arch.parse a.arch = .ok target)
    (hcheck : info.check target a.format = .ok ()) :
    IsCandid device DeviceReport.outcome (load id info f a) := by
  unfold load
  rw [htarget]
  simp only
  rw [hcheck]
  refine isCandid_bind isCandid_bindContext (fun _ _ => rfl) fun _ => ?_
  refine isCandid_make (fun _ => isOf_load info target a.image) (fun _ _ => rfl) fun handle => ?_
  refine isCandid_bind (isCandid_findSymbols handle a) (fun e x => ?_) fun symbols => ?_
  · simp only [Program.run_bind, Program.run_pure]
  · exact isCandid_pure rfl

/-- A load that fails has the status of the first call that has failed, if one has, and blames
the artifact if that call does, or if the architecture is not understood. -/
theorem isArtifactFault_load_iff {id : Nat} {info : DeviceInfo} {f : Fingerprint} {a : Artifact}
    {x : σ} {e : DeviceFailure} (h : ((load id info f a).run device x).1.outcome = .error e) :
    e.status = (failure? device (load id info f a) x).map Prod.snd ∧
    (e.isArtifactFault = true ↔ (∃ fault, Arch.parse a.arch = .error fault) ∨
      ∃ call status, failure? device (load id info f a) x = some (call, status) ∧
        call.blames status = true) := by
  cases htarget : Arch.parse a.arch with
  | error fault =>
    have hload : load id info f a =
        pure ⟨[], .error ⟨.invalidImage, fault.message, none⟩⟩ := by
      unfold load
      rw [htarget]
    rw [hload] at h ⊢
    rw [← Except.error.inj h]
    exact ⟨rfl, fun _ => .inl ⟨fault, rfl⟩, fun _ => rfl⟩
  | ok target =>
    cases hcheck : info.check target a.format with
    | error e' =>
      have hload : load id info f a = pure ⟨[], .error e'⟩ := by
        unfold load
        rw [htarget]
        simp only
        rw [hcheck]
      rw [hload] at h ⊢
      obtain rfl : e' = e := Except.error.inj h
      obtain ⟨hfault, hstatus⟩ := DeviceInfo.isArtifactFault_of_check hcheck
      rw [hfault, hstatus]
      refine ⟨rfl, fun hblamed => absurd hblamed Bool.false_ne_true, ?_⟩
      rintro (⟨fault, hbad⟩ | ⟨call, status, hnone, -⟩)
      · exact nomatch hbad
      · exact nomatch hnone
    | ok _ =>
      have hcandid : SpeaksOf (failure? device (load id info f a) x)
          ((load id info f a).run device x).1.outcome := isCandid_load htarget hcheck x
      rw [h] at hcandid
      generalize failure? device (load id info f a) x = failed at hcandid ⊢
      cases hcandid with
      | @failed call s _ hof =>
        rw [hof.status, hof.fault]
        refine ⟨rfl, fun hblames => .inr ⟨call, s, rfl, hblames⟩, ?_⟩
        rintro (⟨fault, hbad⟩ | ⟨call', s', heq, hblames⟩)
        · exact nomatch hbad
        · obtain ⟨rfl, rfl⟩ := Prod.mk.inj (Option.some.inj heq)
          exact hblames

end LoadedModule
end KernelDepot
