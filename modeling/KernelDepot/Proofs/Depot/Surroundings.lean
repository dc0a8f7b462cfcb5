/-
What is around a depot and is no concern of its device.

A part of the surroundings that no driver call changes is the same after everything that a
call does with modules, and that is every step of a call that does not go to the store or to
the toolchain.
-/
import KernelDepot.Proofs.Artifact.Confined
import KernelDepot.Proofs.Depot.Steps

namespace KernelDepot

theorem World.view_letGo {σ β : Type} {device : DriverHandler σ} {view : σ → β}
    (hview : ∀ call x, view (device call x).2 = view x) (w : World σ) (key : ModuleKey) :
    view (w.letGo device key).outside = view w.outside := by
  unfold letGo
  simp only
  split
  · rfl
  · exact Program.view_run hview (LoadedModule.unload key.handle) w.outside

namespace Site

variable {σ β : Type} {host : Host σ} {view : σ → β}
  (hview : ∀ call x, view (host.device call x).2 = view x) (s : Site σ)

include hview

theorem view_letGo (key : ModuleKey) :
    view (s.letGo host key).world.outside = view s.world.outside :=
  World.view_letGo hview s.world key

theorem view_grant (m : LoadedModule) (entry : String) :
    view (s.grant host m entry).2.world.outside = view s.world.outside := by
  unfold grant
  split
  · rfl
  · exact view_letGo hview s m.key

theorem view_load (f : Fingerprint) (a : Artifact) :
    view (s.load host f a).2.world.outside = view s.world.outside := by
  have hrun := Program.view_run hview
    (LoadedModule.load s.depot.setup.deviceId s.depot.setup.device f a) s.world.outside
  unfold load World.load World.drive
  simp only
  split <;> exact hrun

theorem view_serveHit (m : LoadedModule) (entry : String) (event : Event) :
    view (s.serveHit host m entry event).2.world.outside = view s.world.outside :=
  view_grant hview _ m entry

theorem view_enter (f : Fingerprint) (m : LoadedModule) :
    view (s.enter host f m).2.world.outside = view s.world.outside := by
  unfold enter
  cases s.depot.find? f with
  | some present => exact view_letGo hview _ m.key
  | none => rfl

theorem view_letGoAll (keys : List ModuleKey) :
    view (s.letGoAll host keys).world.outside = view s.world.outside := by
  induction keys generalizing s with
  | nil => rfl
  | cons key rest ih => exact (ih (s.letGo host key)).trans (view_letGo hview s key)

theorem view_release : view (s.release host).2.world.outside = view s.world.outside := by
  unfold release
  simp only
  rw [view_letGoAll hview]
  split <;> rfl

end Site

namespace Site

variable {σ : Type} {host : Host σ}

theorem letGoAll_depot (s : Site σ) (keys : List ModuleKey) :
    (s.letGoAll host keys).depot = s.depot := by
  induction keys generalizing s with
  | nil => rfl
  | cons key rest ih => exact ih (s.letGo host key)

/-- After a release the index is empty, and the rest of the depot is as it was. -/
theorem release_depot (s : Site σ) : (s.release host).2.depot = { s.depot with index := [] } := by
  unfold release
  simp only
  rw [letGoAll_depot]
  split <;> rfl

end Site

theorem Site.load_outcome {σ : Type} {host : Host σ} (s : Site σ) (f : Fingerprint)
    (a : Artifact) : (s.load host f a).1 =
      ((LoadedModule.load s.depot.setup.deviceId s.depot.setup.device f a).run host.device
        s.world.outside).1.outcome := by
  unfold load World.load World.drive
  simp only
  split <;> simp only [*]

/-- A look-up in the store that finds no artifact leaves nothing to load. -/
theorem Site.restore_of_missing {σ : Type} {host : Host σ} {s : Site σ} {f : Fingerprint}
    (h : ∀ a, (s.file host (s.depot.setup.store.load f)).1 ≠ .ok (some a)) :
    (s.restore host f).1 = .ok none ∧ (s.restore host f).2.world.outside =
      (s.file host (s.depot.setup.store.load f)).2.world.outside := by
  unfold restore
  simp only
  cases hfound : (s.file host (s.depot.setup.store.load f)).1 with
  | error failure => cases failure <;> exact ⟨rfl, rfl⟩
  | ok found =>
    cases found with
    | none => exact ⟨rfl, rfl⟩
    | some a => exact absurd hfound (h a)

/-- What no driver call and no work on the files of a fingerprint changes is the same after it
was looked up in the store. -/
theorem Site.view_restore {σ β : Type} {host : Host σ} {view : σ → β} {f : Fingerprint}
    (hfiles : ∀ op : FileOp, op.IsAt f → ∀ x, view (host.files op x).2 = view x)
    (hdevice : ∀ call x, view (host.device call x).2 = view x) (s : Site σ) :
    view (s.restore host f).2.world.outside = view s.world.outside := by
  have hfile {α : Type} (s : Site σ) {p : Filing α} (hp : p.AsksOnly (FileOp.IsAt f)) :
      view (s.file host p).2.world.outside = view s.world.outside :=
    hp.view_run view hfiles s.world.outside
  have hfound := hfile s (ArtifactStore.asksOnly_load s.depot.setup.store f)
  unfold restore
  simp only
  generalize s.file host (s.depot.setup.store.load f) = found at hfound ⊢
  obtain ⟨found, s₁⟩ := found
  cases found with
  | error failure => cases failure <;> exact hfound
  | ok artifact =>
    cases artifact with
    | none => exact hfound
    | some a =>
      have hload := view_load hdevice (s₁.report (ArtifactStore.loadEvents (.ok (some a)))) f a
      simp only
      generalize Site.load host _ f a = loaded at hload ⊢
      obtain ⟨outcome, s₂⟩ := loaded
      cases outcome with
      | ok m => exact hload.trans hfound
      | error e =>
        simp only
        split
        · exact (hfile _ (ArtifactStore.asksOnly_remove _ f)).trans (hload.trans hfound)
        · exact hload.trans hfound

theorem Site.outside_persist {σ : Type} {host : Host σ} (s : Site σ) (f : Fingerprint)
    (a : Artifact) : (s.persist host f a).world.outside =
      ((s.depot.setup.store.store f a).run host.files s.world.outside).2 := by
  unfold persist
  simp only
  split <;> rfl

/-- Whether the next step of a call is one with the store or with the toolchain. -/
def Stage.goesOut : Stage → Bool
  | .holding _ .restore | .holding _ .compile | .holding _ (.store _) => true
  | _ => false

/-- Any other step is one with the device at most. -/
theorem Call.outside_act {σ β : Type} {host : Host σ} {view : σ → β}
    (hview : ∀ call x, view (host.device call x).2 = view x) (order : KeyedRequest) (s : Site σ)
    (stage : Stage) (h : stage.goesOut = false) :
    view (act host order s stage).2.world.outside = view s.world.outside := by
  cases stage with
  | lookup =>
    unfold act
    cases s.depot.find? order.fingerprint with
    | some m => exact Site.view_serveHit hview s m _ _
    | none => rfl
  | join => rfl
  | finished outcome => rfl
  | holding n task =>
    have hworks := works_work host order s n task
    show view (work host order s n task).2.world.outside = _
    generalize work host order s n task = worked at hworks ⊢
    obtain ⟨after, s'⟩ := worked
    cases hworks with
    | find m hfailure hm => exact Site.view_serveHit hview s m _ _
    | loadFailed a shared e hl => exact Site.view_load hview s _ a
    | loaded a m hl => exact Site.view_load hview s _ a
    | loadedOnce a m hl => exact (Site.view_grant hview _ m _).trans (Site.view_load hview s _ a)
    | insert m => exact (Site.view_grant hview _ _ _).trans (Site.view_enter hview s _ m)
    | lock | refuse | search | unlock | leave => rfl
    | _ => exact absurd h.symm Bool.false_ne_true

theorem Call.outside_act_restore {σ : Type} {host : Host σ} (order : KeyedRequest) (s : Site σ)
    (n : Nat) : (act host order s (.holding n .restore)).2.world.outside =
      (s.restore host order.fingerprint).2.world.outside := by
  have hworks := works_work host order s n .restore
  show (work host order s n .restore).2.world.outside = _
  generalize work host order s n .restore = worked at hworks ⊢
  obtain ⟨after, s'⟩ := worked
  cases hworks <;> rfl

theorem Call.outside_act_compile {σ : Type} {host : Host σ} (order : KeyedRequest) (s : Site σ)
    (n : Nat) : (act host order s (.holding n .compile)).2.world.outside =
      (host.compile order.job s.world.outside).2 := by
  have hworks := works_work host order s n .compile
  show (work host order s n .compile).2.world.outside = _
  generalize work host order s n .compile = worked at hworks ⊢
  obtain ⟨after, s'⟩ := worked
  cases hworks <;> rfl

end KernelDepot
