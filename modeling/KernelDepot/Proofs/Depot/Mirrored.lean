/-
A call in surroundings that stand for others.

Where every answer and what it leads to is that of other surroundings, in states that belong
together, a call does the same in both.  Of the files only those count that a store has for a
fingerprint.
-/
import KernelDepot.Proofs.Artifact.Confined
import KernelDepot.Proofs.Depot.Alone

namespace KernelDepot

/-- One host stands for another: a state of the other one has its image here. -/
structure Host.Mirrors {σ τ : Type} (host' : Host τ) (host : Host σ) (image : σ → τ) : Prop where
  disk : ∀ x, host'.disk (image x) = host.disk x
  files : ∀ f (op : FileOp), op.IsAt f → ∀ x,
    host'.files op (image x) = ((host.files op x).1, image (host.files op x).2)
  device : ∀ call x,
    host'.device call (image x) = ((host.device call x).1, image (host.device call x).2)
  compile : ∀ job x,
    host'.compile job (image x) = ((host.compile job x).1, image (host.compile job x).2)

def World.map {σ τ : Type} (image : σ → τ) (w : World σ) : World τ :=
  ⟨image w.outside, w.holds, w.events⟩

def Site.map {σ τ : Type} (image : σ → τ) (s : Site σ) : Site τ := ⟨s.depot, s.world.map image⟩

variable {σ τ α : Type} {host' : Host τ} {host : Host σ} {image : σ → τ}
  (h : host'.Mirrors host image)
include h

namespace World

theorem drive_map (w : World σ) (p : Driving α) :
    (w.map image).drive host'.device p =
      ((w.drive host.device p).1, (w.drive host.device p).2.map image) := by
  unfold drive map
  simp only [Program.run_comm h.device]

theorem file_map {f : Fingerprint} {p : Filing α} (hp : p.AsksOnly (FileOp.IsAt f))
    (w : World σ) : (w.map image).file host'.files p =
      ((w.file host.files p).1, (w.file host.files p).2.map image) := by
  unfold file map
  simp only [hp.run_comm (h.files f)]

theorem letGo_map (w : World σ) (key : ModuleKey) :
    (w.map image).letGo host'.device key = (w.letGo host.device key).map image := by
  have hdrive := drive_map h { w with holds := w.holds.erase key }
    (LoadedModule.unload key.handle)
  unfold letGo
  simp only
  by_cases hkey : key ∈ w.holds.erase key
  · rw [if_pos hkey]
    exact if_pos hkey
  · rw [if_neg hkey]
    refine (if_neg hkey).trans ?_
    exact congrArg (fun driven => driven.2.report driven.1) hdrive

theorem load_map (w : World σ) (id : Nat) (info : DeviceInfo) (f : Fingerprint) (a : Artifact) :
    (w.map image).load host'.device id info f a =
      ((w.load host.device id info f a).1, (w.load host.device id info f a).2.map image) := by
  unfold load
  rw [drive_map h]
  generalize w.drive host.device (LoadedModule.load id info f a) = driven
  obtain ⟨⟨events, outcome⟩, w₁⟩ := driven
  cases outcome <;> rfl

end World

namespace Site

variable (s : Site σ)

theorem file_map {f : Fingerprint} {p : Filing α} (hp : p.AsksOnly (FileOp.IsAt f)) :
    (s.map image).file host' p = ((s.file host p).1, (s.file host p).2.map image) := by
  unfold file map
  rw [World.file_map h hp]

theorem letGo_map (key : ModuleKey) :
    (s.map image).letGo host' key = (s.letGo host key).map image := by
  unfold letGo map
  rw [World.letGo_map h]

theorem load_map (f : Fingerprint) (a : Artifact) :
    (s.map image).load host' f a = ((s.load host f a).1, (s.load host f a).2.map image) := by
  have hload := World.load_map h s.world s.depot.setup.deviceId s.depot.setup.device f a
  exact congrArg (fun loaded => (loaded.1, Site.mk s.depot loaded.2)) hload

theorem grant_map (m : LoadedModule) (entry : String) :
    (s.map image).grant host' m entry =
      ((s.grant host m entry).1, (s.grant host m entry).2.map image) := by
  unfold grant
  rw [letGo_map h]
  cases KernelHandle.of m entry <;> rfl

theorem serveHit_map (m : LoadedModule) (entry : String) (event : Event) :
    (s.map image).serveHit host' m entry event =
      ((s.serveHit host m entry event).1, (s.serveHit host m entry event).2.map image) :=
  grant_map h (((s.mapDepot (·.count fun c => { c with memoryHits := c.memoryHits + 1 })).report
    [event]).hold m.key) m entry

theorem enter_map (f : Fingerprint) (m : LoadedModule) :
    (s.map image).enter host' f m = ((s.enter host f m).1, (s.enter host f m).2.map image) := by
  unfold enter
  rw [show (s.map image).depot = s.depot from rfl]
  cases s.depot.find? f with
  | some present => exact congrArg (Prod.mk present) (letGo_map h (s.hold present.key) m.key)
  | none => rfl

theorem persist_map (f : Fingerprint) (a : Artifact) :
    (s.map image).persist host' f a = (s.persist host f a).map image := by
  unfold persist
  simp only
  rw [show (s.map image).depot = s.depot from rfl,
    file_map h s (ArtifactStore.asksOnly_store s.depot.setup.store f a)]
  generalize s.file host (s.depot.setup.store.store f a) = filed
  obtain ⟨result, s₁⟩ := filed
  rcases result with e | _ | _ <;> rfl

theorem restore_map (f : Fingerprint) :
    (s.map image).restore host' f = ((s.restore host f).1, (s.restore host f).2.map image) := by
  unfold restore
  simp only
  rw [show (s.map image).depot = s.depot from rfl,
    file_map h s (ArtifactStore.asksOnly_load s.depot.setup.store f)]
  generalize s.file host (s.depot.setup.store.load f) = filed
  obtain ⟨found, s₁⟩ := filed
  rcases found with e | _ | a
  · cases e <;> rfl
  · rfl
  · have hload := load_map h (s₁.report (ArtifactStore.loadEvents (.ok (some a)))) f a
    simp only
    rw [show (s₁.map image).report _ = map image (s₁.report _) from rfl, hload]
    generalize load host (s₁.report _) f a = loaded
    obtain ⟨outcome, s₂⟩ := loaded
    cases outcome with
    | ok m => rfl
    | error e =>
      simp only
      split
      · exact congrArg (fun filed => (Except.ok none, filed.2)) (file_map h
          ((s₂.mapDepot (·.count fun c => { c with corruptRecoveries := c.corruptRecoveries + 1 }))
            |>.report [.artifactRejected])
          (ArtifactStore.asksOnly_remove s.depot.setup.store f))
      · rfl

theorem compile_map (p : PreparedRequest) :
    (s.map image).compile host' p = ((s.compile host p).1, (s.compile host p).2.map image) := by
  unfold compile
  simp only [map, World.map, h.compile, h.disk]
  rfl

theorem prepare_map (path : SearchPath) (request : Request) :
    (s.map image).prepare host' path request =
      ((s.prepare host path request).1, (s.prepare host path request).2.map image) := by
  unfold prepare
  simp only [map, World.map, h.disk]
  rfl

end Site

namespace Call

theorem work_map (order : KeyedRequest) (s : Site σ) (slot : Nat) (task : Task) :
    work host' order (s.map image) slot task =
      ((work host order s slot task).1, (work host order s slot task).2.map image) := by
  cases task with
  | lock => rfl
  | recheck =>
    unfold work
    simp only [show (s.map image).depot = s.depot from rfl]
    cases s.depot.arena.failure? slot with
    | some failure => rfl
    | none =>
      cases s.depot.find? order.fingerprint with
      | some m => simp only [Site.serveHit_map h]
      | none => rfl
  | restore =>
    unfold work
    simp only [Site.restore_map h]
    generalize s.restore host order.fingerprint = restored
    obtain ⟨outcome, s₁⟩ := restored
    rcases outcome with e | _ | m <;> rfl
  | compile =>
    unfold work
    simp only [Site.compile_map h]
    generalize s.compile host order.toPreparedRequest = compiled
    obtain ⟨outcome, s₁⟩ := compiled
    cases outcome with
    | error e => cases e <;> rfl
    | ok result =>
      simp only
      split <;> rfl
  | store a => exact congrArg (Prod.mk _) (Site.persist_map h s order.fingerprint a)
  | load a shared =>
    unfold work
    simp only [Site.load_map h]
    generalize s.load host order.fingerprint a = loaded
    obtain ⟨outcome, s₁⟩ := loaded
    cases outcome with
    | error e => rfl
    | ok m =>
      cases shared with
      | true => rfl
      | false => simp only [Site.grant_map h]; rfl
  | insert m =>
    unfold work
    simp only [Site.enter_map h, Site.grant_map h]
  | unlock outcome => rfl
  | leave outcome => rfl

theorem act_map (order : KeyedRequest) (s : Site σ) (stage : Stage) :
    act host' order (s.map image) stage =
      ((act host order s stage).1, (act host order s stage).2.map image) := by
  cases stage with
  | lookup =>
    unfold act
    simp only [show (s.map image).depot = s.depot from rfl]
    cases s.depot.find? order.fingerprint with
    | some m => simp only [Site.serveHit_map h]
    | none => rfl
  | join => rfl
  | holding slot task => exact work_map h order s slot task
  | finished outcome => rfl

theorem complete_map (order : KeyedRequest) (s : Site σ) (stage : Stage) :
    complete host' order (s.map image) stage =
      ((complete host order s stage).1, (complete host order s stage).2.map image) := by
  have hstep (s : Site σ) (stage : Stage) (s' : Site τ) (stage' : Stage) (_ : stage.rank ≠ 0)
      (hsame : s' = s.map image ∧ stage' = stage) :
      (act host' order s' stage').2 = (act host order s stage).2.map image ∧
        (act host' order s' stage').1 = (act host order s stage).1 := by
    obtain ⟨rfl, rfl⟩ := hsame
    rw [act_map h]
    exact ⟨rfl, rfl⟩
  obtain ⟨hsite, hstage⟩ := complete_induction₂
    (R := fun s stage s' stage' => s' = s.map image ∧ stage' = stage)
    (fun _ _ _ _ hsame => congrArg Stage.rank hsame.2) hstep
    (⟨rfl, rfl⟩ : s.map image = s.map image ∧ stage = stage)
  exact Prod.ext (Stage.finished.inj hstage) hsite

end Call

/-- A call does the same in both surroundings. -/
theorem Site.getKernel_map (s : Site σ) (path : SearchPath) (request : Request) :
    (s.map image).getKernel host' path request =
      ((s.getKernel host path request).1, (s.getKernel host path request).2.map image) := by
  unfold getKernel
  rw [prepare_map h]
  generalize s.prepare host path request = prepared
  obtain ⟨outcome, s₁⟩ := prepared
  cases outcome with
  | error e => rfl
  | ok order => exact Call.complete_map h order s₁ .lookup

theorem Site.results_getKernel_map {s : Site σ} {s' : Site τ} (hs : s.map image = s')
    (path : SearchPath) (request : Request) :
    (s'.getKernel host' path request).1 = (s.getKernel host path request).1 ∧
      (s'.getKernel host' path request).2.depot = (s.getKernel host path request).2.depot := by
  rw [← hs, getKernel_map h]
  exact ⟨rfl, rfl⟩

end KernelDepot
