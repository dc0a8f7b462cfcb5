/-
What a call does to the balance of modules.

On its way a call has a hold on at most one module, the one that it is going to enter or the one
of the handle that it is going to end with.  `Keeping` says that this module, those of the index
and those of everybody else are the modules on the devices, and every step of a call keeps it.
-/
import KernelDepot.Proofs.Depot.Alone
import KernelDepot.Proofs.Depot.Balance

namespace KernelDepot

open SimulatedDriver

/-- Whether the function of a handle is one of its module. -/
def KernelHandle.IsGenuine (h : KernelHandle) : Prop :=
  ∃ entry, h.loaded.function? entry = some h.function

theorem KernelHandle.of_eq_ok {m : LoadedModule} {entry : String} {h : KernelHandle}
    (hof : KernelHandle.of m entry = .ok h) : h.loaded = m ∧ h.IsGenuine := by
  unfold KernelHandle.of at hof
  cases hf : m.function? entry with
  | none => simp only [hf] at hof; exact nomatch hof
  | some f =>
    simp only [hf] at hof
    rw [← Except.ok.inj hof]
    exact ⟨rfl, entry, hf⟩

namespace Stage

/-- The handle that a call is going to end with. -/
def handle? : Stage → Option KernelHandle
  | holding _ (.unlock outcome) | holding _ (.leave outcome) | finished outcome =>
    outcome.toOption
  | _ => none

/-- The module on which a call has a hold of its own. -/
def owned : Stage → List LoadedModule
  | holding _ (.insert m) => [m]
  | stage => stage.handle?.toList.map KernelHandle.loaded

end Stage

theorem Depot.modules_of_index {d d' : Depot} (h : d'.index = d.index) : d'.modules = d.modules :=
  congrArg (List.map Prod.snd) h

theorem Depot.mem_index_of_find? {d : Depot} {f : Fingerprint} {m : LoadedModule}
    (h : d.find? f = some m) : (f, m) ∈ d.index := by
  obtain ⟨front, back, hentries, -⟩ := List.lookup_eq_some_iff.mp h
  rw [hentries]
  exact List.mem_append_right _ List.mem_cons_self

namespace Site

variable {σ : Type} {p : Facility σ} {driver : Nat → σ → SimulatedDriver} {used : Nat → Prop}
  {setup : Setup} {s : Site σ} {m : LoadedModule} {owned : List LoadedModule}

open World

theorem balanced_enter (hp : p.Simulates driver) {rest : List LoadedModule}
    (h : Balanced driver used (m :: (s.depot.modules ++ rest)) s.world)
    (hm : m.key.device = setup.deviceId)
    (hindex : ∀ e ∈ s.depot.index, e.2.key.device = setup.deviceId) (f : Fingerprint) :
    let entered := s.enter (p.host setup) f m
    Balanced driver used (entered.1 :: (entered.2.depot.modules ++ rest)) entered.2.world ∧
      entered.1.key.device = setup.deviceId ∧
      ∀ e ∈ entered.2.depot.index, e.2.key.device = setup.deviceId := by
  unfold enter
  cases hf : s.depot.find? f with
  | some present =>
    have hpresent := Depot.mem_index_of_find? hf
    have hmem : present ∈ m :: (s.depot.modules ++ rest) :=
      .tail _ (List.mem_append_left _ (List.mem_map_of_mem (f := Prod.snd) hpresent))
    refine ⟨?_, hindex _ hpresent, hindex⟩
    show Balanced driver used _ ((s.world.hold present.key).letGo (p.device setup.deviceId) m.key)
    rw [← hm]
    exact ((h.hold hmem).perm (List.Perm.swap _ _ _)).letGo hp
  | none =>
    refine ⟨?_, hm, fun e he => ?_⟩
    · refine (h.hold List.mem_cons_self).perm (.cons m ?_)
      show (m :: (s.depot.modules ++ rest)).Perm
        ((s.depot.index ++ [(f, m)]).map Prod.snd ++ rest)
      rw [List.map_append, List.append_assoc]
      exact List.perm_middle.symm
    · rcases List.mem_append.mp he with he | he
      · exact hindex e he
      · rw [List.mem_singleton.mp he]
        exact hm

variable (setup) in
theorem rests_compile (hp : p.Simulates driver) (order : PreparedRequest) :
    Rests driver s.world (s.compile (p.host setup) order).2.world :=
  ⟨rfl, fun id => by
    rw [show driver id (s.compile (p.host setup) order).2.world.outside = _ from
      hp.compile setup order.job s.world.outside id]
    exact .refl _⟩

theorem rests_report (s : Site σ) (events : List Event) :
    Rests driver s.world (s.report events).world :=
  ⟨rfl, fun _ => .refl _⟩

variable (setup) in
theorem rests_file {α : Type} (hp : p.Simulates driver) (s : Site σ) (work : Filing α) :
    Rests driver s.world (s.file (p.host setup) work).2.world :=
  World.rests_file hp setup work s.world

theorem rests_persist (hp : p.Simulates driver) (f : Fingerprint) (a : Artifact) :
    Rests driver s.world (s.persist (p.host setup) f a).world := by
  have hfile := rests_file setup hp s (s.depot.setup.store.store f a)
  unfold persist
  simp only
  split <;> exact ⟨hfile.holds, hfile.keeps⟩

theorem load_cases (hp : p.Simulates driver) (hsetup : s.depot.setup = setup)
    (hw : (driver setup.deviceId s.world.outside).IsWilling)
    (hd : ∀ id, (driver id s.world.outside).IsSound) (f : Fingerprint) (a : Artifact) :
    match (s.load (p.host setup) f a).1 with
    | .error _ => Rests driver s.world (s.load (p.host setup) f a).2.world
    | .ok m => m.key.device = setup.deviceId ∧
      Gets driver s.world (s.load (p.host setup) f a).2.world m := by
  have hload := World.load_cases hp s.world hw (hd setup.deviceId) setup.device f a
  unfold load
  rw [hsetup]
  simp only
  generalize hresult : s.world.load (p.device setup.deviceId) setup.deviceId setup.device f a =
    result at hload
  rw [show s.world.load (p.host setup).device setup.deviceId setup.device f a = _ from hresult]
  obtain ⟨outcome, w⟩ := result
  cases outcome <;> exact hload

theorem restore_cases (hp : p.Simulates driver) (hsetup : s.depot.setup = setup)
    (hw : (driver setup.deviceId s.world.outside).IsWilling)
    (hd : ∀ id, (driver id s.world.outside).IsSound) (f : Fingerprint) :
    match (s.restore (p.host setup) f).1 with
    | .ok (some m) => m.key.device = setup.deviceId ∧
      Gets driver s.world (s.restore (p.host setup) f).2.world m
    | _ => Rests driver s.world (s.restore (p.host setup) f).2.world := by
  have hfile := rests_file setup hp s (s.depot.setup.store.load f)
  have hdepot : (s.file (p.host setup) (s.depot.setup.store.load f)).2.depot = s.depot := rfl
  unfold restore
  simp only
  generalize s.file (p.host setup) (s.depot.setup.store.load f) = result at hfile hdepot ⊢
  obtain ⟨found, s₁⟩ := result
  have hreport : Rests driver s.world (s₁.report (ArtifactStore.loadEvents found)).world :=
    hfile.trans (rests_report s₁ _)
  cases found with
  | error failure =>
    cases failure <;> exact hreport.trans ⟨rfl, fun _ => .refl _⟩
  | ok found =>
    cases found with
    | none => exact hreport
    | some a =>
      simp only
      have hload := load_cases (s := s₁.report (ArtifactStore.loadEvents (.ok (some a)))) hp
        (hdepot ▸ hsetup) ((hreport.keeps _).isWilling hw)
        (fun id => (hreport.keeps id).isSound (hd id)) f a
      generalize (s₁.report (ArtifactStore.loadEvents (.ok (some a)))).load (p.host setup) f a =
        loaded at hload ⊢
      obtain ⟨outcome, s₂⟩ := loaded
      cases outcome with
      | ok m => exact ⟨hload.1, (hreport.gets hload.2).rests (rests_report s₂ _)⟩
      | error e =>
        simp only
        by_cases hfault : e.isArtifactFault = true
        · rw [if_pos hfault]
          exact (hreport.trans hload).trans
            ((rests_report (s₂.mapDepot _) [.artifactRejected]).trans (rests_file setup hp _ _))
        · rw [if_neg hfault]
          exact hreport.trans hload

end Site

namespace Call

open World

variable {σ : Type} {p : Facility σ} {driver : Nat → σ → SimulatedDriver} {used : Nat → Prop}
  {setup : Setup} {rest : List LoadedModule} {s s' : Site σ} {stage : Stage}

/-- What is known of the modules while a call is on its way.  `rest` are those that others
own. -/
structure Keeping (driver : Nat → σ → SimulatedDriver) (used : Nat → Prop) (setup : Setup)
    (rest : List LoadedModule) (s : Site σ) (stage : Stage) : Prop where
  setup_eq : s.depot.setup = setup
  device : used setup.deviceId
  index : ∀ e ∈ s.depot.index, e.2.key.device = setup.deviceId
  owned : ∀ m ∈ stage.owned, m.key.device = setup.deviceId
  genuine : ∀ handle, stage.handle? = some handle → handle.IsGenuine
  balanced : Balanced driver used (stage.owned ++ (s.depot.modules ++ rest)) s.world

/-- A call that has done nothing with modules owns what it owned before. -/
theorem Keeping.of_rests (h : Keeping driver used setup rest s stage) {stage' : Stage}
    (hsetup : s'.depot.setup = s.depot.setup) (hindex : s'.depot.index = s.depot.index)
    (hrests : Rests driver s.world s'.world) (howned : stage'.owned = stage.owned)
    (hhandle : stage'.handle? = stage.handle?) : Keeping driver used setup rest s' stage' where
  setup_eq := hsetup.trans h.setup_eq
  device := h.device
  index := hindex ▸ h.index
  owned := howned ▸ h.owned
  genuine := hhandle ▸ h.genuine
  balanced := by
    rw [howned, Depot.modules_of_index hindex]
    exact h.balanced.rests hrests

/-- Making a handle from a module on which the call has a hold. -/
theorem Keeping.of_grant (hp : p.Simulates driver) {m : LoadedModule}
    (hsetup : s.depot.setup = setup) (hdevice : used setup.deviceId)
    (hindex : ∀ e ∈ s.depot.index, e.2.key.device = setup.deviceId)
    (hm : m.key.device = setup.deviceId)
    (h : Balanced driver used (m :: (s.depot.modules ++ rest)) s.world) (entry : String)
    (n : Nat) : Keeping driver used setup rest (s.grant (p.host setup) m entry).2
      (.holding n (.unlock (s.grant (p.host setup) m entry).1)) := by
  unfold Site.grant
  cases hof : KernelHandle.of m entry with
  | ok handle =>
    obtain ⟨hloaded, hgenuine⟩ := KernelHandle.of_eq_ok hof
    refine ⟨hsetup, hdevice, hindex, fun m' hm' => ?_, fun handle' hh => ?_, ?_⟩
    · rw [List.mem_singleton.mp hm', hloaded]
      exact hm
    · rw [← Option.some.inj hh]
      exact hgenuine
    · show Balanced driver used (handle.loaded :: (s.depot.modules ++ rest)) s.world
      rw [hloaded]
      exact h
  | error e =>
    refine ⟨hsetup, hdevice, hindex, nofun, nofun, ?_⟩
    show Balanced driver used _ (s.world.letGo (p.device setup.deviceId) m.key)
    rw [← hm]
    exact h.letGo hp

/-- Serving a call from the index. -/
theorem Keeping.serveHit (hp : p.Simulates driver) (h : Keeping driver used setup rest s stage)
    (hstage : stage.owned = []) {f : Fingerprint} {m : LoadedModule}
    (hm : s.depot.find? f = some m) (entry : String) (event : Event) (n : Nat) :
    Keeping driver used setup rest (s.serveHit (p.host setup) m entry event).2
      (.holding n (.unlock (s.serveHit (p.host setup) m entry event).1)) := by
  have hmem := Depot.mem_index_of_find? hm
  have hbalanced := h.balanced
  rw [hstage] at hbalanced
  have howned : m ∈ s.depot.modules ++ rest :=
    List.mem_append_left _ (List.mem_map_of_mem (f := Prod.snd) hmem)
  have hheld := (hbalanced.rests (Site.rests_report s [event])).hold howned
  refine .of_grant (s := .hold _ m.key) hp ?_ h.device ?_ (h.index _ hmem) ?_ entry n
  · exact h.setup_eq
  · exact h.index
  · exact hheld

/-- A call that has got hold of a module. -/
theorem Keeping.of_gets (h : Keeping driver used setup rest s stage) (hstage : stage.owned = [])
    {m : LoadedModule} (hindex : s'.depot.index = s.depot.index)
    (hm : m.key.device = setup.deviceId) (hgets : Gets driver s.world s'.world m) :
    Balanced driver used (m :: (s'.depot.modules ++ rest)) s'.world := by
  have hbalanced := h.balanced
  rw [hstage] at hbalanced
  rw [Depot.modules_of_index hindex]
  exact hbalanced.gets hgets (hm ▸ h.device)

theorem keeping_work (hp : p.Simulates driver) (order : KeyedRequest) (n : Nat) (task : Task)
    (h : Keeping driver used setup rest s (.holding n task)) :
    Keeping driver used setup rest (work (p.host setup) order s n task).2
      (work (p.host setup) order s n task).1 := by
  have hsound := h.balanced.sound
  have hwilling := h.balanced.willing _ h.device
  have hrecounted : s.depot.Recounted (s.restore (p.host setup) order.fingerprint).2.depot :=
    Site.recounted_restore _
  have hsetup := hrecounted.setup_eq
  have hindex := hrecounted.sameBooks.index
  have hrestore := Site.restore_cases hp h.setup_eq hwilling hsound order.fingerprint
  have hload := Site.load_cases hp h.setup_eq hwilling hsound order.fingerprint
  have hcompile : Rests driver s.world (s.compile (p.host setup) order.toPreparedRequest).2.world :=
    Site.rests_compile setup hp _
  have hworks := works_work (p.host setup) order s n task
  generalize work (p.host setup) order s n task = worked at hworks ⊢
  obtain ⟨after, s'⟩ := worked
  cases hworks with
  | lock => exact h.of_rests rfl rfl (.refl _) rfl rfl
  | refuse failure hfailure => exact h.of_rests rfl rfl (.refl _) rfl rfl
  | find m hfailure hm =>
    rw [← serveHit_outcome]
    exact h.serveHit hp rfl hm _ _ n
  | search hfailure hm => exact h.of_rests rfl rfl (.refl _) rfl rfl
  | restoreFailed e hr =>
    rw [hr] at hrestore
    exact h.of_rests hsetup hindex hrestore rfl rfl
  | restored m hr =>
    rw [hr] at hrestore
    obtain ⟨hdevice, hgets⟩ := hrestore
    refine ⟨hsetup.trans h.setup_eq, h.device, hindex ▸ h.index, fun m' hm' => ?_, nofun,
      h.of_gets rfl hindex hdevice hgets⟩
    rw [List.mem_singleton.mp hm']
    exact hdevice
  | missed hr =>
    rw [hr] at hrestore
    exact h.of_rests hsetup hindex (hrestore.trans (Site.rests_report _ [.miss])) rfl rfl
  | compileRefused failure hc => exact h.of_rests rfl rfl hcompile rfl rfl
  | compileFailed e hc hne => exact h.of_rests rfl rfl hcompile rfl rfl
  | compiled result hc hextra => exact h.of_rests rfl rfl hcompile rfl rfl
  | compiledOnce result hc hextra =>
    exact h.of_rests rfl rfl (hcompile.trans (Site.rests_report _ [.notCacheable])) rfl rfl
  | store a =>
    have hpersist : s.depot.Recounted (s.persist (p.host setup) order.fingerprint a).depot :=
      Site.recounted_persist _ _
    exact h.of_rests hpersist.setup_eq hpersist.sameBooks.index (Site.rests_persist hp _ _) rfl rfl
  | loadFailed a shared e hl =>
    have hloaded := hload a
    rw [hl] at hloaded
    exact h.of_rests rfl rfl hloaded rfl rfl
  | loaded a m hl =>
    have hloaded := hload a
    rw [hl] at hloaded
    refine ⟨h.setup_eq, h.device, h.index, fun m' hm' => ?_, nofun,
      h.of_gets rfl rfl hloaded.1 hloaded.2⟩
    rw [List.mem_singleton.mp hm']
    exact hloaded.1
  | loadedOnce a m hl =>
    have hloaded := hload a
    rw [hl] at hloaded
    rw [← Site.grant_fst]
    have hbalanced := h.of_gets rfl (by rfl) hloaded.1 hloaded.2
    refine .of_grant hp ?_ h.device ?_ hloaded.1 hbalanced _ n
    · exact h.setup_eq
    · exact h.index
  | insert m =>
    obtain ⟨hbalanced, hdevice, hindex⟩ := Site.balanced_enter hp h.balanced
      (h.owned m List.mem_cons_self) h.index order.fingerprint
    have hsetup : (s.enter (p.host setup) order.fingerprint m).2.depot.setup = s.depot.setup := by
      rw [Site.enter_depot]
      split <;> rfl
    rw [← Site.grant_fst]
    exact .of_grant hp (hsetup.trans h.setup_eq) h.device hindex hdevice hbalanced _ n
  | unlock outcome => exact h.of_rests rfl rfl (.refl _) rfl rfl
  | leave outcome => exact h.of_rests rfl rfl (.refl _) rfl rfl

/-- Every step of a call keeps the modules on the devices those that somebody refers to. -/
theorem keeping_act (hp : p.Simulates driver) (order : KeyedRequest)
    (h : Keeping driver used setup rest s stage) :
    Keeping driver used setup rest (act (p.host setup) order s stage).2
      (act (p.host setup) order s stage).1 := by
  cases stage with
  | lookup =>
    unfold act
    cases hm : s.depot.find? order.fingerprint with
    | some m => exact (h.serveHit hp rfl hm _ _ 0).of_rests rfl rfl (.refl _) rfl rfl
    | none => exact h.of_rests rfl rfl (.refl _) rfl rfl
  | join => exact h.of_rests rfl rfl (.refl _) rfl rfl
  | holding n task => exact keeping_work hp order n task h
  | finished outcome => exact h

end Call

namespace Site

open World

variable {σ : Type} {p : Facility σ} {driver : Nat → σ → SimulatedDriver} {used : Nat → Prop}
  {setup : Setup} {s : Site σ} {rest : List LoadedModule}

theorem balanced_letGoAll (hp : p.Simulates driver) {released : List LoadedModule}
    (hreleased : ∀ m ∈ released, m.key.device = setup.deviceId)
    (h : Balanced driver used (released ++ rest) s.world) :
    Balanced driver used rest (s.letGoAll (p.host setup) (released.map (·.key))).world := by
  induction released generalizing s with
  | nil => exact h
  | cons m released ih =>
    refine ih (s := s.letGo (p.host setup) m.key) (fun m' hm' => hreleased m' (.tail _ hm')) ?_
    show Balanced driver used _ (s.world.letGo (p.device setup.deviceId) m.key)
    rw [← hreleased m List.mem_cons_self]
    exact h.letGo hp

theorem balanced_release (hp : p.Simulates driver)
    (hindex : ∀ e ∈ s.depot.index, e.2.key.device = setup.deviceId)
    (h : Balanced driver used (s.depot.modules ++ rest) s.world) :
    Balanced driver used rest (s.release (p.host setup)).2.world := by
  have hreleased : ∀ m ∈ s.depot.modules, m.key.device = setup.deviceId := by
    intro m hm
    obtain ⟨e, he, rfl⟩ := List.mem_map.mp hm
    exact hindex e he
  unfold release
  simp only
  rw [show s.depot.index.map (fun e => e.2.key) = s.depot.modules.map (·.key) from
    (List.map_map ..).symm]
  refine balanced_letGoAll hp hreleased (h.rests ?_)
  split <;> exact ⟨rfl, fun _ => .refl _⟩

theorem keeping_getKernel (hp : p.Simulates driver) (hsetup : s.depot.setup = setup)
    (hdevice : used setup.deviceId)
    (hindex : ∀ e ∈ s.depot.index, e.2.key.device = setup.deviceId)
    (h : Balanced driver used (s.depot.modules ++ rest) s.world) (path : SearchPath)
    (request : Request) :
    Call.Keeping driver used setup rest (s.getKernel (p.host setup) path request).2
      (.finished (s.getKernel (p.host setup) path request).1) := by
  have hstart :
      Call.Keeping driver used setup rest (s.prepare (p.host setup) path request).2 .lookup :=
    ⟨hsetup, hdevice, hindex, nofun, nofun, h.rests (rests_report s _)⟩
  unfold getKernel
  generalize s.prepare (p.host setup) path request = prepared at hstart ⊢
  obtain ⟨outcome, s₁⟩ := prepared
  cases outcome with
  | error e => exact hstart.of_rests rfl rfl (.refl _) rfl rfl
  | ok order =>
    exact Call.complete_induction (fun s stage _ => Call.keeping_act hp order) hstart

end Site

end KernelDepot
