/-
The balance of holds, owners and modules on the devices.

A module is on a device for as long as somebody holds it.  `Balanced` says so of the holds on
modules, of the modules on the devices and of a list of those who own them, and loading,
holding and letting go keep it.
-/
import KernelDepot.Depot.Custody
import KernelDepot.Proofs.Depot.Surroundings
import KernelDepot.Proofs.Device.Resident

namespace KernelDepot

open SimulatedDriver

/-- Simulated drivers as the devices of a facility.  The calls to one of them are no concern
of the others, and files and toolchains have to do with none. -/
structure Facility.Simulates {σ : Type} (p : Facility σ) (driver : Nat → σ → SimulatedDriver) :
    Prop where
  reply : ∀ id call x, (p.device id call x).1 = (answer call (driver id x)).1
  own : ∀ id call x, driver id (p.device id call x).2 = (answer call (driver id x)).2
  others : ∀ id other call x, other ≠ id → driver other (p.device id call x).2 = driver other x
  files : ∀ setup op x id, driver id (p.files setup op x).2 = driver id x
  compile : ∀ setup job x id, driver id (p.compile setup job x).2 = driver id x

namespace Facility.Simulates

variable {σ α : Type} {p : Facility σ} {driver : Nat → σ → SimulatedDriver}

theorem run (hp : p.Simulates driver) (id : Nat) (work : Driving α) (x : σ) :
    (work.run (p.device id) x).1 = (work.run answer (driver id x)).1 ∧
      driver id (work.run (p.device id) x).2 = (work.run answer (driver id x)).2 := by
  have hcomm (call : DriverCall) (x : σ) : answer call (driver id x) =
      ((p.device id call x).1, driver id (p.device id call x).2) :=
    Prod.ext (hp.reply id call x).symm (hp.own id call x).symm
  rw [Program.run_comm hcomm work x]
  exact ⟨rfl, rfl⟩

theorem run_others (hp : p.Simulates driver) {id other : Nat} (h : other ≠ id)
    (work : Driving α) (x : σ) : driver other (work.run (p.device id) x).2 = driver other x := by
  have hview (call : DriverCall) (x : σ) : driver other (p.device id call x).2 = driver other x :=
    hp.others id other call x h
  exact Program.view_run hview work x

end Facility.Simulates

/-! ## The drivers of a simulated machine -/

namespace Machine

/-- A driver without a context refuses every call and holds no module. -/
def absent : SimulatedDriver where
  refusals := [.bind, .load, .getFunction, .getGlobal, .occupancy, .unload, .copy, .launch].map
    fun kind => (kind, lostContext)

def driver (id : Nat) (m : Machine) : SimulatedDriver := m.drivers[id]?.getD absent

theorem answer_absent (call : DriverCall) : answer call absent = (.error lostContext, absent) := by
  cases call <;> rfl

theorem drivers_files (dir : String) (op : FileOp) (m : Machine) :
    (files dir op m).2.drivers = m.drivers := by
  have hchanged (result : Except FileFault Disk) : (m.changed result).2.drivers = m.drivers := by
    cases result <;> rfl
  cases op with
  | write | rename | delete => exact hchanged _
  | _ => rfl

theorem simulates_facility (toolchain : ToolchainIdentity → Toolchain) :
    (facility toolchain).Simulates driver where
  reply id call m := by
    show (device id call m).1 = _
    unfold device driver
    cases m.drivers[id]? with
    | none => rw [Option.getD_none, answer_absent]
    | some d => rfl
  own id call m := by
    show driver id (device id call m).2 = _
    unfold device driver
    cases hd : m.drivers[id]? with
    | none =>
      rw [Option.getD_none, answer_absent]
      exact congrArg (Option.getD · absent) hd
    | some d =>
      have hid : id < m.drivers.length := (List.getElem?_eq_some_iff.mp hd).1
      show (m.drivers.set id _)[id]?.getD absent = _
      rw [List.getElem?_set_self hid]
      rfl
  others id other call m hother := by
    show driver other (device id call m).2 = driver other m
    unfold device driver
    cases m.drivers[id]? with
    | none => rfl
    | some d =>
      show (m.drivers.set id _)[other]?.getD absent = _
      rw [List.getElem?_set_ne hother.symm]
  files setup op m id := by
    show driver id (files setup.store.dir op m).2 = driver id m
    unfold driver
    rw [drivers_files]
  compile _ _ _ _ := rfl

end Machine

namespace World

variable {σ : Type} (driver : Nat → σ → SimulatedDriver)

/-- Whether one world comes after another with no module loaded, unloaded, held or let go. -/
structure Rests (w w' : World σ) : Prop where
  holds : w'.holds = w.holds
  keeps : ∀ id, Keeps (driver id w.outside) (driver id w'.outside)

/-- Whether one world comes after another with one module loaded in between. -/
structure Gets (w w' : World σ) (m : LoadedModule) : Prop where
  holds : w'.holds = m.key :: w.holds
  gains : ∃ symbols, Gains (driver m.key.device w.outside) (driver m.key.device w'.outside)
    m.key.handle symbols ∧ m.IsMadeOf symbols
  others : ∀ id, id ≠ m.key.device → Keeps (driver id w.outside) (driver id w'.outside)

/-- Whether one world comes after another with one hold less, which was the last one of its
module, so that the module was unloaded. -/
structure Sheds (w w' : World σ) (key : ModuleKey) : Prop where
  holds : w'.holds = w.holds.erase key
  loses : Loses (driver key.device w.outside) (driver key.device w'.outside) key.handle
  others : ∀ id, id ≠ key.device → Keeps (driver id w.outside) (driver id w'.outside)

/-- Whether the modules on the devices, those that are held and those that somebody owns are
the same, with a hold for each time that a module is owned.  The devices that are used for
modules have to be willing. -/
structure Balanced (used : Nat → Prop) (owned : List LoadedModule) (w : World σ) : Prop where
  holds : w.holds.Perm (owned.map (·.key))
  sound : ∀ id, (driver id w.outside).IsSound
  willing : ∀ id, used id → (driver id w.outside).IsWilling
  used : ∀ m ∈ owned, used m.key.device
  owner : ∀ id, ∀ n ∈ (driver id w.outside).table, ⟨id, n⟩ ∈ owned.map (·.key)
  resident : ∀ m ∈ owned, m.IsOn (driver m.key.device w.outside)

variable {driver} {used : Nat → Prop} {w w' w'' : World σ} {m : LoadedModule}
  {owned owned' : List LoadedModule}

theorem Rests.refl (w : World σ) : Rests driver w w := ⟨rfl, fun _ => .refl _⟩

theorem Rests.trans (h : Rests driver w w') (h' : Rests driver w' w'') : Rests driver w w'' :=
  ⟨h'.holds.trans h.holds, fun id => (h.keeps id).trans (h'.keeps id)⟩

theorem Rests.gets (h : Rests driver w w') (h' : Gets driver w' w'' m) : Gets driver w w'' m where
  holds := h'.holds.trans (congrArg _ h.holds)
  gains := by
    obtain ⟨symbols, hgains, hmade⟩ := h'.gains
    exact ⟨symbols, (h.keeps _).trans_gains hgains, hmade⟩
  others id hid := (h.keeps id).trans (h'.others id hid)

theorem Gets.rests (h : Gets driver w w' m) (h' : Rests driver w' w'') : Gets driver w w'' m where
  holds := h'.holds.trans h.holds
  gains := by
    obtain ⟨symbols, hgains, hmade⟩ := h.gains
    exact ⟨symbols, hgains.trans (h'.keeps _), hmade⟩
  others id hid := (h.others id hid).trans (h'.keeps id)

namespace Balanced

theorem perm (h : Balanced driver used owned w) (hperm : owned.Perm owned') :
    Balanced driver used owned' w where
  holds := h.holds.trans (hperm.map _)
  sound := h.sound
  willing := h.willing
  used m hm := h.used m (hperm.mem_iff.mpr hm)
  owner id n hn := (hperm.map _).mem_iff.mp (h.owner id n hn)
  resident m hm := h.resident m (hperm.mem_iff.mpr hm)

theorem rests (h : Balanced driver used owned w) (hr : Rests driver w w') :
    Balanced driver used owned w' where
  holds := hr.holds ▸ h.holds
  sound id := (hr.keeps id).isSound (h.sound id)
  willing id hid := (hr.keeps id).isWilling (h.willing id hid)
  used := h.used
  owner id n hn := by
    unfold SimulatedDriver.table at hn
    rw [(hr.keeps id).modules] at hn
    exact h.owner id n hn
  resident m hm := (h.resident m hm).of_keeps (hr.keeps _)

theorem hold (h : Balanced driver used owned w) (hm : m ∈ owned) :
    Balanced driver used (m :: owned) (w.hold m.key) where
  holds := h.holds.cons m.key
  sound := h.sound
  willing := h.willing
  used m' hm' := by
    rcases List.mem_cons.mp hm' with rfl | hm'
    · exact h.used _ hm
    · exact h.used _ hm'
  owner id n hn := List.mem_cons_of_mem _ (h.owner id n hn)
  resident m' hm' := by
    rcases List.mem_cons.mp hm' with rfl | hm'
    · exact h.resident _ hm
    · exact h.resident _ hm'

theorem gets (h : Balanced driver used owned w) (hg : Gets driver w w' m)
    (hm : used m.key.device) : Balanced driver used (m :: owned) w' where
  holds := hg.holds ▸ h.holds.cons m.key
  sound id := by
    obtain ⟨symbols, hgains, -⟩ := hg.gains
    by_cases hid : id = m.key.device
    · rw [hid]
      exact hgains.isSound (h.sound _)
    · exact (hg.others id hid).isSound (h.sound id)
  willing id hused := by
    obtain ⟨symbols, hgains, -⟩ := hg.gains
    by_cases hid : id = m.key.device
    · rw [hid]
      exact hgains.isWilling (h.willing _ hm)
    · exact (hg.others id hid).isWilling (h.willing id hused)
  used m' hm' := by
    rcases List.mem_cons.mp hm' with rfl | hm'
    · exact hm
    · exact h.used m' hm'
  owner id n hn := by
    obtain ⟨symbols, hgains, -⟩ := hg.gains
    by_cases hid : id = m.key.device
    · rw [hid, hgains.table_eq] at hn
      rcases List.mem_append.mp hn with hn | hn
      · exact List.mem_cons_of_mem _ (hid ▸ h.owner _ n hn)
      · rw [hid, List.mem_singleton.mp hn]
        exact List.mem_cons_self
    · unfold SimulatedDriver.table at hn
      rw [(hg.others id hid).modules] at hn
      exact List.mem_cons_of_mem _ (h.owner id n hn)
  resident m' hm' := by
    obtain ⟨symbols, hgains, hmade⟩ := hg.gains
    rcases List.mem_cons.mp hm' with rfl | hm'
    · refine ⟨symbols, ?_, hmade⟩
      rw [hgains.modules]
      exact List.mem_append_right _ List.mem_cons_self
    · by_cases hid : m'.key.device = m.key.device
      · obtain ⟨symbols', hmem, hmade'⟩ := h.resident m' hm'
        rw [hid] at hmem ⊢
        refine ⟨symbols', ?_, hmade'⟩
        rw [hgains.modules]
        exact List.mem_append_left _ hmem
      · exact (h.resident m' hm').of_keeps (hg.others _ hid)

theorem holds_erase (h : Balanced driver used (m :: owned) w) :
    (w.holds.erase m.key).Perm (owned.map (·.key)) := by
  have herase := h.holds.erase m.key
  rwa [List.map_cons, List.erase_cons_head] at herase

/-- Whoever lets go of a module that somebody else holds does nothing to the devices. -/
theorem unhold (h : Balanced driver used (m :: owned) w) (hm : m.key ∈ owned.map (·.key)) :
    Balanced driver used owned { w with holds := w.holds.erase m.key } where
  holds := h.holds_erase
  sound := h.sound
  willing := h.willing
  used m' hm' := h.used m' (.tail _ hm')
  owner id n hn := (List.mem_cons.mp (h.owner id n hn)).elim (fun heq => heq ▸ hm) (fun h => h)
  resident m' hm' := h.resident m' (.tail _ hm')

/-- Whoever lets go of a module as the last one takes it off the device, and only that one. -/
theorem sheds (h : Balanced driver used (m :: owned) w) (hm : m.key ∉ owned.map (·.key))
    (hs : Sheds driver w w' m.key) : Balanced driver used owned w' where
  holds := hs.holds ▸ h.holds_erase
  sound id := by
    by_cases hid : id = m.key.device
    · rw [hid]
      exact hs.loses.isSound (h.sound _)
    · exact (hs.others id hid).isSound (h.sound id)
  willing id hused := by
    by_cases hid : id = m.key.device
    · rw [hid]
      exact hs.loses.isWilling (h.willing _ (h.used m List.mem_cons_self))
    · exact (hs.others id hid).isWilling (h.willing id hused)
  used m' hm' := h.used m' (.tail _ hm')
  owner id n hn := by
    by_cases hid : id = m.key.device
    · rw [hid, hs.loses.table_eq] at hn
      obtain ⟨hn, hne⟩ := List.mem_filter.mp hn
      rcases List.mem_cons.mp (h.owner id n (hid ▸ hn)) with heq | howned
      · exact absurd (congrArg ModuleKey.handle heq) (of_decide_eq_true hne)
      · exact howned
    · unfold SimulatedDriver.table at hn
      rw [(hs.others id hid).modules] at hn
      rcases List.mem_cons.mp (h.owner id n hn) with heq | howned
      · exact absurd (congrArg ModuleKey.device heq) hid
      · exact howned
  resident m' hm' := by
    by_cases hid : m'.key.device = m.key.device
    · obtain ⟨symbols, hmem, hmade⟩ := h.resident m' (.tail _ hm')
      have hne : m'.key.handle ≠ m.key.handle := fun heq => hm (by
        rw [show m.key = m'.key from (congr (congrArg ModuleKey.mk hid) heq).symm]
        exact List.mem_map_of_mem hm')
      refine ⟨symbols, ?_, hmade⟩
      rw [hid] at hmem ⊢
      rw [hs.loses.modules]
      exact List.mem_filter.mpr ⟨hmem, decide_eq_true hne⟩
    · exact (h.resident m' (.tail _ hm')).of_keeps (hs.others _ hid)

theorem letGo {p : Facility σ} (hp : p.Simulates driver) (h : Balanced driver used (m :: owned) w) :
    Balanced driver used owned (w.letGo (p.device m.key.device) m.key) := by
  have hholds := h.holds_erase
  unfold World.letGo
  simp only
  by_cases hheld : m.key ∈ w.holds.erase m.key
  · rw [if_pos hheld]
    exact h.unhold (hholds.mem_iff.mp hheld)
  · rw [if_neg hheld]
    obtain ⟨-, hown⟩ := hp.run m.key.device (LoadedModule.unload m.key.handle) w.outside
    have hwilling := h.willing _ (h.used m List.mem_cons_self)
    have hloses := LoadedModule.run_unload hwilling m.key.handle
    refine h.sheds (fun hmem => hheld (hholds.mem_iff.mpr hmem)) ⟨rfl, hown ▸ hloses, ?_⟩
    intro id hid
    have hothers := hp.run_others hid (LoadedModule.unload m.key.handle) w.outside
    exact hothers.symm ▸ .refl _

end Balanced

variable {p : Facility σ}

theorem rests_file {α : Type} (hp : p.Simulates driver) (setup : Setup) (work : Filing α)
    (w : World σ) : Rests driver w (w.file (p.files setup) work).2 :=
  ⟨rfl, fun id => by
    have hview (op : FileOp) (x : σ) : driver id (p.files setup op x).2 = driver id x :=
      hp.files setup op x id
    rw [show driver id (w.file (p.files setup) work).2.outside = _ from
      Program.view_run hview work w.outside]
    exact .refl _⟩

theorem load_cases (hp : p.Simulates driver) (w : World σ) {id : Nat}
    (hw : (driver id w.outside).IsWilling) (hd : (driver id w.outside).IsSound)
    (info : DeviceInfo) (f : Fingerprint) (a : Artifact) :
    match w.load (p.device id) id info f a with
    | (.error _, w') => Rests driver w w'
    | (.ok m, w') => m.key.device = id ∧ Gets driver w w' m := by
  obtain ⟨hreply, hown⟩ := hp.run id (LoadedModule.load id info f a) w.outside
  have hothers (other : Nat) (hother : other ≠ id) :=
    hp.run_others hother (LoadedModule.load id info f a) w.outside
  have hload := LoadedModule.run_load hw hd id info f a
  unfold World.load World.drive
  simp only
  generalize (LoadedModule.load id info f a).run answer (driver id w.outside) = result
    at hreply hown hload
  obtain ⟨⟨events, outcome⟩, d'⟩ := result
  generalize (LoadedModule.load id info f a).run (p.device id) w.outside = result
    at hreply hown hothers ⊢
  obtain ⟨report, x'⟩ := result
  obtain rfl : report = ⟨events, outcome⟩ := hreply
  have hkeeps (other : Nat) (hother : other ≠ id) :
      Keeps (driver other w.outside) (driver other x') := by
    rw [show driver other x' = _ from hothers other hother]
    exact .refl _
  cases outcome with
  | error e =>
    refine ⟨rfl, fun other => ?_⟩
    by_cases hother : other = id
    · rw [hother]
      exact hown ▸ hload
    · exact hkeeps other hother
  | ok m =>
    obtain ⟨hdevice, hgains⟩ := hload
    refine ⟨hdevice, rfl, ?_, fun other hother => hkeeps other (hdevice ▸ hother)⟩
    rw [hdevice]
    exact hown ▸ hgains

end World

end KernelDepot
