/-
The modules on the devices are the modules that somebody refers to.

A module is on a device for as long as an index or a handle refers to it, whatever the depots of
a custody do and whatever becomes of the handles.
-/
import KernelDepot.Proofs.Depot.Keeping

namespace KernelDepot

open SimulatedDriver

namespace Custody

open World

variable {σ : Type} {p : Facility σ} {driver : Nat → σ → SimulatedDriver} {used : Nat → Prop}
  {c : Custody σ}

/-- What every move keeps. -/
structure Accounts (driver : Nat → σ → SimulatedDriver) (used : Nat → Prop) (c : Custody σ) :
    Prop where
  devices : ∀ d ∈ c.depots, used d.setup.deviceId
  index : ∀ d ∈ c.depots, ∀ e ∈ d.index, e.2.key.device = d.setup.deviceId
  genuine : ∀ h ∈ c.handles, h.IsGenuine
  balanced : Balanced driver used c.referenced c.world

/-- The modules that all depots but one and all handles refer to. -/
def others (c : Custody σ) (i : Nat) : List LoadedModule :=
  (c.depots.eraseIdx i).flatMap Depot.modules ++ c.handles.map KernelHandle.loaded

theorem referenced_perm {d : Depot} {i : Nat} (h : c.depots[i]? = some d) :
    c.referenced.Perm (d.modules ++ c.others i) := by
  obtain ⟨hi, hget⟩ := List.getElem?_eq_some_iff.mp h
  have hperm := (List.getElem_cons_eraseIdx_perm hi).symm.flatMap_right Depot.modules
  rw [hget, List.flatMap_cons] at hperm
  unfold referenced others
  rw [← List.append_assoc]
  exact hperm.append_right _

theorem flatMap_set_perm {d : Depot} {i : Nat} (h : c.depots[i]? = some d) (d' : Depot) :
    ((c.depots.set i d').flatMap Depot.modules).Perm
      (d'.modules ++ (c.depots.eraseIdx i).flatMap Depot.modules) := by
  obtain ⟨hi, -⟩ := List.getElem?_eq_some_iff.mp h
  have hperm := (List.set_perm_cons_eraseIdx hi d').flatMap_right Depot.modules
  rwa [List.flatMap_cons] at hperm

theorem Accounts.devices_set (h : Accounts driver used c) {i : Nat} {d d' : Depot}
    (hd : c.depots[i]? = some d) (hsetup : d'.setup = d.setup) :
    ∀ a ∈ c.depots.set i d', used a.setup.deviceId := by
  intro a ha
  rcases List.mem_or_eq_of_mem_set ha with ha | rfl
  · exact h.devices a ha
  · rw [hsetup]
    exact h.devices d (List.mem_of_getElem? hd)

theorem Accounts.index_set (h : Accounts driver used c) {d d' : Depot} (i : Nat)
    (hsetup : d'.setup = d.setup)
    (hindex : ∀ e ∈ d'.index, e.2.key.device = d.setup.deviceId) :
    ∀ a ∈ c.depots.set i d', ∀ e ∈ a.index, e.2.key.device = a.setup.deviceId := by
  intro a ha
  rcases List.mem_or_eq_of_mem_set ha with ha | rfl
  · exact h.index a ha
  · rw [hsetup]
    exact hindex

theorem Accounts.get (hp : p.Simulates driver) (h : Accounts driver used c) (i : Nat)
    (path : SearchPath) (request : Request) :
    Accounts driver used (c.get p i path request) := by
  unfold Custody.get
  cases hd : c.depots[i]? with
  | none => exact h
  | some d =>
    have hmem : d ∈ c.depots := List.mem_of_getElem? hd
    have hbalanced := h.balanced.perm (referenced_perm hd)
    have hsetup : (⟨d, c.world⟩ : Site σ).depot.setup = d.setup := rfl
    have hget := Site.keeping_getKernel hp hsetup (h.devices d hmem) (h.index d hmem) hbalanced
      path request
    simp only
    generalize Site.getKernel (p.host d.setup) ⟨d, c.world⟩ path request = result at hget ⊢
    obtain ⟨outcome, s⟩ := result
    refine ⟨h.devices_set hd hget.setup_eq, h.index_set i hget.setup_eq hget.index,
      fun handle hhandle => ?_, ?_⟩
    · rcases List.mem_append.mp hhandle with hhandle | hhandle
      · exact h.genuine handle hhandle
      · exact hget.genuine handle (Option.mem_toList.mp hhandle)
    · refine hget.balanced.perm ?_
      show (List.map _ outcome.toOption.toList ++ (s.depot.modules ++ c.others i)).Perm
        ((c.depots.set i s.depot).flatMap Depot.modules ++
          (c.handles ++ outcome.toOption.toList).map KernelHandle.loaded)
      rw [List.map_append]
      refine List.perm_append_comm.trans ?_
      unfold others
      rw [← List.append_assoc, ← List.append_assoc]
      exact (((flatMap_set_perm hd _).append_right _).append_right _).symm

theorem Accounts.balanced_release (hp : p.Simulates driver) (h : Accounts driver used c) {i : Nat}
    {d : Depot} (hd : c.depots[i]? = some d) :
    Balanced driver used (c.others i) (Site.release (p.host d.setup) ⟨d, c.world⟩).2.world := by
  have hbalanced := h.balanced.perm (referenced_perm hd)
  exact Site.balanced_release hp (h.index d (List.mem_of_getElem? hd)) hbalanced

theorem Accounts.release (hp : p.Simulates driver) (h : Accounts driver used c) (i : Nat) :
    Accounts driver used (c.release p i) := by
  unfold Custody.release
  cases hd : c.depots[i]? with
  | none => exact h
  | some d =>
    have hmem : d ∈ c.depots := List.mem_of_getElem? hd
    have hreleased := h.balanced_release hp hd
    have hdepot := @Site.release_depot σ (p.host d.setup) ⟨d, c.world⟩
    simp only
    generalize Site.release (p.host d.setup) ⟨d, c.world⟩ = result at hreleased hdepot ⊢
    obtain ⟨count, s⟩ := result
    have hdepot : s.depot = { d with index := [] } := hdepot
    refine ⟨h.devices_set hd (by rw [hdepot]),
      h.index_set i (by rw [hdepot]) (by rw [hdepot]; exact nofun), h.genuine, hreleased.perm ?_⟩
    have hset := flatMap_set_perm hd s.depot
    rw [show s.depot.modules = [] by rw [hdepot]; rfl, List.nil_append] at hset
    exact (hset.append_right _).symm

theorem Accounts.close (hp : p.Simulates driver) (h : Accounts driver used c) (i : Nat) :
    Accounts driver used (c.close p i) := by
  unfold Custody.close
  cases hd : c.depots[i]? with
  | none => exact h
  | some d =>
    have hmem : d ∈ c.depots := List.mem_of_getElem? hd
    have hreleased := h.balanced_release hp hd
    exact ⟨fun d' hd' => h.devices d' (List.mem_of_mem_eraseIdx hd'),
      fun d' hd' => h.index d' (List.mem_of_mem_eraseIdx hd'), h.genuine,
      hreleased.rests ⟨rfl, fun _ => .refl _⟩⟩

theorem Accounts.share (h : Accounts driver used c) (j : Nat)
    {further : KernelHandle → Option KernelHandle}
    (hfurther : ∀ old new, further old = some new → old.IsGenuine →
      new.loaded = old.loaded ∧ new.IsGenuine) : Accounts driver used (c.share j further) := by
  unfold Custody.share
  cases hj : c.handles[j]?.bind further with
  | none => exact h
  | some new =>
    obtain ⟨old, hold, hnew⟩ := Option.bind_eq_some_iff.mp hj
    have hmem := List.mem_of_getElem? hold
    obtain ⟨hloaded, hgenuine⟩ := hfurther old new hnew (h.genuine old hmem)
    refine ⟨h.devices, h.index, fun handle hhandle => ?_, ?_⟩
    · rcases List.mem_append.mp hhandle with hhandle | hhandle
      · exact h.genuine handle hhandle
      · rw [List.mem_singleton.mp hhandle]
        exact hgenuine
    · have hreferenced : new.loaded ∈ c.referenced :=
        hloaded ▸ List.mem_append_right _ (List.mem_map_of_mem hmem)
      refine (h.balanced.hold hreferenced).perm ?_
      show (new.loaded :: c.referenced).Perm
        (c.depots.flatMap Depot.modules ++ (c.handles ++ [new]).map KernelHandle.loaded)
      rw [List.map_append, ← List.append_assoc]
      exact (List.perm_append_singleton _ _).symm

theorem Accounts.drop (hp : p.Simulates driver) (h : Accounts driver used c) (j : Nat) :
    Accounts driver used (c.drop p j) := by
  unfold Custody.drop
  cases hj : c.handles[j]? with
  | none => exact h
  | some handle =>
    obtain ⟨hlt, hget⟩ := List.getElem?_eq_some_iff.mp hj
    have hperm := (List.getElem_cons_eraseIdx_perm hlt).symm.map KernelHandle.loaded
    rw [hget, List.map_cons] at hperm
    refine ⟨h.devices, h.index,
      fun other hother => h.genuine other (List.mem_of_mem_eraseIdx hother), ?_⟩
    exact (h.balanced.perm ((hperm.append_left _).trans List.perm_middle)).letGo hp

/-- The device of a handle is a willing one. -/
theorem Accounts.willing (h : Accounts driver used c) {handle : KernelHandle}
    (hhandle : handle ∈ c.handles) :
    (driver handle.loaded.key.device c.world.outside).IsWilling :=
  h.balanced.willing _ (h.balanced.used _ (List.mem_append_right _ (List.mem_map_of_mem hhandle)))

theorem Accounts.use {α : Type} (hp : p.Simulates driver) (h : Accounts driver used c) (j : Nat)
    {work : KernelHandle → Driving α}
    (hwork : ∀ handle d, d.IsWilling → Keeps d ((work handle).run answer d).2) :
    Accounts driver used (c.use p j work) := by
  unfold Custody.use
  cases hj : c.handles[j]? with
  | none => exact h
  | some handle =>
    refine ⟨h.devices, h.index, h.genuine, h.balanced.rests ⟨rfl, fun id => ?_⟩⟩
    show Keeps _ (driver id
      ((work handle).run (p.device handle.loaded.key.device) c.world.outside).2)
    by_cases hid : id = handle.loaded.key.device
    · rw [hid, (hp.run _ (work handle) c.world.outside).2]
      exact hwork handle _ (h.willing (List.mem_of_getElem? hj))
    · rw [hp.run_others hid]
      exact .refl _

/-- Whether what happens outside leaves the drivers alone. -/
def Move.Spares (driver : Nat → σ → SimulatedDriver) : Move σ → Prop
  | .outside change => ∀ id x, Keeps (driver id x) (driver id (change x))
  | _ => True

theorem Accounts.next (hp : p.Simulates driver) (h : Accounts driver used c) {move : Move σ}
    (hmove : move.Spares driver) (hadd : ∀ setup, move = .add setup → used setup.deviceId) :
    Accounts driver used (c.next p move) := by
  cases move with
  | add setup =>
    refine ⟨fun d hd => ?_, fun d hd => ?_, h.genuine, ?_⟩
    · rcases List.mem_append.mp hd with hd | hd
      · exact h.devices d hd
      · rw [List.mem_singleton.mp hd]
        exact hadd setup rfl
    · rcases List.mem_append.mp hd with hd | hd
      · exact h.index d hd
      · rw [List.mem_singleton.mp hd]
        exact nofun
    · have hflat : (c.depots ++ [({ setup } : Depot)]).flatMap Depot.modules =
          c.depots.flatMap Depot.modules := by
        rw [List.flatMap_append]
        exact List.append_nil _
      show Balanced driver used ((c.depots ++ [({ setup } : Depot)]).flatMap Depot.modules ++ _)
        c.world
      rw [hflat]
      exact h.balanced
  | get i path request => exact h.get hp i path request
  | release i => exact h.release hp i
  | close i => exact h.close hp i
  | copy j =>
    refine h.share j fun old new hnew hgenuine => ?_
    rw [← Option.some.inj hnew]
    exact ⟨rfl, hgenuine⟩
  | sibling j entry =>
    refine h.share j fun old new hnew _ => ?_
    obtain ⟨f, hf, rfl⟩ := Option.map_eq_some_iff.mp hnew
    exact ⟨rfl, entry, hf⟩
  | drop j => exact h.drop hp j
  | launch j shape =>
    exact h.use hp j fun handle d hd => LoadedModule.keeps_run_launch hd handle.function shape
  | fill j name bytes =>
    exact h.use hp j fun handle d hd => LoadedModule.keeps_run_fill hd handle.loaded name bytes
  | outside change =>
    exact ⟨h.devices, h.index, h.genuine,
      h.balanced.rests ⟨rfl, fun id => hmove id c.world.outside⟩⟩

theorem Accounts.run (hp : p.Simulates driver) (h : Accounts driver used c) {moves : List (Move σ)}
    (hmoves : ∀ move ∈ moves, move.Spares driver)
    (hadd : ∀ setup, .add setup ∈ moves → used setup.deviceId) :
    Accounts driver used (c.run p moves) := by
  induction moves generalizing c with
  | nil => exact h
  | cons move moves ih =>
    refine ih (h.next hp (hmoves move List.mem_cons_self) ?_) (fun m hm => hmoves m (.tail _ hm))
      fun setup hsetup => hadd setup (.tail _ hsetup)
    rintro setup rfl
    exact hadd setup List.mem_cons_self

/-- What is true of the modules on the devices, of those that somebody refers to, and of what
can be done with the handles. -/
structure IsAccounted (p : Facility σ) (driver : Nat → σ → SimulatedDriver) (c : Custody σ) :
    Prop where
  nodup : ∀ id, (driver id c.world.outside).table.Nodup
  mem_table_iff : ∀ id n, n ∈ (driver id c.world.outside).table ↔
    ∃ m ∈ c.referenced, m.key = ⟨id, n⟩
  launch : ∀ h ∈ c.handles, ∀ shape, (c.drive p h (h.function.launch shape)).1 =
    match (driver h.loaded.key.device c.world.outside).refusals.lookup .launch with
    | some status => .error (.ofStatus status ("launch of '" ++ h.function.entry ++ "' failed"))
    | none => .ok ()
  fill : ∀ h ∈ c.handles, ∀ name g, h.loaded.constant? name = some g →
    ∀ bytes, bytes.length = g.size → (c.drive p h (h.loaded.fill name bytes)).1 =
      match (driver h.loaded.key.device c.world.outside).refusals.lookup .copy with
      | some status =>
        .error (.device (.ofStatus status ("copy to constant '" ++ name ++ "' failed")))
      | none => .ok ()

theorem Accounts.isAccounted (hp : p.Simulates driver) (h : Accounts driver used c) :
    c.IsAccounted p driver where
  nodup id := (h.balanced.sound id).nodup
  mem_table_iff id n := by
    constructor
    · intro hn
      obtain ⟨m, hm, hkey⟩ := List.mem_map.mp (h.balanced.owner id n hn)
      exact ⟨m, hm, hkey⟩
    · rintro ⟨m, hm, hkey⟩
      have hmem := (h.balanced.resident m hm).mem_table
      rwa [hkey] at hmem
  launch handle hhandle shape := by
    obtain ⟨entry, hf⟩ := h.genuine handle hhandle
    have hon := h.balanced.resident handle.loaded
      (List.mem_append_right _ (List.mem_map_of_mem hhandle))
    exact ((hp.run _ (handle.function.launch shape) c.world.outside).1).trans
      (LoadedModule.run_launch (h.willing hhandle) hon hf shape)
  fill handle hhandle name g hg bytes hsize := by
    have hon := h.balanced.resident handle.loaded
      (List.mem_append_right _ (List.mem_map_of_mem hhandle))
    exact ((hp.run _ (handle.loaded.fill name bytes) c.world.outside).1).trans
      (LoadedModule.run_fill (h.willing hhandle) hon hg hsize)

/-- Whether nobody refers to a module and none is on a device. -/
structure IsNew (driver : Nat → σ → SimulatedDriver) (c : Custody σ) : Prop where
  depots : c.depots = []
  handles : c.handles = []
  holds : c.world.holds = []
  modules : ∀ id, (driver id c.world.outside).modules = []

theorem IsNew.accounts (h : c.IsNew driver)
    (hwilling : ∀ id, used id → (driver id c.world.outside).IsWilling) :
    Accounts driver used c := by
  have hreferenced : c.referenced = [] := by
    unfold referenced
    rw [h.depots, h.handles]
    rfl
  have htable (id : Nat) : (driver id c.world.outside).table = [] :=
    congrArg (List.map Prod.fst) (h.modules id)
  refine ⟨fun d hd => ?_, fun d hd => ?_, fun handle hhandle => ?_, ?_⟩
  · rw [h.depots] at hd
    exact nomatch hd
  · rw [h.depots] at hd
    exact nomatch hd
  · rw [h.handles] at hhandle
    exact nomatch hhandle
  · rw [hreferenced]
    refine ⟨h.holds ▸ .refl _, fun id => ⟨htable id ▸ .nil, fun n hn => ?_⟩, hwilling, nofun,
      fun id n hn => ?_, nofun⟩
    · rw [htable] at hn
      exact nomatch hn
    · rw [htable] at hn
      exact nomatch hn

/-- In every run from the start the modules on the devices are those that an index or a handle
refers to, each of them once, and handles can be used for as long as they exist.  Only devices
that a depot is opened on have to be willing. -/
theorem isAccounted_run (hp : p.Simulates driver) (hnew : c.IsNew driver) {moves : List (Move σ)}
    (hwilling : ∀ setup, .add setup ∈ moves →
      (driver setup.deviceId c.world.outside).IsWilling)
    (hmoves : ∀ move ∈ moves, move.Spares driver) : (c.run p moves).IsAccounted p driver := by
  have haccounts :
      Accounts driver (fun id => ∃ setup, .add setup ∈ moves ∧ setup.deviceId = id) c :=
    hnew.accounts fun id ⟨setup, hsetup, hid⟩ => hid ▸ hwilling setup hsetup
  exact (haccounts.run hp hmoves fun setup hsetup => ⟨setup, hsetup, rfl⟩).isAccounted hp

end Custody

/-! ### A handle that outlives its depot -/

namespace Rack

/-- A toolchain that makes the same image of everything. -/
def toolchain : Toolchain where
  identity := ⟨"t", "1"⟩
  compile _ := .done (.ok ⟨Text.bytes "// mock-ptx\n.target sm_80\n.entry k\n", .ptx, .empty, ""⟩)

def facility : Facility Machine := Machine.facility fun _ => toolchain

/-- A machine with one device. -/
def start : Custody Machine := { world := { outside := { drivers := [{}] } } }

/-- The kernel is got, its handle is copied, and then the depot and one of the handles go. -/
def moves : List (Custody.Move Machine) :=
  [.add Traffic.unused.site.depot.setup, .get 0 ⟨[], 0⟩ Traffic.plainRequest, .copy 0, .release 0,
    .drop 0, .close 0]

theorem isNew_start : start.IsNew Machine.driver := by
  refine ⟨rfl, rfl, rfl, fun id => ?_⟩
  cases id <;> rfl

theorem isWilling_of_mem_moves (setup : Setup) (h : .add setup ∈ moves) :
    (Machine.driver setup.deviceId start.world.outside).IsWilling := by
  simp only [moves, List.mem_cons, List.not_mem_nil, or_false] at h
  rcases h with h | h | h | h | h | h
  · rw [Custody.Move.add.inj h]
    exact ⟨rfl, rfl, rfl⟩
  all_goals exact nomatch h

theorem spares_of_mem_moves (move : Custody.Move Machine) (h : move ∈ moves) :
    move.Spares Machine.driver := by
  simp only [moves, List.mem_cons, List.not_mem_nil, or_false] at h
  rcases h with rfl | rfl | rfl | rfl | rfl | rfl <;> trivial

theorem isAccounted_moves :
    start.IsNew Machine.driver ∧ (Machine.driver 0 start.world.outside).IsWilling ∧
      ¬ (Machine.driver 1 start.world.outside).IsWilling ∧
      (start.run facility moves).IsAccounted facility Machine.driver ∧
      (start.run facility moves).handles.length = 1 ∧
      (Machine.driver 0 (start.run facility moves).world.outside).table = [2] ∧
      (Machine.driver 0 (start.run facility (moves ++ [.drop 0])).world.outside).table = [] :=
  ⟨isNew_start, ⟨rfl, rfl, rfl⟩, fun h => absurd h.unload (by decide),
    Custody.isAccounted_run (Machine.simulates_facility _) isNew_start isWilling_of_mem_moves
      spares_of_mem_moves,
    by decide +kernel, by decide +kernel, by decide +kernel⟩

end Rack
end KernelDepot
