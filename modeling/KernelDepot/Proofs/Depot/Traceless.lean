/-
Failed requests leave no trace.

Among depots with one toolchain over one directory that nobody else writes to, a request never
gets a module that lacks its entry, so a call that has loaded a module ends with a handle.  A
call that fails has not loaded any, or the module is off the device again, and the index and the
slots are as they were.
-/
import KernelDepot.Proofs.Depot.Covering
import KernelDepot.Proofs.Depot.Custody
import KernelDepot.Proofs.Depot.Recovery
import KernelDepot.Proofs.Fingerprint.Inputs
import Mathlib.Data.List.Nodup

namespace KernelDepot

open SimulatedDriver World

/-- The directory that all depots that are opened see, and that nothing but their stores
changes. -/
structure Facility.Directory {σ : Type} (p : Facility σ) (opened : Setup → Prop) where
  content : σ → String → Option Bytes
  kept : ∀ setup, opened setup → KeptFiles (p.host setup).files
  content_eq : ∀ setup h, (kept setup h).content = content
  isOrderly : ∀ setup h, (kept setup h).IsOrderly
  content_device : ∀ id call x, content (p.device id call x).2 = content x
  content_compile : ∀ setup, opened setup → ∀ job x, content (p.compile setup job x).2 = content x

namespace Call

variable {σ : Type} {p : Facility σ} {driver : Nat → σ → SimulatedDriver} {used : Nat → Prop}
  {setup : Setup} {rest : List LoadedModule} {k : KeptFiles (p.host setup).files}
  {wanted : Fingerprint → List String} {order : KeyedRequest} {s : Site σ} {stage : Stage}

theorem owned_ne_nil_of_grant {n : Nat} {m : LoadedModule} {entries : List String} {entry : String}
    (h : m.Covers entries) (hentry : entry ∈ entries) :
    (Stage.holding n (.unlock (m.outcome entry))).owned ≠ [] := by
  obtain ⟨handle, hof⟩ := h.of_eq_ok hentry
  unfold LoadedModule.outcome
  rw [hof]
  exact List.cons_ne_nil _ _

/-- A call that has no hold on a module has not loaded any so far. -/
theorem rests_work (hp : p.Simulates driver)
    (hentries : order.request.entries = wanted order.fingerprint)
    (hne : order.request.entries ≠ []) {n : Nat} {task : Task}
    (hkeeping : Keeping driver used setup rest s (.holding n task))
    (hcovering : Covering k wanted order s (.holding n task))
    (h : (work (p.host setup) order s n task).1.owned = []) :
    (Stage.holding n task).owned = [] ∧
      Rests driver s.world (work (p.host setup) order s n task).2.world := by
  have hsound := hkeeping.balanced.sound
  have hentry := entry_mem hentries hne
  have hwilling := hkeeping.balanced.willing _ hkeeping.device
  have hrestore := Site.restore_cases hp hkeeping.setup_eq hwilling hsound order.fingerprint
  have hcompile : Rests driver s.world (s.compile (p.host setup) order.toPreparedRequest).2.world :=
    Site.rests_compile setup hp _
  have hworks := works_work (p.host setup) order s n task
  generalize work (p.host setup) order s n task = worked at hworks h ⊢
  obtain ⟨after, s'⟩ := worked
  cases hworks with
  | lock => exact ⟨rfl, .refl _⟩
  | refuse failure hfailure => exact ⟨rfl, .refl _⟩
  | find m hfailure hm => exact absurd h (owned_ne_nil_of_grant (hcovering.index _ m hm) hentry)
  | search hfailure hm => exact ⟨rfl, .refl _⟩
  | restoreFailed e hr =>
    rw [hr] at hrestore
    exact ⟨rfl, hrestore⟩
  | restored m hr => exact absurd h (List.cons_ne_nil _ _)
  | missed hr =>
    rw [hr] at hrestore
    exact ⟨rfl, hrestore.trans (Site.rests_report _ [.miss])⟩
  | compileRefused failure hc => exact ⟨rfl, hcompile⟩
  | compileFailed e hc hne => exact ⟨rfl, hcompile⟩
  | compiled result hc hextra => exact ⟨rfl, hcompile⟩
  | compiledOnce result hc hextra =>
    exact ⟨rfl, hcompile.trans (Site.rests_report _ [.notCacheable])⟩
  | store a => exact ⟨rfl, Site.rests_persist hp _ _⟩
  | loadFailed a shared e hl =>
    have hload := Site.load_cases hp hkeeping.setup_eq hwilling hsound order.fingerprint a
    rw [hl] at hload
    exact ⟨rfl, hload⟩
  | loaded a m hl => exact absurd h (List.cons_ne_nil _ _)
  | loadedOnce a m hl =>
    have hcovers : m.Covers (wanted order.fingerprint) := Site.covers_of_load hcovering.stage hl
    exact absurd h (owned_ne_nil_of_grant hcovers hentry)
  | insert m => exact absurd h (owned_ne_nil_of_grant hcovering.covers_enter hentry)
  | unlock outcome => exact ⟨h, .refl _⟩
  | leave outcome => exact ⟨h, .refl _⟩

theorem rests_act (hp : p.Simulates driver)
    (hentries : order.request.entries = wanted order.fingerprint)
    (hne : order.request.entries ≠ []) (hkeeping : Keeping driver used setup rest s stage)
    (hcovering : Covering k wanted order s stage)
    (h : (act (p.host setup) order s stage).1.owned = []) :
    stage.owned = [] ∧ Rests driver s.world (act (p.host setup) order s stage).2.world := by
  cases stage with
  | lookup =>
    unfold act at h ⊢
    cases hm : s.depot.find? order.fingerprint with
    | none => exact ⟨rfl, .refl _⟩
    | some m =>
      simp only [hm, serveHit_outcome] at h
      exact absurd h (owned_ne_nil_of_grant (n := 0) (hcovering.index _ m hm)
        (entry_mem hentries hne))
  | join => exact ⟨rfl, .refl _⟩
  | holding n task => exact rests_work hp hentries hne hkeeping hcovering h
  | finished outcome => exact ⟨h, .refl _⟩

/-- A call that has no hold on a module has left the index and the devices as they were. -/
def Steady (driver : Nat → σ → SimulatedDriver) (start s : Site σ) (stage : Stage) : Prop :=
  stage.owned = [] → s.depot.index = start.depot.index ∧
    ∀ id, (driver id s.world.outside).modules = (driver id start.world.outside).modules

theorem steady_act (hp : p.Simulates driver)
    (hentries : order.request.entries = wanted order.fingerprint)
    (hne : order.request.entries ≠ []) {start : Site σ} (hr : stage.rank ≠ 0)
    (hkeeping : Keeping driver used setup rest s stage)
    (hcovering : Covering k wanted order s stage) (h : Steady driver start s stage) :
    Steady driver start (act (p.host setup) order s stage).2
      (act (p.host setup) order s stage).1 := by
  intro howned
  obtain ⟨hbefore, hrests⟩ := rests_act hp hentries hne hkeeping hcovering howned
  obtain ⟨hindex, hmodules⟩ := h hbefore
  refine ⟨?_, fun id => (hrests.keeps id).modules.trans (hmodules id)⟩
  have hmoves := moves_act (p.host setup) order s stage hr
  rcases hmoves.index_cases with hsame | ⟨n, m, rfl, -, -⟩
  · exact hsame.trans hindex
  · exact absurd hbefore (List.cons_ne_nil _ _)

end Call

namespace Site

variable {σ : Type} {p : Facility σ} {driver : Nat → σ → SimulatedDriver} {used : Nat → Prop}
  {opened : Setup → Prop} {setup : Setup} {rest : List LoadedModule}
  {wanted : Fingerprint → List String} {s : Site σ}

/-- What a call for a request leaves behind. -/
structure Served (driver : Nat → σ → SimulatedDriver) (wanted : Fingerprint → List String)
    (content : σ → String → Option Bytes) (start s : Site σ) (outcome : Outcome) : Prop where
  spotless : Spotless outcome
  files : ManifestsCover wanted (content s.world.outside)
  index : s.depot.Covers wanted
  idle : s.depot.IsIdle
  steady : ∀ e, outcome = .error e → s.depot.index = start.depot.index ∧
    ∀ id, (driver id s.world.outside).modules = (driver id start.world.outside).modules

theorem served_getKernel (hp : p.Simulates driver) (dir : p.Directory opened)
    (hopened : opened setup) (hsetup : s.depot.setup = setup) (hdevice : used setup.deviceId)
    (hindex : ∀ e ∈ s.depot.index, e.2.key.device = setup.deviceId)
    (hbalanced : Balanced driver used (s.depot.modules ++ rest) s.world) (hidle : s.depot.IsIdle)
    (hfiles : ManifestsCover wanted (dir.content s.world.outside)) (hcovers : s.depot.Covers wanted)
    {path : SearchPath} {request : Request}
    (horder : ∀ order, (s.prepare (p.host setup) path request).1 = .ok order →
      order.request.entries = wanted order.fingerprint ∧ order.request.entries ≠ []) :
    Served driver wanted dir.content s (s.getKernel (p.host setup) path request).2
      (s.getKernel (p.host setup) path request).1 := by
  have hcontent := dir.content_eq setup hopened
  have hkeeping :
      Call.Keeping driver used setup rest (s.prepare (p.host setup) path request).2 .lookup :=
    ⟨hsetup, hdevice, hindex, nofun, nofun, hbalanced.rests (rests_report s _)⟩
  cases hprepared : s.prepare (p.host setup) path request with
  | mk outcome s₁ =>
    have hdepot : s₁.depot = s.depot := congrArg (·.2.depot) hprepared.symm
    have houtside : s₁.world.outside = s.world.outside :=
      congrArg (·.2.world.outside) hprepared.symm
    rw [hprepared] at hkeeping
    cases outcome with
    | error e =>
      have hget : s.getKernel (p.host setup) path request = (.error e, s₁) := by
        unfold getKernel
        rw [hprepared]
      rw [hget]
      refine ⟨?_, houtside ▸ hfiles, hdepot ▸ hcovers, hdepot ▸ hidle, fun _ _ => ?_⟩
      · intro e' he'
        have he : e = .device e' := Except.error.inj he'
        have hprepare : (s.depot.prepare (p.disk s.world.outside) path request).outcome =
            .error (.device e') := he ▸ congrArg (·.1) hprepared
        exact Depot.not_lacksEntry_of_prepare hprepare
      · rw [hdepot, houtside]
        exact ⟨rfl, fun _ => rfl⟩
    | ok order =>
      have hok : (s.prepare (p.host setup) path request).1 = .ok order := congrArg (·.1) hprepared
      obtain ⟨hentries, hne⟩ := horder order hok
      rw [getKernel_of_prepare hok, hprepared]
      have hsound : s₁.depot.Sound [⟨order, .lookup⟩] := hdepot.symm ▸ .of_isIdle hidle order
      have hcovering : Call.Covering (dir.kept setup hopened) wanted order s₁ .lookup :=
        ⟨by rw [hcontent, houtside]; exact hfiles, hdepot ▸ hcovers, trivial⟩
      have hsteady : Call.Steady driver s s₁ .lookup := fun _ => by
        rw [hdepot, houtside]
        exact ⟨rfl, fun _ => rfl⟩
      obtain ⟨⟨-, hcovering', hsteady'⟩, hidle'⟩ := Call.complete_induction_of_sound
        (P := fun s' stage => Call.Keeping driver used setup rest s' stage ∧
          Call.Covering (dir.kept setup hopened) wanted order s' stage ∧
          Call.Steady driver s s' stage)
        (fun s' stage hr _ h => ⟨Call.keeping_act hp order h.1,
          Call.covering_act hentries hne (dir.isOrderly setup hopened)
            (fun call x => by rw [hcontent]; exact dir.content_device setup.deviceId call x)
            (fun job x => by rw [hcontent]; exact dir.content_compile setup hopened job x) h.2.1,
          Call.steady_act hp hentries hne hr h.1 h.2.1 h.2.2⟩)
        hsound ⟨hkeeping, hcovering, hsteady⟩
      refine ⟨hcovering'.stage, hcontent ▸ hcovering'.files, hcovering'.index, hidle',
        fun e he => hsteady' ?_⟩
      rw [he]
      rfl

theorem setup_getKernel {host : Host σ} (s : Site σ) (path : SearchPath)
    (request : Request) : (s.getKernel host path request).2.depot.setup = s.depot.setup := by
  have hstart : (s.prepare host path request).2.depot.setup = s.depot.setup := rfl
  unfold getKernel
  generalize s.prepare host path request = prepared at hstart ⊢
  obtain ⟨outcome, s₁⟩ := prepared
  cases outcome with
  | error e => exact hstart
  | ok order =>
    exact Call.complete_induction (P := fun s' _ => s'.depot.setup = s.depot.setup)
      (fun s' stage _ h => (Call.setup_act host order s' stage).trans h) hstart

end Site

namespace Custody

variable {σ : Type} {p : Facility σ} {driver : Nat → σ → SimulatedDriver} {used : Nat → Prop}
  {opened : Setup → Prop} {wanted : Fingerprint → List String} {toolchain : ToolchainIdentity}
  {c : Custody σ}

/-! ### What the fingerprints are made of -/

/-- No depot ever gets another setup than the one that it was opened with. -/
theorem forall_setup_next {P : Setup → Prop} (h : ∀ d ∈ c.depots, P d.setup) {move : Move σ}
    (hmove : ∀ setup, move = .add setup → P setup) : ∀ d ∈ (c.next p move).depots, P d.setup := by
  have hset (i : Nat) {d d' : Depot} (hd : c.depots[i]? = some d) (hsetup : d'.setup = d.setup) :
      ∀ a ∈ c.depots.set i d', P a.setup := by
    intro a ha
    rcases List.mem_or_eq_of_mem_set ha with ha | rfl
    · exact h a ha
    · exact hsetup ▸ h d (List.mem_of_getElem? hd)
  cases move with
  | add setup =>
    intro d hd
    rcases List.mem_append.mp hd with hd | hd
    · exact h d hd
    · rw [List.mem_singleton.mp hd]
      exact hmove setup rfl
  | get i path request =>
    show ∀ d ∈ (c.get p i path request).depots, P d.setup
    unfold get
    cases hd : c.depots[i]? with
    | none => exact h
    | some d => exact hset i hd (Site.setup_getKernel _ path request)
  | release i =>
    show ∀ d ∈ (c.release p i).depots, P d.setup
    unfold release
    cases hd : c.depots[i]? with
    | none => exact h
    | some d =>
      exact hset i hd ((congrArg Depot.setup
        (@Site.release_depot σ (p.host d.setup) ⟨d, c.world⟩)).trans rfl)
  | close i =>
    show ∀ d ∈ (c.close p i).depots, P d.setup
    unfold close
    cases c.depots[i]? with
    | none => exact h
    | some d => exact fun d' hd' => h d' (List.mem_of_mem_eraseIdx hd')
  | copy j =>
    show ∀ d ∈ (c.share j some).depots, P d.setup
    unfold share
    cases c.handles[j]?.bind some <;> exact h
  | sibling j entry =>
    show ∀ d ∈ (c.share j (·.sibling? entry)).depots, P d.setup
    unfold share
    cases c.handles[j]?.bind (·.sibling? entry) <;> exact h
  | drop j =>
    show ∀ d ∈ (c.drop p j).depots, P d.setup
    unfold drop
    cases c.handles[j]? <;> exact h
  | launch j shape =>
    show ∀ d ∈ (c.use p j (·.function.launch shape)).depots, P d.setup
    unfold use
    cases c.handles[j]? <;> exact h
  | fill j name bytes =>
    show ∀ d ∈ (c.use p j (·.loaded.fill name bytes)).depots, P d.setup
    unfold use
    cases c.handles[j]? <;> exact h
  | outside change => exact h

/-- What is known of a request that was prepared. -/
theorem exists_prepares {move : Move σ} {order : KeyedRequest}
    (h : c.prepared? p move = some order) :
    ∃ d ∈ c.depots, ∃ disk path, d.Prepares disk path order.request order := by
  cases move with
  | get i path request =>
    obtain ⟨d, hd, hprepared⟩ := Option.bind_eq_some_iff.mp h
    have hprepares := Depot.prepare_eq_ok_iff.mp (Except.eq_ok_of_toOption hprepared)
    exact ⟨d, List.mem_of_getElem? hd, _, path, hprepares.request ▸ hprepares⟩
  | _ => exact nomatch h

/-- The bytes that the fingerprint of a request is the digest of. -/
def preimage (toolchain : ToolchainIdentity) (order : KeyedRequest) : Bytes :=
  Preimage.ofInputs order.request order.flags order.source toolchain

theorem fingerprint_of_mem_orders (h : ∀ d ∈ c.depots, d.setup.toolchain = toolchain)
    {moves : List (Move σ)} (hmoves : ∀ setup, .add setup ∈ moves → setup.toolchain = toolchain) :
    ∀ order ∈ c.orders p moves, order.fingerprint = .ofPreimage (preimage toolchain order) := by
  induction moves generalizing c with
  | nil => exact nofun
  | cons move moves ih =>
    intro order horder
    rcases List.mem_append.mp horder with horder | horder
    · obtain ⟨d, hd, disk, path, hprepares⟩ := exists_prepares (Option.mem_toList.mp horder)
      rw [hprepares.fingerprint, h d hd]
      rfl
    · refine ih (forall_setup_next (P := fun setup => setup.toolchain = toolchain) h ?_)
        (fun setup hsetup => hmoves setup (.tail _ hsetup)) order horder
      rintro setup rfl
      exact hmoves setup List.mem_cons_self

/-- Whether no two of some requests have a fingerprint in common that is made of different
bytes. -/
def CollisionFree (toolchain : ToolchainIdentity) (orders : List KeyedRequest) : Prop :=
  ∀ a ∈ orders, ∀ b ∈ orders,
    Fingerprint.ofPreimage (preimage toolchain a) = .ofPreimage (preimage toolchain b) →
      preimage toolchain a = preimage toolchain b

theorem CollisionFree.of_nodup {orders : List KeyedRequest}
    (h : (orders.map fun order => Fingerprint.ofPreimage (preimage toolchain order)).Nodup) :
    CollisionFree toolchain orders := fun _ ha _ hb hsame =>
  congrArg (preimage toolchain) (List.inj_on_of_nodup_map h ha hb hsame)

/-- The entries that the first of some requests with a fingerprint asks for. -/
def entriesOf (orders : List KeyedRequest) (f : Fingerprint) : List String :=
  ((orders.find? fun order => order.fingerprint = f).map (·.request.entries)).getD []

/-- All requests with a fingerprint ask for the same entries. -/
theorem entries_eq_entriesOf {orders : List KeyedRequest} (hfree : CollisionFree toolchain orders)
    (haddressable : ∀ order ∈ orders,
      Preimage.Addressable order.request order.flags order.source toolchain)
    (hfingerprint : ∀ order ∈ orders,
      order.fingerprint = .ofPreimage (preimage toolchain order)) :
    ∀ order ∈ orders, order.request.entries = entriesOf orders order.fingerprint := by
  intro order horder
  unfold entriesOf
  cases hfind : orders.find? fun o => o.fingerprint = order.fingerprint with
  | none => exact absurd (decide_eq_true rfl) (List.find?_eq_none.mp hfind order horder)
  | some first =>
    have hfirst := List.mem_of_find?_eq_some hfind
    have hsame : first.fingerprint = order.fingerprint := by
      simpa using List.find?_some hfind
    rw [hfingerprint first hfirst, hfingerprint order horder] at hsame
    exact (Preimage.agree_of_ofInputs_eq (haddressable first hfirst) (haddressable order horder)
      (hfree first hfirst order horder hsame)).entries.symm

/-! ### Between two moves -/

/-- Whether a move leaves the drivers and the directory to the depots. -/
def Move.Respects (driver : Nat → σ → SimulatedDriver) (content : σ → String → Option Bytes) :
    Move σ → Prop
  | .outside change => (∀ id x, Keeps (driver id x) (driver id (change x))) ∧
      ∀ x, content (change x) = content x
  | _ => True

theorem Move.Respects.spares {content : σ → String → Option Bytes} {move : Move σ}
    (h : move.Respects driver content) : move.Spares driver := by
  cases move with
  | outside change => exact h.1
  | _ => trivial

/-- What is known of the depots and of their directory between two moves. -/
structure Harmony (driver : Nat → σ → SimulatedDriver) (used : Nat → Prop)
    (opened : Setup → Prop) (content : σ → String → Option Bytes)
    (wanted : Fingerprint → List String) (c : Custody σ) : Prop where
  accounts : Accounts driver used c
  opened : ∀ d ∈ c.depots, opened d.setup
  files : ManifestsCover wanted (content c.world.outside)
  covers : ∀ d ∈ c.depots, d.Covers wanted
  idle : ∀ d ∈ c.depots, d.IsIdle

namespace Harmony

variable {dir : p.Directory opened}

theorem served (hp : p.Simulates driver) (h : Harmony driver used opened dir.content wanted c)
    {i : Nat} {d : Depot} (hd : c.depots[i]? = some d) {path : SearchPath} {request : Request}
    (horder : ∀ order, c.prepared? p (.get i path request) = some order →
      order.request.entries = wanted order.fingerprint) :
    Site.Served driver wanted dir.content ⟨d, c.world⟩
      (Site.getKernel (p.host d.setup) ⟨d, c.world⟩ path request).2
      (Site.getKernel (p.host d.setup) ⟨d, c.world⟩ path request).1 := by
  have hmem := List.mem_of_getElem? hd
  have hbalanced := h.accounts.balanced.perm (referenced_perm hd)
  refine Site.served_getKernel hp dir (h.opened d hmem) rfl (h.accounts.devices d hmem)
    (h.accounts.index d hmem) hbalanced (h.idle d hmem) h.files (h.covers d hmem) ?_
  intro order hok
  have hprepared : c.prepared? p (.get i path request) = some order := by
    show c.depots[i]?.bind _ = some order
    rw [hd, Option.bind_some, hok]
    rfl
  obtain ⟨_, -, _, _, hprepares⟩ := exists_prepares hprepared
  exact ⟨horder order hprepared, Request.entries_of_validate hprepares.arch⟩

theorem set (h : Harmony driver used opened dir.content wanted c) {i : Nat} {d d' : Depot}
    (hd : c.depots[i]? = some d) (hsetup : d'.setup = d.setup) {handles : List KernelHandle}
    {world : World σ}
    (haccounts : Accounts driver used ⟨c.depots.set i d', handles, world⟩)
    (hfiles : ManifestsCover wanted (dir.content world.outside)) (hcovers : d'.Covers wanted)
    (hidle : d'.IsIdle) :
    Harmony driver used opened dir.content wanted ⟨c.depots.set i d', handles, world⟩ := by
  refine ⟨haccounts, fun a ha => ?_, hfiles, fun d hd => ?_, fun d hd => ?_⟩
  · rcases List.mem_or_eq_of_mem_set ha with ha | rfl
    · exact h.opened a ha
    · rw [hsetup]
      exact h.opened d (List.mem_of_getElem? hd)
  · rcases List.mem_or_eq_of_mem_set hd with hd | rfl
    · exact h.covers d hd
    · exact hcovers
  · rcases List.mem_or_eq_of_mem_set hd with hd | rfl
    · exact h.idle d hd
    · exact hidle

theorem of_content (h : Harmony driver used opened dir.content wanted c) {c' : Custody σ}
    (haccounts : Accounts driver used c') (hdepots : ∀ d ∈ c'.depots, d ∈ c.depots)
    (hcontent : dir.content c'.world.outside = dir.content c.world.outside) :
    Harmony driver used opened dir.content wanted c' :=
  ⟨haccounts, fun d hd => h.opened d (hdepots d hd), hcontent ▸ h.files,
    fun d hd => h.covers d (hdepots d hd),
    fun d hd => h.idle d (hdepots d hd)⟩

theorem get (hp : p.Simulates driver) (h : Harmony driver used opened dir.content wanted c)
    {i : Nat} {path : SearchPath} {request : Request}
    (haccounts : Accounts driver used (c.get p i path request))
    (horder : ∀ order, c.prepared? p (.get i path request) = some order →
      order.request.entries = wanted order.fingerprint) :
    Harmony driver used opened dir.content wanted (c.get p i path request) := by
  revert haccounts
  unfold Custody.get
  cases hd : c.depots[i]? with
  | none => exact fun _ => h
  | some d =>
    intro haccounts
    have hserved := h.served hp hd horder
    exact h.set hd (Site.setup_getKernel _ path request) haccounts hserved.files hserved.index
      hserved.idle

theorem view_outside_release (dir : p.Directory opened) (d : Depot) (w : World σ) :
    dir.content (Site.release (p.host d.setup) ⟨d, w⟩).2.world.outside =
      dir.content w.outside :=
  Site.view_release (dir.content_device d.setup.deviceId) ⟨d, w⟩

theorem release (h : Harmony driver used opened dir.content wanted c) {i : Nat}
    (haccounts : Accounts driver used (c.release p i)) :
    Harmony driver used opened dir.content wanted (c.release p i) := by
  revert haccounts
  unfold Custody.release
  cases hd : c.depots[i]? with
  | none => exact fun _ => h
  | some d =>
    have hcontent := view_outside_release dir d c.world
    have hdepot := @Site.release_depot σ (p.host d.setup) ⟨d, c.world⟩
    have hidle := h.idle d (List.mem_of_getElem? hd)
    simp only
    generalize Site.release (p.host d.setup) ⟨d, c.world⟩ = result at hcontent hdepot ⊢
    obtain ⟨count, s⟩ := result
    have hdepot : s.depot = { d with index := [] } := hdepot
    have hcontent : dir.content s.world.outside = dir.content c.world.outside := hcontent
    exact fun haccounts => h.set hd (by rw [hdepot]) haccounts (hcontent ▸ h.files)
      (by rw [hdepot]; exact nofun) (by rw [hdepot]; exact ⟨hidle.listed, hidle.slots⟩)

theorem close (h : Harmony driver used opened dir.content wanted c) {i : Nat}
    (haccounts : Accounts driver used (c.close p i)) :
    Harmony driver used opened dir.content wanted (c.close p i) := by
  revert haccounts
  unfold Custody.close
  cases c.depots[i]? with
  | none => exact fun _ => h
  | some d =>
    exact fun haccounts => h.of_content haccounts (fun d' hd' => List.mem_of_mem_eraseIdx hd')
      (view_outside_release dir d c.world)

theorem share (h : Harmony driver used opened dir.content wanted c) {j : Nat}
    {further : KernelHandle → Option KernelHandle}
    (haccounts : Accounts driver used (c.share j further)) :
    Harmony driver used opened dir.content wanted (c.share j further) := by
  revert haccounts
  unfold Custody.share
  cases c.handles[j]?.bind further with
  | none => exact fun _ => h
  | some handle => exact fun haccounts => h.of_content haccounts (fun _ hd => hd) rfl

theorem drop (h : Harmony driver used opened dir.content wanted c) {j : Nat}
    (haccounts : Accounts driver used (c.drop p j)) :
    Harmony driver used opened dir.content wanted (c.drop p j) := by
  revert haccounts
  unfold Custody.drop
  cases c.handles[j]? with
  | none => exact fun _ => h
  | some handle =>
    exact fun haccounts => h.of_content haccounts (fun _ hd => hd)
      (World.view_letGo (dir.content_device handle.loaded.key.device) c.world handle.loaded.key)

theorem use {α : Type} (h : Harmony driver used opened dir.content wanted c) {j : Nat}
    {work : KernelHandle → Driving α} (haccounts : Accounts driver used (c.use p j work)) :
    Harmony driver used opened dir.content wanted (c.use p j work) := by
  revert haccounts
  unfold Custody.use
  cases c.handles[j]? with
  | none => exact fun _ => h
  | some handle =>
    exact fun haccounts => h.of_content haccounts (fun _ hd => hd)
      (Program.view_run (dir.content_device handle.loaded.key.device) (work handle)
        c.world.outside)

theorem next (hp : p.Simulates driver) (h : Harmony driver used opened dir.content wanted c)
    {move : Move σ} (hmove : move.Respects driver dir.content)
    (hadd : ∀ setup, move = .add setup → used setup.deviceId ∧ opened setup)
    (horder : ∀ order, c.prepared? p move = some order →
      order.request.entries = wanted order.fingerprint) :
    Harmony driver used opened dir.content wanted (c.next p move) := by
  have haccounts := h.accounts.next hp hmove.spares fun setup hsetup => (hadd setup hsetup).1
  cases move with
  | add setup =>
    refine ⟨haccounts, fun d hd => ?_, h.files, fun d hd => ?_, fun d hd => ?_⟩
    · rcases List.mem_append.mp hd with hd | hd
      · exact h.opened d hd
      · rw [List.mem_singleton.mp hd]
        exact (hadd setup rfl).2
    · rcases List.mem_append.mp hd with hd | hd
      · exact h.covers d hd
      · rw [List.mem_singleton.mp hd]
        exact nofun
    · rcases List.mem_append.mp hd with hd | hd
      · exact h.idle d hd
      · rw [List.mem_singleton.mp hd]
        exact ⟨rfl, rfl⟩
  | get i path request => exact h.get hp haccounts horder
  | release i => exact h.release haccounts
  | close i => exact h.close haccounts
  | copy j => exact h.share haccounts
  | sibling j entry => exact h.share haccounts
  | drop j => exact h.drop haccounts
  | launch j shape => exact h.use haccounts
  | fill j name bytes => exact h.use haccounts
  | outside change => exact h.of_content haccounts (fun _ hd => hd) (hmove.2 c.world.outside)

theorem run (hp : p.Simulates driver) (h : Harmony driver used opened dir.content wanted c)
    {moves : List (Move σ)} (hmoves : ∀ move ∈ moves, move.Respects driver dir.content)
    (hadd : ∀ setup, .add setup ∈ moves → used setup.deviceId ∧ opened setup)
    (horders : ∀ order ∈ c.orders p moves, order.request.entries = wanted order.fingerprint) :
    Harmony driver used opened dir.content wanted (c.run p moves) := by
  induction moves generalizing c with
  | nil => exact h
  | cons move moves ih =>
    have hfirst (setup : Setup) (hsetup : move = .add setup) :=
      hadd setup (hsetup ▸ List.mem_cons_self)
    have hnext := h.next hp (hmoves move List.mem_cons_self) hfirst fun order horder =>
      horders order (List.mem_append_left _ (Option.mem_toList.mpr horder))
    exact ih hnext (fun m hm => hmoves m (.tail _ hm))
      (fun setup hsetup => hadd setup (.tail _ hsetup)) fun order horder =>
        horders order (List.mem_append_right _ horder)

end Harmony

/-! ### After a run -/

theorem orders_append (c : Custody σ) (moves more : List (Move σ)) :
    c.orders p (moves ++ more) = c.orders p moves ++ (c.run p moves).orders p more := by
  induction moves generalizing c with
  | nil => rfl
  | cons move moves ih =>
    show _ ++ (c.next p move).orders p (moves ++ more) = _ ++ _ ++ _
    rw [ih, List.append_assoc]
    rfl

theorem IsNew.harmony {dir : p.Directory opened} (h : c.IsNew driver)
    (hwilling : ∀ id, used id → (driver id c.world.outside).IsWilling)
    (hempty : ∀ name, dir.content c.world.outside name = none) :
    Harmony driver used opened dir.content wanted c := by
  refine ⟨h.accounts hwilling, ?_, .of_empty hempty, ?_, ?_⟩ <;>
  · rw [h.depots]
    exact nofun

/-- Whether a call that failed left the index, the slots and the devices as they were. -/
structure IsTraceless (driver : Nat → σ → SimulatedDriver) (before after : Site σ) : Prop where
  index : after.depot.index = before.depot.index
  listed : after.depot.arena.listed = before.depot.arena.listed
  slots : after.depot.arena.slots = before.depot.arena.slots
  modules : ∀ id,
    (driver id after.world.outside).modules = (driver id before.world.outside).modules

/-- After any run from the start over an empty directory, of depots with one toolchain and
without a collision of fingerprints, a call that has a module gets its handle from it, and a call
that fails leaves no trace. -/
theorem isTraceless_getKernel_run (hp : p.Simulates driver) {moves : List (Move σ)}
    (dir : p.Directory fun setup => .add setup ∈ moves) (hnew : c.IsNew driver)
    (hwilling : ∀ setup, .add setup ∈ moves →
      (driver setup.deviceId c.world.outside).IsWilling)
    (hempty : ∀ name, dir.content c.world.outside name = none)
    (hmoves : ∀ move ∈ moves, move.Respects driver dir.content)
    (htoolchain : ∀ setup, .add setup ∈ moves → setup.toolchain = toolchain) {i : Nat}
    {path : SearchPath} {request : Request}
    (hfree : CollisionFree toolchain (c.orders p (moves ++ [.get i path request])))
    (haddressable : ∀ order ∈ c.orders p (moves ++ [.get i path request]),
      Preimage.Addressable order.request order.flags order.source toolchain)
    {d : Depot} (hd : (c.run p moves).depots[i]? = some d) :
    (∀ m entry e, KernelHandle.of m entry = .error e →
      (Site.getKernel (p.host d.setup) ⟨d, (c.run p moves).world⟩ path request).1 ≠
        .error (.device e)) ∧
    ∀ e, (Site.getKernel (p.host d.setup) ⟨d, (c.run p moves).world⟩ path request).1 = .error e →
      IsTraceless driver ⟨d, (c.run p moves).world⟩
        (Site.getKernel (p.host d.setup) ⟨d, (c.run p moves).world⟩ path request).2 := by
  have htoolchain' (setup : Setup) (hsetup : .add setup ∈ moves ++ [Move.get i path request]) :
      setup.toolchain = toolchain := by
    rcases List.mem_append.mp hsetup with hsetup | hsetup
    · exact htoolchain setup hsetup
    · exact nomatch List.mem_singleton.mp hsetup
  have hfingerprint := @fingerprint_of_mem_orders σ p toolchain c
    (by rw [hnew.depots]; exact nofun) _ htoolchain'
  have hentries := entries_eq_entriesOf hfree haddressable hfingerprint
  rw [orders_append] at hentries
  have hstart (wanted : Fingerprint → List String) :
      Harmony driver (fun id => ∃ setup, .add setup ∈ moves ∧ setup.deviceId = id)
        (fun setup => .add setup ∈ moves) dir.content wanted c :=
    hnew.harmony (fun id ⟨setup, hsetup, hid⟩ => hid ▸ hwilling setup hsetup) hempty
  have hharmony := (hstart _).run hp hmoves (fun setup hsetup => ⟨⟨setup, hsetup, rfl⟩, hsetup⟩)
    fun order horder => hentries order (List.mem_append_left _ horder)
  have hserved := hharmony.served hp hd fun order
      (horder : (c.run p moves).prepared? p (.get i path request) = some order) =>
    hentries order (List.mem_append_right _
      (List.mem_append_left _ (Option.mem_toList.mpr horder)))
  have hidle := hharmony.idle d (List.mem_of_getElem? hd)
  refine ⟨fun m entry e hof hresult =>
    hserved.spotless e hresult (KernelHandle.lacksEntry_of hof), fun e he => ?_⟩
  obtain ⟨hindex, hmodules⟩ := hserved.steady e he
  exact ⟨hindex, hserved.idle.listed.trans hidle.listed.symm,
    hserved.idle.slots.trans hidle.slots.symm, hmodules⟩

end Custody

/-! ### A module that lacks a symbol

The toolchain makes an image with the entry `k` of everything.  A request for another entry fails
when the symbol is looked up, and by then the image is stored and its module loaded. -/

namespace Locker

/-- A machine, and one directory for all depots. -/
def facility : Facility ((String → Option Bytes) × Machine) where
  disk _ := {}
  device id call x :=
    let (reply, machine) := Machine.device id call x.2
    (reply, x.1, machine)
  files _ op x :=
    let (reply, content) := Shelf.host.files op x.1
    (reply, content, x.2)
  compile setup job x :=
    let (dialogue, machine) := Rack.facility.compile setup job x.2
    (dialogue, x.1, machine)

def driver (id : Nat) (x : (String → Option Bytes) × Machine) : SimulatedDriver :=
  Machine.driver id x.2

theorem simulates_facility : facility.Simulates driver :=
  have h := Machine.simulates_facility fun _ => Rack.toolchain
  { reply := fun id call x => h.reply id call x.2
    own := fun id call x => h.own id call x.2
    others := fun id other call x => h.others id other call x.2
    files := fun _ _ _ _ => rfl
    compile := fun setup job x => h.compile setup job x.2 }

def kept (setup : Setup) : KeptFiles (facility.host setup).files where
  content x := Shelf.files.content x.1
  isPlain x := Shelf.files.isPlain x.1
  read_some x := Shelf.files.read_some x.1
  read_none x := Shelf.files.read_none x.1
  content_read x := Shelf.files.content_read x.1
  content_isFile x := Shelf.files.content_isFile x.1
  content_delete x := Shelf.files.content_delete x.1

theorem isOrderly_kept (setup : Setup) : (kept setup).IsOrderly :=
  have h := Shelf.isObedient_files.toIsOrderly
  { content_ticket := fun x => h.content_ticket x.1
    written := fun x => h.written x.1
    write_of_ne := fun x => h.write_of_ne x.1
    renamed := fun x => h.renamed x.1
    notRenamed := fun x => h.notRenamed x.1
    rename_of_ne := fun x => h.rename_of_ne x.1
    delete_of_ne := fun x => h.delete_of_ne x.1 }

def directory (opened : Setup → Prop) : facility.Directory opened where
  content x := Shelf.files.content x.1
  kept setup _ := kept setup
  content_eq _ _ := rfl
  isOrderly setup _ := isOrderly_kept setup
  content_device _ _ _ := rfl
  content_compile _ _ _ _ := rfl

def start : Custody ((String → Option Bytes) × Machine) :=
  { world := { outside := (fun _ => none, { drivers := [{}] }) } }

/-- A depot gets a kernel. -/
def moves : List (Custody.Move ((String → Option Bytes) × Machine)) :=
  [.add Shelf.setup, .get 0 ⟨[], 0⟩ Shelf.request]

/-- A request for an entry that the image lacks. -/
def request : Request := { Shelf.request with entries := ["j"] }

/-- The depot that has got a kernel, and its surroundings. -/
def site : Site ((String → Option Bytes) × Machine) :=
  ⟨(start.run facility moves).depots[0]?.getD { setup := Shelf.setup },
    (start.run facility moves).world⟩

theorem respects_of_mem_moves (move) (h : move ∈ moves) :
    move.Respects driver fun x => Shelf.files.content x.1 := by
  simp only [moves, List.mem_cons, List.not_mem_nil, or_false] at h
  rcases h with rfl | rfl <;> trivial

theorem toolchain_of_mem_moves (setup : Setup) (h : .add setup ∈ moves) :
    setup.toolchain = Shelf.setup.toolchain := by
  simp only [moves, List.mem_cons, List.not_mem_nil, or_false] at h
  rcases h with h | h
  · rw [Custody.Move.add.inj h]
  · exact nomatch h

theorem isNew_start : start.IsNew driver := by
  refine ⟨rfl, rfl, rfl, fun id => ?_⟩
  cases id <;> rfl

theorem isWilling_of_mem_moves (setup : Setup) (h : .add setup ∈ moves) :
    (driver setup.deviceId start.world.outside).IsWilling := by
  simp only [moves, List.mem_cons, List.not_mem_nil, or_false] at h
  rcases h with h | h
  · rw [Custody.Move.add.inj h]
    exact ⟨rfl, rfl, rfl⟩
  · exact nomatch h

theorem collisionFree_orders : Custody.CollisionFree Shelf.setup.toolchain
    (start.orders facility (moves ++ [.get 0 ⟨[], 0⟩ request])) :=
  .of_nodup (by decide +kernel)

theorem addressable_of_mem_orders :
    ∀ order ∈ start.orders facility (moves ++ [.get 0 ⟨[], 0⟩ request]),
      Preimage.Addressable order.request order.flags order.source Shelf.setup.toolchain := by
  decide +kernel

theorem depots_run_moves : (start.run facility moves).depots[0]? = some site.depot := by
  have hsome : (start.run facility moves).depots[0]?.isSome := by decide +kernel
  unfold site
  cases h : (start.run facility moves).depots[0]? with
  | some d => rfl
  | none =>
    rw [h] at hsome
    exact absurd hsome Bool.false_ne_true

theorem isTraceless_getKernel_site :
    site.depot.index.length = 1 ∧
      (driver 0 (site.getKernel (facility.host site.depot.setup) ⟨[], 0⟩
        request).2.world.outside).loads = 2 ∧
      ∃ e, (site.getKernel (facility.host site.depot.setup) ⟨[], 0⟩ request).1 = .error e ∧
        Custody.IsTraceless driver site
          (site.getKernel (facility.host site.depot.setup) ⟨[], 0⟩ request).2 := by
  obtain ⟨hfails, hloads⟩ :
      (site.getKernel (facility.host site.depot.setup) ⟨[], 0⟩ request).1.toOption = none ∧
        (driver 0 (site.getKernel (facility.host site.depot.setup) ⟨[], 0⟩
          request).2.world.outside).loads = 2 := by decide +kernel
  obtain ⟨-, htraceless⟩ := Custody.isTraceless_getKernel_run simulates_facility (directory _)
    isNew_start isWilling_of_mem_moves (fun _ => plainly_of_none rfl) respects_of_mem_moves
    toolchain_of_mem_moves collisionFree_orders addressable_of_mem_orders depots_run_moves
  refine ⟨by decide +kernel, hloads, ?_⟩
  cases hresult : (site.getKernel (facility.host site.depot.setup) ⟨[], 0⟩ request).1 with
  | ok h =>
    rw [hresult] at hfails
    exact nomatch hfails
  | error e => exact ⟨e, rfl, htraceless e hresult⟩

end Locker
end KernelDepot
