/-
A depot without its store.

Two depots are taken through the same steps, one with a store and one without.  Where a look-up
in the store comes to nothing, one step of each leaves them at stages that differ in the numbers
of modules at most, and the depots differ in these numbers and in the counters for the disk.
That takes surroundings whose answers depend on a part of their state in which neither the store
nor the driver has a hand.
-/
import KernelDepot.Proofs.Depot.Alone
import KernelDepot.Proofs.Depot.Prepare
import KernelDepot.Proofs.Depot.Surroundings
import KernelDepot.Proofs.Device.Unnumbered

namespace KernelDepot

def Setup.storeless (setup : Setup) : Setup := { setup with store := .disabled }

/-- A site with the store taken away. -/
def Site.storeless {σ : Type} (s : Site σ) : Site σ :=
  { s with depot := { s.depot with setup := s.depot.setup.storeless } }

/-- Surroundings whose answers depend on a view of their state, apart from the numbers that the
driver gives out, and in which only the toolchain has a hand in the view.  Of the disk only what
a search path serves counts, and what is done to the files of a fingerprint does not show
there. -/
structure Host.IsSteady {σ β : Type} (host : Host σ) (searched : SearchPath) (view : σ → β) :
    Prop where
  resolve : ∀ name x y, view x = view y →
    searched.resolve (host.disk x) name = searched.resolve (host.disk y) name
  dialogue : ∀ job x y, view x = view y → (host.compile job x).1 = (host.compile job y).1
  load : ∀ id info f a x y, view x = view y →
    ((LoadedModule.load id info f a).run host.device x).1.outcome.map LoadedModule.unnumbered =
      ((LoadedModule.load id info f a).run host.device y).1.outcome.map LoadedModule.unnumbered
  view_compile : ∀ job x y, view x = view y →
    view (host.compile job x).2 = view (host.compile job y).2
  view_device : ∀ call x, view (host.device call x).2 = view x
  view_files : ∀ f (op : FileOp), op.IsAt f → ∀ x, view (host.files op x).2 = view x

/-- Whether a depot is another one without its store, apart from the numbers of modules and the
counters for the disk. -/
structure Depot.Lacks (d d' : Depot) : Prop where
  setup : d'.setup = d.setup.storeless
  index : unnumberedEntries d'.index = unnumberedEntries d.index
  arena : d'.arena = d.arena
  runs : d'.runs = d.runs
  memoryHits : d'.counters.memoryHits = d.counters.memoryHits
  diskHits : d'.counters.diskHits = d.counters.diskHits
  compilations : d'.counters.compilations = d.counters.compilations

/-- Two stages that differ in numbers at most. -/
inductive Stage.Alike : Stage → Stage → Prop where
  | lookup : Alike .lookup .lookup
  | join : Alike .join .join
  | lock (n : Nat) : Alike (.holding n .lock) (.holding n .lock)
  | recheck (n : Nat) : Alike (.holding n .recheck) (.holding n .recheck)
  | restore (n : Nat) : Alike (.holding n .restore) (.holding n .restore)
  | compile (n : Nat) : Alike (.holding n .compile) (.holding n .compile)
  | store (n : Nat) (a : Artifact) : Alike (.holding n (.store a)) (.holding n (.store a))
  | load (n : Nat) (a : Artifact) (shared : Bool) :
    Alike (.holding n (.load a shared)) (.holding n (.load a shared))
  | insert (n : Nat) {m m' : LoadedModule} (h : m'.unnumbered = m.unnumbered) :
    Alike (.holding n (.insert m)) (.holding n (.insert m'))
  | unlock (n : Nat) {outcome outcome' : Outcome}
    (h : Outcome.unnumbered outcome' = Outcome.unnumbered outcome) :
    Alike (.holding n (.unlock outcome)) (.holding n (.unlock outcome'))
  | leave (n : Nat) {outcome outcome' : Outcome}
    (h : Outcome.unnumbered outcome' = Outcome.unnumbered outcome) :
    Alike (.holding n (.leave outcome)) (.holding n (.leave outcome'))
  | finished {outcome outcome' : Outcome}
    (h : Outcome.unnumbered outcome' = Outcome.unnumbered outcome) :
    Alike (.finished outcome) (.finished outcome')

theorem Stage.Alike.rank_eq {stage stage' : Stage} (h : stage.Alike stage') :
    stage'.rank = stage.rank := by
  cases h <;> rfl

namespace Depot.Lacks

variable {d d' e e' : Depot}

theorem diskRecounted (h : d.Lacks d') (hd : d.DiskRecounted e) (hd' : d'.DiskRecounted e') :
    e.Lacks e' := by
  obtain ⟨counters, rfl, hmemory, hdisk, hcompiled⟩ := hd
  obtain ⟨counters', rfl, hmemory', hdisk', hcompiled'⟩ := hd'
  exact ⟨h.setup, h.index, h.arena, h.runs, hmemory'.trans (h.memoryHits.trans hmemory.symm),
    hdisk'.trans (h.diskHits.trans hdisk.symm),
    hcompiled'.trans (h.compilations.trans hcompiled.symm)⟩

theorem mapArena (h : d.Lacks d') (change : Arena → Arena) :
    (d.mapArena change).Lacks (d'.mapArena change) :=
  ⟨h.setup, h.index, congrArg change h.arena, h.runs, h.memoryHits, h.diskHits, h.compilations⟩

theorem ran (h : d.Lacks d') (run : ToolchainRun) :
    Lacks { d with runs := d.runs ++ [run] } { d' with runs := d'.runs ++ [run] } :=
  ⟨h.setup, h.index, h.arena, congrArg (· ++ [run]) h.runs, h.memoryHits, h.diskHits,
    h.compilations⟩

theorem compiled (h : d.Lacks d') :
    (d.count fun c => { c with compilations := c.compilations + 1 }).Lacks
      (d'.count fun c => { c with compilations := c.compilations + 1 }) :=
  ⟨h.setup, h.index, h.arena, h.runs, h.memoryHits, h.diskHits,
    congrArg (· + 1) h.compilations⟩

theorem hit (h : d.Lacks d') :
    (d.count fun c => { c with memoryHits := c.memoryHits + 1 }).Lacks
      (d'.count fun c => { c with memoryHits := c.memoryHits + 1 }) :=
  ⟨h.setup, h.index, h.arena, h.runs, congrArg (· + 1) h.memoryHits, h.diskHits, h.compilations⟩

theorem entered (h : d.Lacks d') (f : Fingerprint) {m m' : LoadedModule}
    (hm : m'.unnumbered = m.unnumbered) :
    Lacks { d with index := d.index ++ [(f, m)] } { d' with index := d'.index ++ [(f, m')] } := by
  refine ⟨h.setup, ?_, h.arena, h.runs, h.memoryHits, h.diskHits, h.compilations⟩
  have hindex := h.index
  unfold unnumberedEntries at hindex ⊢
  rw [List.map_append, List.map_append, hindex]
  simp only [List.map_cons, List.map_nil, hm]

end Depot.Lacks

namespace Site

variable {σ β : Type} {host : Host σ} {view : σ → β} {s s' : Site σ}

/-- A disabled store has nothing to restore. -/
theorem restore_of_storeless {setup : Setup} (h : s.depot.setup = setup.storeless)
    (f : Fingerprint) : (s.restore host f).1 = .ok none := by
  refine (restore_of_missing fun a => ?_).1
  rw [h]
  exact nofun

/-- Both sites find a module for a fingerprint, or neither does. -/
theorem find?_cases (h : s.depot.Lacks s'.depot) (f : Fingerprint) :
    (s.depot.find? f = none ∧ s'.depot.find? f = none) ∨
      ∃ m m', s.depot.find? f = some m ∧ s'.depot.find? f = some m' ∧
        m'.unnumbered = m.unnumbered := by
  have hfind := Depot.find?_congr h.index f
  cases hm : s.depot.find? f with
  | none =>
    rw [hm] at hfind
    exact .inl ⟨rfl, Option.map_eq_none_iff.mp hfind⟩
  | some m =>
    rw [hm] at hfind
    obtain ⟨m', hm', hsame⟩ := Option.map_eq_some_iff.mp hfind
    exact .inr ⟨m, m', rfl, hm', hsame⟩

/-- Both sites compile a request in the same way. -/
theorem compile_congr {p : PreparedRequest} (hsteady : host.IsSteady p.space.path view)
    (h : s.depot.Lacks s'.depot) (hview : view s'.world.outside = view s.world.outside) :
    (s'.compile host p).1 = (s.compile host p).1 ∧
      (s.compile host p).2.depot.Lacks (s'.compile host p).2.depot := by
  have hdialogue := hsteady.dialogue p.job _ _ hview
  have hdisk name := hsteady.resolve name _ _ (hsteady.view_compile p.job _ _ hview)
  have hverbose : s'.depot.setup.verbose = s.depot.setup.verbose := by
    rw [h.setup]
    rfl
  unfold compile
  simp only
  rw [hdialogue, PreparedRequest.compile_congr hdisk, hverbose]
  exact ⟨rfl, h.ran _⟩

theorem load_congr {searched : SearchPath} (hsteady : host.IsSteady searched view)
    (h : s.depot.Lacks s'.depot) (hview : view s'.world.outside = view s.world.outside)
    (f : Fingerprint) (a : Artifact) :
    (s'.load host f a).1.map LoadedModule.unnumbered =
      (s.load host f a).1.map LoadedModule.unnumbered := by
  rw [load_outcome, load_outcome, h.setup]
  exact hsteady.load _ _ f a _ _ hview

end Site

namespace Call

variable {σ β : Type} {host : Host σ} {view : σ → β} {order : KeyedRequest} {s s' : Site σ}

/-- The view after a step. -/
theorem view_outside_act {searched : SearchPath} (hsteady : host.IsSteady searched view)
    (stage : Stage) :
    view (act host order s stage).2.world.outside =
      match stage with
      | .holding _ .compile => view (host.compile order.job s.world.outside).2
      | _ => view s.world.outside := by
  cases hout : stage.goesOut with
  | false =>
    rw [outside_act hsteady.view_device order s stage hout]
    cases stage with
    | holding n task =>
      cases task with
      | compile => exact absurd hout.symm Bool.false_ne_true
      | _ => rfl
    | _ => rfl
  | true =>
    cases stage with
    | holding n task =>
      cases task with
      | restore =>
        rw [outside_act_restore]
        exact Site.view_restore (hsteady.view_files _) hsteady.view_device s
      | compile => rw [outside_act_compile]
      | store a =>
        rw [show (act host order s (.holding n (.store a))).2 = s.persist host _ a from rfl,
          Site.outside_persist]
        exact (ArtifactStore.asksOnly_store _ _ a).view_run view (hsteady.view_files _) _
      | _ => exact absurd hout Bool.false_ne_true
    | _ => exact absurd hout Bool.false_ne_true

theorem lacks_work (hsteady : host.IsSteady order.space.path view) (h : s.depot.Lacks s'.depot)
    (hview : view s'.world.outside = view s.world.outside) {n : Nat} {task task' : Task}
    (htask : (Stage.holding n task).Alike (.holding n task'))
    (hrestore : task = .restore → (s.restore host order.fingerprint).1 = .ok none) :
    (work host order s n task).2.depot.Lacks (work host order s' n task').2.depot ∧
      (work host order s n task).1.Alike (work host order s' n task').1 := by
  unfold work
  cases htask with
  | lock => exact ⟨h.mapArena (·.update n _), .recheck n⟩
  | recheck =>
    simp only [h.arena]
    cases s.depot.arena.failure? n with
    | some failure => exact ⟨h, .unlock n rfl⟩
    | none =>
      rcases Site.find?_cases h order.fingerprint with ⟨hm, hm'⟩ | ⟨m, m', hm, hm', hsame⟩
      · simp only [hm, hm']
        exact ⟨h, .restore n⟩
      · simp only [hm, hm', serveHit_outcome, Site.serveHit_depot]
        exact ⟨h.hit, .unlock n (LoadedModule.outcome_congr hsame _)⟩
  | restore =>
    have hd := @Site.diskRecounted_restore σ host s order.fingerprint
    have hd' := @Site.diskRecounted_restore σ host s' order.fingerprint
    have hnone := hrestore rfl
    have hnone' : (s'.restore host order.fingerprint).1 = .ok none :=
      Site.restore_of_storeless h.setup _
    simp only
    generalize s.restore host order.fingerprint = restored at hd hnone ⊢
    generalize s'.restore host order.fingerprint = restored' at hd' hnone' ⊢
    obtain ⟨outcome, s₁⟩ := restored
    obtain ⟨outcome', s₁'⟩ := restored'
    obtain rfl : outcome = .ok none := hnone
    obtain rfl : outcome' = .ok none := hnone'
    exact ⟨h.diskRecounted hd hd', .compile n⟩
  | compile =>
    obtain ⟨hsame, hlacks⟩ := Site.compile_congr hsteady h hview
    simp only
    generalize s.compile host order.toPreparedRequest = compiled at hsame hlacks ⊢
    generalize s'.compile host order.toPreparedRequest = compiled' at hsame hlacks ⊢
    obtain ⟨outcome, s₁⟩ := compiled
    obtain ⟨outcome', s₁'⟩ := compiled'
    obtain rfl : outcome' = outcome := hsame
    rcases outcome' with e | result
    · cases e with
      | compile failure => exact ⟨hlacks.mapArena (·.update n _), .unlock n rfl⟩
      | _ => exact ⟨hlacks, .unlock n rfl⟩
    · simp only
      split
      · exact ⟨hlacks.compiled, .store n _⟩
      · exact ⟨hlacks.compiled, .load n _ _⟩
  | store _ a =>
    exact ⟨h.diskRecounted (Site.diskRecounted_persist _ _) (Site.diskRecounted_persist _ _),
      .load n a true⟩
  | load _ a shared =>
    have hsame := Site.load_congr hsteady h hview order.fingerprint a
    have hdepot : (s.load host order.fingerprint a).2.depot = s.depot := rfl
    have hdepot' : (s'.load host order.fingerprint a).2.depot = s'.depot := rfl
    simp only
    generalize s.load host order.fingerprint a = loaded at hsame hdepot ⊢
    generalize s'.load host order.fingerprint a = loaded' at hsame hdepot' ⊢
    obtain ⟨outcome, s₁⟩ := loaded
    obtain ⟨outcome', s₁'⟩ := loaded'
    have h₁ : s₁.depot.Lacks s₁'.depot := by
      rw [show s₁.depot = s.depot from hdepot, show s₁'.depot = s'.depot from hdepot']
      exact h
    cases outcome with
    | error e =>
      cases outcome' with
      | error e' =>
        obtain rfl : e' = e := Except.error.inj hsame
        exact ⟨h₁, .unlock n rfl⟩
      | ok m' => exact nomatch hsame
    | ok m =>
      cases outcome' with
      | error e' => exact nomatch hsame
      | ok m' =>
        have hm : m'.unnumbered = m.unnumbered := Except.ok.inj hsame
        cases shared with
        | true => exact ⟨h₁, .insert n hm⟩
        | false =>
          simp only [Bool.false_eq_true, if_false, Site.grant_fst, Site.grant_depot]
          exact ⟨h₁, .unlock n (LoadedModule.outcome_congr hm _)⟩
  | insert _ hsame =>
    simp only [Site.grant_fst, Site.grant_depot, Site.enter_depot, Site.enter_fst]
    rcases Site.find?_cases h order.fingerprint with ⟨hm, hm'⟩ | ⟨m, m', hm, hm', hpresent⟩
    · rw [hm, hm']
      exact ⟨h.entered _ hsame, .unlock n (LoadedModule.outcome_congr hsame _)⟩
    · rw [hm, hm']
      exact ⟨h, .unlock n (LoadedModule.outcome_congr hpresent _)⟩
  | unlock _ hsame => exact ⟨h.mapArena (·.update n _), .leave n hsame⟩
  | leave _ hsame => exact ⟨h.mapArena (·.leave _ n), .finished hsame⟩

theorem lacks_act (hsteady : host.IsSteady order.space.path view) (h : s.depot.Lacks s'.depot)
    (hview : view s'.world.outside = view s.world.outside) {stage stage' : Stage}
    (hstage : stage.Alike stage')
    (hrestore : ∀ n, stage = .holding n .restore →
      (s.restore host order.fingerprint).1 = .ok none) :
    (act host order s stage).2.depot.Lacks (act host order s' stage').2.depot ∧
      (act host order s stage).1.Alike (act host order s' stage').1 := by
  cases stage with
  | lookup =>
    cases hstage
    unfold act
    rcases Site.find?_cases h order.fingerprint with ⟨hm, hm'⟩ | ⟨m, m', hm, hm', hsame⟩
    · simp only [hm, hm']
      exact ⟨h, .join⟩
    · simp only [hm, hm', serveHit_outcome, Site.serveHit_depot]
      exact ⟨h.hit, .finished (LoadedModule.outcome_congr hsame _)⟩
  | join =>
    cases hstage
    unfold act
    rw [h.arena]
    exact ⟨h.mapArena fun _ => (s.depot.arena.join order.fingerprint).2, .lock _⟩
  | holding n task =>
    obtain ⟨task', rfl⟩ : ∃ task', stage' = .holding n task' := by
      cases hstage <;> exact ⟨_, rfl⟩
    exact lacks_work hsteady h hview hstage fun htask => hrestore n (by rw [htask])
  | finished outcome =>
    cases hstage with
    | finished hsame => exact ⟨h, .finished hsame⟩

/-- Nothing outside is touched on the way to the store. -/
theorem outside_act_of_rank {stage : Stage} (h : 7 ≤ (act host order s stage).1.rank) :
    (act host order s stage).2.world.outside = s.world.outside := by
  cases stage with
  | lookup =>
    unfold act at h ⊢
    cases hm : s.depot.find? order.fingerprint with
    | some m =>
      simp only [hm] at h
      exact absurd h (by simp [Stage.rank])
    | none => rfl
  | join => rfl
  | finished outcome => rfl
  | holding n task =>
    have hworks := works_work host order s n task
    change 7 ≤ (work host order s n task).1.rank at h
    show (work host order s n task).2.world.outside = _
    generalize work host order s n task = worked at hworks h ⊢
    obtain ⟨after, s'⟩ := worked
    cases hworks with
    | lock | refuse | search => rfl
    | _ => exact absurd h (by simp [Stage.rank, Task.rank])

end Call

end KernelDepot
