/-
What one step of a call does to the slots and to the index.

Most of the work of a call is done outside: on the disk, on the device, with the
toolchain.  `Moves` lists the steps by what they do to the books of a depot, which are its
slots and its index, and `moves_act` says that there are no other steps.  `Works` lists them
with all that they do, for who wants to know more.
-/
import KernelDepot.Depot.Call

namespace KernelDepot

structure Depot.SameBooks (d d' : Depot) : Prop where
  arena : d'.arena = d.arena
  index : d'.index = d.index

/-- Two depots that differ in their counters at most. -/
def Depot.Recounted (d d' : Depot) : Prop := ∃ counters, d' = { d with counters }

/-- Two depots that differ at most in the counters for trouble with the disk and for writes. -/
def Depot.DiskRecounted (d d' : Depot) : Prop :=
  ∃ counters : Counters, d' = { d with counters } ∧
    counters.memoryHits = d.counters.memoryHits ∧ counters.diskHits = d.counters.diskHits ∧
    counters.compilations = d.counters.compilations

namespace Depot

theorem find?_of_index {d d' : Depot} (h : d'.index = d.index) (f : Fingerprint) :
    d'.find? f = d.find? f := by
  unfold Depot.find?
  rw [h]

/-- A module that is entered is found by its fingerprint, and by no other one. -/
theorem find?_of_index_append {d d' : Depot} {f : Fingerprint} {m : LoadedModule}
    (h : d'.index = d.index ++ [(f, m)]) (hf : d.find? f = none) (g : Fingerprint) :
    d'.find? g = if g = f then some m else d.find? g := by
  unfold Depot.find? at hf ⊢
  rw [h, List.lookup_append]
  by_cases hg : g = f
  · rw [if_pos hg, hg, hf, List.lookup_cons_self]
    rfl
  · rw [if_neg hg, List.lookup_cons, beq_false_of_ne hg]
    exact Option.or_none

theorem SameBooks.find? {d d' : Depot} (h : d.SameBooks d') (f : Fingerprint) :
    d'.find? f = d.find? f :=
  find?_of_index h.index f

theorem DiskRecounted.refl (d : Depot) : d.DiskRecounted d := ⟨d.counters, rfl, rfl, rfl, rfl⟩

theorem DiskRecounted.recounted {d d' : Depot} (h : d.DiskRecounted d') : d.Recounted d' := by
  obtain ⟨counters, hd, -⟩ := h
  exact ⟨counters, hd⟩

theorem Recounted.setup_eq {d d' : Depot} (h : d.Recounted d') : d'.setup = d.setup := by
  obtain ⟨counters, rfl⟩ := h
  rfl

theorem Recounted.sameBooks {d d' : Depot} (h : d.Recounted d') : d.SameBooks d' := by
  obtain ⟨counters, rfl⟩ := h
  exact ⟨rfl, rfl⟩

end Depot

namespace Site

variable {σ α : Type} {host : Host σ} {s : Site σ}

@[simp] theorem report_depot (events : List Event) : (s.report events).depot = s.depot := rfl

@[simp] theorem mapDepot_depot (change : Depot → Depot) :
    (s.mapDepot change).depot = change s.depot := rfl

@[simp] theorem file_depot (p : Filing α) : (s.file host p).2.depot = s.depot := rfl

@[simp] theorem load_depot (f : Fingerprint) (a : Artifact) :
    (s.load host f a).2.depot = s.depot := rfl

@[simp] theorem grant_depot (m : LoadedModule) (entry : String) :
    (s.grant host m entry).2.depot = s.depot := by
  unfold grant
  split <;> rfl

theorem serveHit_depot (m : LoadedModule) (entry : String) (event : Event) :
    (s.serveHit host m entry event).2.depot =
      s.depot.count fun c => { c with memoryHits := c.memoryHits + 1 } := by
  unfold serveHit
  rw [grant_depot]
  rfl

theorem recounted_serveHit (m : LoadedModule) (entry : String) (event : Event) :
    s.depot.Recounted (s.serveHit host m entry event).2.depot :=
  ⟨_, serveHit_depot m entry event⟩

/-- A stored artifact that has to go is counted, and then there is nothing to load. -/
theorem restore_depot (f : Fingerprint) :
    (s.restore host f).2.depot = s.depot ∨ (s.restore host f).1 = .ok none ∧
      (s.restore host f).2.depot =
        s.depot.count fun c => { c with corruptRecoveries := c.corruptRecoveries + 1 } := by
  unfold restore
  simp only
  cases hfound : (s.file host (s.depot.setup.store.load f)).1 with
  | error failure =>
    cases failure with
    | damaged => exact .inr ⟨rfl, rfl⟩
    | _ => exact .inl rfl
  | ok artifact =>
    cases artifact with
    | none => exact .inl rfl
    | some artifact =>
      simp only
      split
      next m s₁ hload =>
        have h₁ : s₁.depot = s.depot := congrArg (·.2.depot) hload.symm
        exact .inl h₁
      next e s₁ hload =>
        have h₁ : s₁.depot = s.depot := congrArg (·.2.depot) hload.symm
        split
        · refine .inr ⟨rfl, ?_⟩
          rw [file_depot, report_depot, mapDepot_depot, h₁]
        · exact .inl h₁

theorem diskRecounted_restore (f : Fingerprint) :
    s.depot.DiskRecounted (s.restore host f).2.depot := by
  rcases @restore_depot σ host s f with h | ⟨-, h⟩
  · rw [h]
    exact .refl _
  · exact ⟨_, h, rfl, rfl, rfl⟩

theorem recounted_restore (f : Fingerprint) : s.depot.Recounted (s.restore host f).2.depot :=
  (diskRecounted_restore f).recounted

/-- A store is counted if it wrote or failed. -/
theorem persist_depot (f : Fingerprint) (a : Artifact) :
    (s.persist host f a).depot =
      match (s.file host (s.depot.setup.store.store f a)).1 with
      | .ok true => s.depot.count fun c => { c with diskWrites := c.diskWrites + 1 }
      | .ok false => s.depot
      | .error _ =>
        s.depot.count fun c => { c with persistenceFailures := c.persistenceFailures + 1 } := by
  unfold persist
  simp only
  cases (s.file host (s.depot.setup.store.store f a)).1 with
  | error e => rfl
  | ok wrote => cases wrote <;> rfl

theorem diskRecounted_persist (f : Fingerprint) (a : Artifact) :
    s.depot.DiskRecounted (s.persist host f a).depot := by
  rw [persist_depot]
  split
  · exact ⟨_, rfl, rfl, rfl, rfl⟩
  · exact .refl _
  · exact ⟨_, rfl, rfl, rfl, rfl⟩

theorem recounted_persist (f : Fingerprint) (a : Artifact) :
    s.depot.Recounted (s.persist host f a).depot :=
  (diskRecounted_persist f a).recounted

theorem sameBooks_compile (p : PreparedRequest) :
    s.depot.SameBooks (s.compile host p).2.depot := ⟨rfl, rfl⟩

/-- The module that is there stays. -/
theorem enter_fst (f : Fingerprint) (m : LoadedModule) :
    (s.enter host f m).1 = (s.depot.find? f).getD m := by
  unfold enter
  cases s.depot.find? f <;> rfl

/-- Entering a module changes nothing but the index, and that only for a new fingerprint. -/
theorem enter_depot (f : Fingerprint) (m : LoadedModule) :
    (s.enter host f m).2.depot =
      match s.depot.find? f with
      | some _ => s.depot
      | none => { s.depot with index := s.depot.index ++ [(f, m)] } := by
  unfold enter
  cases s.depot.find? f <;> rfl

end Site

/-! ## Steps -/

theorem Task.rank_pos (task : Task) : 0 < task.rank := by
  cases task <;> exact Nat.succ_pos _

/-- A call that has no step in front of it has ended. -/
theorem Stage.eq_finished_of_rank {stage : Stage} (h : stage.rank = 0) :
    ∃ outcome, stage = .finished outcome := by
  cases stage with
  | lookup => exact absurd h (Nat.succ_ne_zero _)
  | join => exact absurd h (Nat.succ_ne_zero _)
  | holding n task => exact absurd h (Nat.ne_of_gt task.rank_pos)
  | finished outcome => exact ⟨outcome, rfl⟩

/-- Whether a call found nothing in the index and has not done anything about it yet. -/
def Task.isSearching : Task → Bool
  | restore | compile | store _ | load .. | insert _ => true
  | _ => false

/-- Whether a call has the lock of its slot. -/
def Task.isWorking : Task → Bool
  | lock | leave _ => false
  | _ => true

def LoadedModule.outcome (m : LoadedModule) (entry : String) : Outcome :=
  (KernelHandle.of m entry).mapError .device

/-- The steps of a call for a fingerprint, from one stage to the next, by what they do to the
books of a depot. -/
inductive Moves (f : Fingerprint) (entry : String) (d d' : Depot) : Stage → Stage → Prop where
  | hit (m : LoadedModule) (hm : d.find? f = some m) (hd : d.SameBooks d') :
    Moves f entry d d' .lookup (.finished (m.outcome entry))
  | miss (hm : d.find? f = none) (hd : d.SameBooks d') : Moves f entry d d' .lookup .join
  | join (harena : d'.arena = (d.arena.join f).2) (hindex : d'.index = d.index) :
    Moves f entry d d' .join (.holding (d.arena.join f).1 .lock)
  | lock (n : Nat) (harena : d'.arena = d.arena.update n fun slot => { slot with locked := true })
    (hindex : d'.index = d.index) :
    Moves f entry d d' (.holding n .lock) (.holding n .recheck)
  | refuse (n : Nat) (failure : CompileFailure) (hfailure : d.arena.failure? n = some failure)
    (hd : d.SameBooks d') :
    Moves f entry d d' (.holding n .recheck) (.holding n (.unlock (.error (.compile failure))))
  | find (n : Nat) (m : LoadedModule) (hfailure : d.arena.failure? n = none)
    (hm : d.find? f = some m) (hd : d.SameBooks d') :
    Moves f entry d d' (.holding n .recheck) (.holding n (.unlock (m.outcome entry)))
  | search (n : Nat) (hfailure : d.arena.failure? n = none) (hm : d.find? f = none)
    (hd : d.SameBooks d') : Moves f entry d d' (.holding n .recheck) (.holding n .restore)
  | goOn (n : Nat) (task task' : Task) (ht : task.isSearching = true)
    (ht' : task'.isSearching = true) (hd : d.SameBooks d') :
    Moves f entry d d' (.holding n task) (.holding n task')
  | giveUp (n : Nat) (task : Task) (outcome : Outcome) (ht : task.isSearching = true)
    (hd : d.SameBooks d') :
    Moves f entry d d' (.holding n task) (.holding n (.unlock outcome))
  | fail (n : Nat) (failure : CompileFailure)
    (harena : d'.arena = d.arena.update n fun slot => { slot with failure := some failure })
    (hindex : d'.index = d.index) :
    Moves f entry d d' (.holding n .compile) (.holding n (.unlock (.error (.compile failure))))
  | insert (n : Nat) (m : LoadedModule) (outcome : Outcome) (harena : d'.arena = d.arena)
    (hindex : d'.index = match d.find? f with
      | some _ => d.index
      | none => d.index ++ [(f, m)]) :
    Moves f entry d d' (.holding n (.insert m)) (.holding n (.unlock outcome))
  | unlock (n : Nat) (outcome : Outcome)
    (harena : d'.arena = d.arena.update n fun slot => { slot with locked := false })
    (hindex : d'.index = d.index) :
    Moves f entry d d' (.holding n (.unlock outcome)) (.holding n (.leave outcome))
  | leave (n : Nat) (outcome : Outcome) (harena : d'.arena = d.arena.leave f n)
    (hindex : d'.index = d.index) :
    Moves f entry d d' (.holding n (.leave outcome)) (.finished outcome)

/-- Every move but one leaves the index alone, and that one enters a module if there is none. -/
theorem Moves.index_cases {f : Fingerprint} {entry : String} {d d' : Depot} {before after : Stage}
    (h : Moves f entry d d' before after) :
    d'.index = d.index ∨ ∃ n m, before = .holding n (.insert m) ∧ d.find? f = none ∧
      d'.index = d.index ++ [(f, m)] := by
  cases h with
  | hit m hm hd => exact .inl hd.index
  | miss hm hd => exact .inl hd.index
  | join harena hindex => exact .inl hindex
  | lock n harena hindex => exact .inl hindex
  | refuse n failure hfailure hd => exact .inl hd.index
  | find n m hfailure hm hd => exact .inl hd.index
  | search n hfailure hm hd => exact .inl hd.index
  | goOn n task task' ht ht' hd => exact .inl hd.index
  | giveUp n task outcome ht hd => exact .inl hd.index
  | fail n failure harena hindex => exact .inl hindex
  | insert n m outcome harena hindex =>
    cases hf : d.find? f with
    | some present =>
      rw [hf] at hindex
      exact .inl hindex
    | none =>
      rw [hf] at hindex
      exact .inr ⟨n, m, rfl, rfl, hindex⟩
  | unlock n outcome harena hindex => exact .inl hindex
  | leave n outcome harena hindex => exact .inl hindex

theorem Site.grant_fst {σ : Type} {host : Host σ} {s : Site σ} (m : LoadedModule)
    (entry : String) : (s.grant host m entry).1 = m.outcome entry := by
  unfold Site.grant LoadedModule.outcome
  cases KernelHandle.of m entry <;> rfl

namespace Call

variable {σ : Type} (host : Host σ) (order : KeyedRequest) (s : Site σ)

theorem serveHit_outcome (m : LoadedModule) (entry : String) (event : Event) :
    (s.serveHit host m entry event).1 = m.outcome entry :=
  Site.grant_fst m entry

/-- What comes of a task, with one constructor for each way it can go. -/
inductive Works (n : Nat) : Task → Stage → Site σ → Prop where
  | lock : Works n .lock (.holding n .recheck)
    (s.mapDepot (·.mapArena (·.update n fun slot => { slot with locked := true })))
  | refuse (failure : CompileFailure) (hfailure : s.depot.arena.failure? n = some failure) :
    Works n .recheck (.holding n (.unlock (.error (.compile failure)))) s
  | find (m : LoadedModule) (hfailure : s.depot.arena.failure? n = none)
    (hm : s.depot.find? order.fingerprint = some m) :
    Works n .recheck (.holding n (.unlock (m.outcome (order.request.entries.headD ""))))
      (s.serveHit host m (order.request.entries.headD "") .memoryHitAfterWait).2
  | search (hfailure : s.depot.arena.failure? n = none)
    (hm : s.depot.find? order.fingerprint = none) :
    Works n .recheck (.holding n .restore) s
  | restoreFailed (e : DeviceFailure) (h : (s.restore host order.fingerprint).1 = .error e) :
    Works n .restore (.holding n (.unlock (.error (.device e))))
      (s.restore host order.fingerprint).2
  | restored (m : LoadedModule) (h : (s.restore host order.fingerprint).1 = .ok (some m)) :
    Works n .restore (.holding n (.insert m))
      ((s.restore host order.fingerprint).2.mapDepot
        (·.count fun c => { c with diskHits := c.diskHits + 1 }))
  | missed (h : (s.restore host order.fingerprint).1 = .ok none) :
    Works n .restore (.holding n .compile) ((s.restore host order.fingerprint).2.report [.miss])
  | compileRefused (failure : CompileFailure)
    (h : (s.compile host order.toPreparedRequest).1 = .error (.compile failure)) :
    Works n .compile (.holding n (.unlock (.error (.compile failure))))
      ((s.compile host order.toPreparedRequest).2.mapDepot
        (·.mapArena (·.update n fun slot => { slot with failure := some failure })))
  | compileFailed (e : Failure) (h : (s.compile host order.toPreparedRequest).1 = .error e)
    (hne : ∀ failure, e ≠ .compile failure) :
    Works n .compile (.holding n (.unlock (.error e)))
      (s.compile host order.toPreparedRequest).2
  | compiled (result : Compilation)
    (h : (s.compile host order.toPreparedRequest).1 = .ok result) (hextra : result.extra = []) :
    Works n .compile (.holding n (.store result.artifact))
      ((s.compile host order.toPreparedRequest).2.mapDepot
        (·.count fun c => { c with compilations := c.compilations + 1 }))
  | compiledOnce (result : Compilation)
    (h : (s.compile host order.toPreparedRequest).1 = .ok result) (hextra : result.extra ≠ []) :
    Works n .compile (.holding n (.load result.artifact false))
      (((s.compile host order.toPreparedRequest).2.mapDepot
        (·.count fun c => { c with compilations := c.compilations + 1 })).report [.notCacheable])
  | store (a : Artifact) :
    Works n (.store a) (.holding n (.load a true)) (s.persist host order.fingerprint a)
  | loadFailed (a : Artifact) (shared : Bool) (e : DeviceFailure)
    (h : (s.load host order.fingerprint a).1 = .error e) :
    Works n (.load a shared) (.holding n (.unlock (.error (.device e))))
      (s.load host order.fingerprint a).2
  | loaded (a : Artifact) (m : LoadedModule) (h : (s.load host order.fingerprint a).1 = .ok m) :
    Works n (.load a true) (.holding n (.insert m)) (s.load host order.fingerprint a).2
  | loadedOnce (a : Artifact) (m : LoadedModule)
    (h : (s.load host order.fingerprint a).1 = .ok m) :
    Works n (.load a false) (.holding n (.unlock (m.outcome (order.request.entries.headD ""))))
      ((s.load host order.fingerprint a).2.grant host m (order.request.entries.headD "")).2
  | insert (m : LoadedModule) :
    Works n (.insert m)
      (.holding n (.unlock ((s.enter host order.fingerprint m).1.outcome
        (order.request.entries.headD ""))))
      ((s.enter host order.fingerprint m).2.grant host (s.enter host order.fingerprint m).1
        (order.request.entries.headD "")).2
  | unlock (outcome : Outcome) : Works n (.unlock outcome) (.holding n (.leave outcome))
    (s.mapDepot (·.mapArena (·.update n fun slot => { slot with locked := false })))
  | leave (outcome : Outcome) : Works n (.leave outcome) (.finished outcome)
    (s.mapDepot (·.mapArena (·.leave order.fingerprint n)))

theorem works_work (n : Nat) (task : Task) :
    Works host order s n task (work host order s n task).1 (work host order s n task).2 := by
  cases task with
  | lock => exact .lock
  | recheck =>
    unfold work
    cases hfailure : s.depot.arena.failure? n with
    | some failure => exact .refuse failure hfailure
    | none =>
      cases hm : s.depot.find? order.fingerprint with
      | some m =>
        simp only [serveHit_outcome]
        exact .find m hfailure hm
      | none => exact .search hfailure hm
  | restore =>
    have hfailed := @Works.restoreFailed σ host order s n
    have hrestored := @Works.restored σ host order s n
    have hmissed := @Works.missed σ host order s n
    unfold work
    simp only
    generalize s.restore host order.fingerprint = result at hfailed hrestored hmissed ⊢
    obtain ⟨outcome, s₁⟩ := result
    rcases outcome with e | m
    · exact hfailed e rfl
    · cases m with
      | none => exact hmissed rfl
      | some m => exact hrestored m rfl
  | compile =>
    have hrefused := @Works.compileRefused σ host order s n
    have hfailed := @Works.compileFailed σ host order s n
    have hcompiled := @Works.compiled σ host order s n
    have honce := @Works.compiledOnce σ host order s n
    unfold work
    simp only
    generalize s.compile host order.toPreparedRequest = result
      at hrefused hfailed hcompiled honce ⊢
    obtain ⟨outcome, s₁⟩ := result
    rcases outcome with e | result
    · cases e with
      | compile failure => exact hrefused failure rfl
      | _ => exact hfailed _ rfl nofun
    · simp only
      cases hextra : result.extra with
      | nil => exact hcompiled result rfl hextra
      | cons d rest => exact honce result rfl (hextra ▸ List.cons_ne_nil d rest)
  | store a => exact .store a
  | load a shared =>
    have hfailed := @Works.loadFailed σ host order s n a shared
    have hloaded := @Works.loaded σ host order s n a
    have honce := @Works.loadedOnce σ host order s n a
    unfold work
    simp only
    generalize s.load host order.fingerprint a = result at hfailed hloaded honce ⊢
    obtain ⟨outcome, s₁⟩ := result
    cases outcome with
    | error e => exact hfailed e rfl
    | ok m =>
      cases shared with
      | true => exact hloaded m rfl
      | false =>
        simp only [Bool.false_eq_true, if_false, Site.grant_fst]
        exact honce m rfl
  | insert m =>
    unfold work
    simp only [Site.grant_fst]
    exact .insert m
  | unlock outcome => exact .unlock outcome
  | leave outcome => exact .leave outcome

theorem Works.moves {n : Nat} {task : Task} {after : Stage} {s' : Site σ}
    (h : Works host order s n task after s') :
    Moves order.fingerprint (order.request.entries.headD "") s.depot s'.depot (.holding n task)
      after := by
  have hrestore : s.depot.SameBooks (s.restore host order.fingerprint).2.depot :=
    (Site.recounted_restore _).sameBooks
  have hload (a : Artifact) : s.depot.SameBooks (s.load host order.fingerprint a).2.depot :=
    ⟨rfl, rfl⟩
  cases h with
  | lock => exact .lock n rfl rfl
  | refuse failure hfailure => exact .refuse n failure hfailure ⟨rfl, rfl⟩
  | find m hfailure hm => exact .find n m hfailure hm (Site.recounted_serveHit m _ _).sameBooks
  | search hfailure hm => exact .search n hfailure hm ⟨rfl, rfl⟩
  | restoreFailed e h => exact .giveUp n _ _ rfl hrestore
  | restored m h => exact .goOn n _ _ rfl rfl ⟨hrestore.arena, hrestore.index⟩
  | missed h => exact .goOn n _ _ rfl rfl hrestore
  | compileRefused failure h => exact .fail n failure rfl rfl
  | compileFailed e h hne => exact .giveUp n _ _ rfl ⟨rfl, rfl⟩
  | compiled result h hextra => exact .goOn n _ _ rfl rfl ⟨rfl, rfl⟩
  | compiledOnce result h hextra => exact .goOn n _ _ rfl rfl ⟨rfl, rfl⟩
  | store a => exact .goOn n _ _ rfl rfl (Site.recounted_persist _ _).sameBooks
  | loadFailed a shared e h => exact .giveUp n _ _ rfl (hload a)
  | loaded a m h => exact .goOn n _ _ rfl rfl (hload a)
  | loadedOnce a m h =>
    refine .giveUp n _ _ rfl ?_
    rw [Site.grant_depot]
    exact hload a
  | insert m =>
    refine .insert n m _ ?_ ?_
    · rw [Site.grant_depot, Site.enter_depot]
      cases s.depot.find? order.fingerprint <;> rfl
    · rw [Site.grant_depot, Site.enter_depot]
      cases s.depot.find? order.fingerprint <;> rfl
  | unlock outcome => exact .unlock n outcome rfl rfl
  | leave outcome => exact .leave n outcome rfl rfl

theorem moves_work (n : Nat) (task : Task) :
    Moves order.fingerprint (order.request.entries.headD "") s.depot
      (work host order s n task).2.depot (.holding n task) (work host order s n task).1 :=
  (works_work host order s n task).moves

section Frame

variable {β : Type} {view : Depot → β}

/-- A part of a depot that neither the counters, the slots nor the index have a share in is
the same after every step but a compilation, and after that too if the runs have none. -/
theorem view_work (hcounters : ∀ d counters, view { d with counters } = view d)
    (harena : ∀ d arena, view { d with arena } = view d)
    (hindex : ∀ d index, view { d with index } = view d) (n : Nat) (task : Task)
    (hruns : task = .compile → ∀ d runs, view { d with runs } = view d) :
    view (work host order s n task).2.depot = view s.depot := by
  have hrecounted (d' : Depot) (h : s.depot.Recounted d') : view d' = view s.depot := by
    obtain ⟨counters, rfl⟩ := h
    exact hcounters s.depot counters
  have hrestore := hrecounted (s.restore host order.fingerprint).2.depot (Site.recounted_restore _)
  have hcompile (h : task = .compile) :
      view (s.compile host order.toPreparedRequest).2.depot = view s.depot := hruns h _ _
  have hworks := works_work host order s n task
  generalize work host order s n task = worked at hworks ⊢
  obtain ⟨after, s'⟩ := worked
  cases hworks with
  | lock => exact harena _ _
  | refuse failure hfailure => rfl
  | find m hfailure hm => exact hrecounted _ (Site.recounted_serveHit m _ _)
  | search hfailure hm => rfl
  | restoreFailed e h => exact hrestore
  | restored m h => exact (hcounters _ _).trans hrestore
  | missed h => exact hrestore
  | compileRefused failure h => exact (harena _ _).trans (hcompile rfl)
  | compileFailed e h hne => exact hcompile rfl
  | compiled result h hextra => exact (hcounters _ _).trans (hcompile rfl)
  | compiledOnce result h hextra => exact (hcounters _ _).trans (hcompile rfl)
  | store a => exact hrecounted _ (Site.recounted_persist _ _)
  | loadFailed a shared e h => rfl
  | loaded a m h => rfl
  | loadedOnce a m h => exact congrArg view (Site.grant_depot _ _)
  | insert m =>
    show view (Site.grant host _ _ _).2.depot = _
    rw [Site.grant_depot, Site.enter_depot]
    cases s.depot.find? order.fingerprint with
    | some present => rfl
    | none => exact hindex _ _
  | unlock outcome => exact harena _ _
  | leave outcome => exact harena _ _

theorem view_act (hcounters : ∀ d counters, view { d with counters } = view d)
    (harena : ∀ d arena, view { d with arena } = view d)
    (hindex : ∀ d index, view { d with index } = view d) (stage : Stage)
    (hruns : ∀ n, stage = .holding n .compile → ∀ d runs, view { d with runs } = view d) :
    view (act host order s stage).2.depot = view s.depot := by
  cases stage with
  | lookup =>
    unfold act
    cases s.depot.find? order.fingerprint with
    | some m =>
      obtain ⟨counters, hd⟩ : s.depot.Recounted
          (s.serveHit host m (order.request.entries.headD "") .memoryHit).2.depot :=
        Site.recounted_serveHit m _ _
      exact (congrArg view hd).trans (hcounters _ _)
    | none => rfl
  | join => exact harena _ _
  | holding n task =>
    exact view_work host order s hcounters harena hindex n task fun h => hruns n (h ▸ rfl)
  | finished outcome => rfl

end Frame

theorem setup_act (stage : Stage) :
    (act host order s stage).2.depot.setup = s.depot.setup :=
  view_act host order s (fun _ _ => rfl) (fun _ _ => rfl) (fun _ _ => rfl) stage
    fun _ _ _ _ => rfl

/-- Only who stands at the toolchain gives it something to do. -/
theorem runs_act (stage : Stage) (h : ∀ n, stage ≠ .holding n .compile) :
    (act host order s stage).2.depot.runs = s.depot.runs :=
  view_act host order s (fun _ _ => rfl) (fun _ _ => rfl) (fun _ _ => rfl) stage
    fun n hs => absurd hs (h n)

theorem length_runs_act_compile (n : Nat) :
    (act host order s (.holding n .compile)).2.depot.runs.length = s.depot.runs.length + 1 := by
  have hruns : (s.compile host order.toPreparedRequest).2.depot.runs.length =
      s.depot.runs.length + 1 := List.length_append
  have hworks := works_work host order s n .compile
  show (work host order s n .compile).2.depot.runs.length = _
  generalize work host order s n .compile = worked at hworks ⊢
  obtain ⟨after, s'⟩ := worked
  cases hworks <;> exact hruns

/-- Every step of a call that has not ended is one of the moves. -/
theorem moves_act (stage : Stage) (h : stage.rank ≠ 0) :
    Moves order.fingerprint (order.request.entries.headD "") s.depot
      (act host order s stage).2.depot stage (act host order s stage).1 := by
  cases stage with
  | lookup =>
    unfold act
    cases hm : s.depot.find? order.fingerprint with
    | some m =>
      simp only [serveHit_outcome]
      exact .hit m hm (Site.recounted_serveHit m _ _).sameBooks
    | none => exact .miss hm ⟨rfl, rfl⟩
  | join => exact .join rfl rfl
  | holding n task => exact moves_work host order s n task
  | finished outcome => exact absurd rfl h

/-! ## The way to the toolchain -/

section Misses

variable {host order s}

theorem act_lookup_of_none (h : s.depot.find? order.fingerprint = none) :
    act host order s .lookup = (.join, s) := by
  unfold act
  simp only
  rw [h]

theorem act_recheck_of_none {n : Nat} (hfailure : s.depot.arena.failure? n = none)
    (h : s.depot.find? order.fingerprint = none) :
    act host order s (.holding n .recheck) = (.holding n .restore, s) := by
  unfold act work
  simp only
  rw [hfailure, h]

theorem act_restore_of_none (n : Nat) (h : (s.restore host order.fingerprint).1 = .ok none) :
    act host order s (.holding n .restore) =
      (.holding n .compile, (s.restore host order.fingerprint).2.report [.miss]) := by
  unfold act work
  simp only
  generalize s.restore host order.fingerprint = restored at h ⊢
  obtain ⟨outcome, s₁⟩ := restored
  cases h
  rfl

theorem act_restore_of_error (n : Nat) {e : DeviceFailure}
    (h : (s.restore host order.fingerprint).1 = .error e) :
    act host order s (.holding n .restore) =
      (.holding n (.unlock (.error (.device e))), (s.restore host order.fingerprint).2) := by
  unfold act work
  simp only
  generalize s.restore host order.fingerprint = restored at h ⊢
  obtain ⟨outcome, s₁⟩ := restored
  cases h
  rfl

end Misses

end Call
end KernelDepot
