/-
What a call with something to compile does to the directory.

The look-up in the store comes first, then the toolchain, then the store again, and apart from
these three steps a call leaves the directory alone.  A failure to write is counted in the last
of them and nowhere else.
-/
import KernelDepot.Proofs.Artifact.Overlooked
import KernelDepot.Proofs.Artifact.Represented
import KernelDepot.Proofs.Depot.Coverage

namespace KernelDepot

open ArtifactStore

namespace Site

variable {σ : Type} {host : Host σ} {s : Site σ}

/-! ## Failures to write are counted -/

theorem persistenceFailures_serveHit (m : LoadedModule) (entry : String) (event : Event) :
    (s.serveHit host m entry event).2.depot.counters.persistenceFailures =
      s.depot.counters.persistenceFailures := by
  rw [serveHit_depot]
  rfl

theorem persistenceFailures_restore (f : Fingerprint) :
    (s.restore host f).2.depot.counters.persistenceFailures =
      s.depot.counters.persistenceFailures := by
  rcases @restore_depot σ host s f with h | ⟨-, h⟩ <;> rw [h]
  rfl

end Site

theorem Call.persistenceFailures_act {σ : Type} {host : Host σ} {order : KeyedRequest}
    {s : Site σ} (stage : Stage) (h : ∀ n a, stage ≠ .holding n (.store a)) :
    (act host order s stage).2.depot.counters.persistenceFailures =
      s.depot.counters.persistenceFailures := by
  cases stage with
  | lookup =>
    unfold act
    cases s.depot.find? order.fingerprint with
    | some m => exact Site.persistenceFailures_serveHit m _ _
    | none => rfl
  | join => rfl
  | finished outcome => rfl
  | holding n task =>
    unfold act work
    cases task with
    | lock => rfl
    | recheck =>
      simp only
      cases s.depot.arena.failure? n with
      | some failure => rfl
      | none =>
        cases s.depot.find? order.fingerprint with
        | some m => exact Site.persistenceFailures_serveHit m _ _
        | none => rfl
    | restore =>
      have hr := @Site.persistenceFailures_restore σ host s order.fingerprint
      simp only
      generalize s.restore host order.fingerprint = result at hr ⊢
      obtain ⟨outcome, s₁⟩ := result
      rcases outcome with e | m
      · exact hr
      · cases m <;> exact hr
    | compile =>
      have hr : (s.compile host order.toPreparedRequest).2.depot.counters.persistenceFailures =
        s.depot.counters.persistenceFailures := rfl
      simp only
      generalize s.compile host order.toPreparedRequest = result at hr ⊢
      obtain ⟨outcome, s₁⟩ := result
      simp only at hr
      rcases outcome with e | result
      · cases e <;> exact hr
      · simp only
        split <;> exact hr
    | store a => exact absurd rfl (h n a)
    | load a shared =>
      have hr : (s.load host order.fingerprint a).2.depot = s.depot := Site.load_depot _ a
      simp only
      generalize s.load host order.fingerprint a = loaded at hr ⊢
      obtain ⟨outcome, s₁⟩ := loaded
      simp only at hr
      cases outcome with
      | error e => rw [hr]
      | ok m =>
        cases shared with
        | true => exact congrArg (·.counters.persistenceFailures) hr
        | false =>
          show (s₁.grant host m _).2.depot.counters.persistenceFailures = _
          rw [Site.grant_depot, hr]
    | insert m =>
      simp only
      rw [Site.grant_depot, Site.enter_depot]
      cases s.depot.find? order.fingerprint <;> rfl
    | unlock outcome => rfl
    | leave outcome => rfl

def Stage.isSearching : Stage → Bool
  | .holding _ task => task.isSearching
  | _ => false

/-- A call that searches has not found its module in the index, and nobody has entered it. -/
theorem Moves.find?_eq_none {f : Fingerprint} {entry : String} {d d' : Depot}
    {before after : Stage} (h : Moves f entry d d' before after)
    (hbefore : before.isSearching → d.find? f = none) (hafter : after.isSearching) :
    d'.find? f = none := by
  cases h with
  | search n hfailure hm hd => exact (hd.find? f).trans hm
  | goOn n task task' ht ht' hd => exact (hd.find? f).trans (hbefore ht)
  | _ => exact absurd hafter Bool.false_ne_true

/-! ## Up to the toolchain -/

section
variable {σ : Type} {host : Host σ} {k : KeptFiles host.files} {order : KeyedRequest}
  {s s' : Site σ} {f : Fingerprint}

/-- A look-up in the store that finds nothing to load leaves of the entry what a miss leaves. -/
theorem Site.missed_restore (hk : k.IsObedient)
    (hdevice : ∀ call x, k.content (host.device call x).2 = k.content x)
    (he : s.depot.setup.store.enabled = true) (h : (s.restore host f).1 = .ok none) :
    Missed f (k.content s.world.outside) (k.content (s.restore host f).2.world.outside) := by
  cases ha : s.depot.setup.store.stored? (k.content s.world.outside) f with
  | none =>
    rw [(Site.restore_of_missing (k.run_load_of_none ha).1).2]
    exact hk.missed_load he ha
  | some a =>
    obtain ⟨hfound, hkept⟩ := k.run_load_of_some ha
    have hfile : (s.file host (s.depot.setup.store.load f)).1 = .ok (some a) := hfound
    unfold Site.restore at h ⊢
    simp only [hfile] at h ⊢
    generalize hs₁ : (s.file host (s.depot.setup.store.load f)).2.report
      (loadEvents (.ok (some a))) = s₁ at h ⊢
    have hcontent := Site.view_load hdevice s₁ f a
    generalize s₁.load host f a = loaded at h hcontent ⊢
    obtain ⟨outcome, s₂⟩ := loaded
    cases outcome with
    | ok m => exact nomatch h
    | error e =>
      simp only at h ⊢
      cases hfault : e.isArtifactFault with
      | false =>
        rw [hfault] at h
        exact nomatch h
      | true =>
        rw [if_pos rfl]
        exact .of_stored? ha fun name hname => hk.content_run_remove he hname

theorem Stage.goesOut_of_rank {stage : Stage} (h : 8 ≤ stage.rank) : stage.goesOut = false := by
  cases stage with
  | holding n task =>
    cases task with
    | restore => exact absurd (show 8 ≤ 7 from h) (by decide)
    | compile => exact absurd (show 8 ≤ 6 from h) (by decide)
    | store a => exact absurd (show 8 ≤ 5 from h) (by decide)
    | _ => rfl
  | _ => rfl

theorem Stage.rank_of_isCompile {stage : Stage} (h : stage.isCompile) : stage.rank = 6 := by
  cases stage with
  | holding n task =>
    cases task with
    | compile => rfl
    | _ => exact absurd h Bool.false_ne_true
  | _ => exact absurd h Bool.false_ne_true

theorem Task.eq_restore_of_rank {task : Task} (hs : task.isSearching = true) (h : 6 < task.rank) :
    task = .restore := by
  cases task with
  | restore => rfl
  | lock | recheck | unlock | leave => exact absurd hs Bool.false_ne_true
  | compile | store | load | insert => exact absurd (show 6 < _ from h) (by simp [rank])

/-- A call comes to the toolchain from a look-up in the store that found nothing to load. -/
theorem Call.restore_of_isCompile {stage : Stage} (hr : stage.rank ≠ 0)
    (h : (act host order s stage).1.isCompile) :
    ∃ n, stage = .holding n .restore ∧ (s.restore host order.fingerprint).1 = .ok none ∧
      (act host order s stage).2.world.outside =
        (s.restore host order.fingerprint).2.world.outside := by
  have hrank : 6 < stage.rank := Stage.rank_of_isCompile h ▸ rank_act_lt host order s stage hr
  obtain ⟨n, rfl⟩ : ∃ n, stage = .holding n .restore := by
    have hmoves := moves_act host order s stage hr
    generalize (act host order s stage).1 = after at h hmoves
    cases hmoves with
    | goOn n task task' ht ht' hd => exact ⟨n, by rw [Task.eq_restore_of_rank ht hrank]⟩
    | _ => exact absurd h Bool.false_ne_true
  refine ⟨n, rfl, ?_, outside_act_restore order s n⟩
  unfold act work at h
  simp only at h
  generalize s.restore host order.fingerprint = restored at h ⊢
  obtain ⟨outcome, s₁⟩ := restored
  rcases outcome with e | m
  · exact absurd h Bool.false_ne_true
  · cases m with
    | none => rfl
    | some m => exact absurd h Bool.false_ne_true

/-- What is known of a call that has not been at the toolchain yet, and was started in `s`. -/
structure Call.Nears (k : KeptFiles host.files) (order : KeyedRequest) (s s' : Site σ)
    (stage : Stage) : Prop where
  setup : s'.depot.setup = s.depot.setup
  absent : stage.isSearching → s'.depot.find? order.fingerprint = none
  failures : 6 ≤ stage.rank →
    s'.depot.counters.persistenceFailures = s.depot.counters.persistenceFailures
  kept : 7 ≤ stage.rank → k.content s'.world.outside = k.content s.world.outside
  missed : stage.isCompile →
    Missed order.fingerprint (k.content s.world.outside) (k.content s'.world.outside)

theorem Call.nears_act (hk : k.IsObedient)
    (hdevice : ∀ call x, k.content (host.device call x).2 = k.content x)
    (he : s.depot.setup.store.enabled = true) {stage : Stage} (hr : stage.rank ≠ 0)
    (h : Nears k order s s' stage) :
    Nears k order s (act host order s' stage).2 (act host order s' stage).1 := by
  have hlt := rank_act_lt host order s' stage hr
  constructor
  · exact (setup_act host order s' stage).trans h.setup
  · exact (moves_act host order s' stage hr).find?_eq_none h.absent
  · intro hrank
    refine (persistenceFailures_act stage ?_).trans (h.failures (by omega))
    rintro n a rfl
    exact absurd hlt (by show ¬ _ < 5; omega)
  · intro hrank
    exact (outside_act hdevice order s' stage (Stage.goesOut_of_rank (by omega))).trans
      (h.kept (by omega))
  · intro hcompile
    obtain ⟨n, rfl, hnone, houtside⟩ := restore_of_isCompile hr hcompile
    rw [houtside, ← h.kept (Nat.le_refl 7)]
    exact Site.missed_restore hk hdevice (by rw [h.setup]; exact he) hnone

/-! ## From the toolchain to the end -/

/-- A store that fails is counted. -/
theorem Site.persistenceFailures_persist (s : Site σ) (f : Fingerprint) (a : Artifact) :
    (s.persist host f a).depot.counters.persistenceFailures =
      s.depot.counters.persistenceFailures +
        if ((s.depot.setup.store.store f a).run host.files s.world.outside).1.isOk then 0
          else 1 := by
  have hfile : (s.file host (s.depot.setup.store.store f a)).1 =
      ((s.depot.setup.store.store f a).run host.files s.world.outside).1 := rfl
  rw [persist_depot, hfile]
  cases ((s.depot.setup.store.store f a).run host.files s.world.outside).1 with
  | error e => rfl
  | ok wrote => cases wrote <;> rfl

/-- Where the directory does what it is asked to, no call counts a failure. -/
theorem Site.persistenceFailures_getKernel {k : KeptFiles host.files} (hk : k.IsReliable)
    (s : Site σ) (path : SearchPath) (request : Request) :
    (s.getKernel host path request).2.depot.counters.persistenceFailures =
      s.depot.counters.persistenceFailures := by
  have hact (order : KeyedRequest) (s : Site σ) (stage : Stage) :
      (Call.act host order s stage).2.depot.counters.persistenceFailures =
        s.depot.counters.persistenceFailures := by
    by_cases hstore : ∃ n a, stage = .holding n (.store a)
    · obtain ⟨n, a, rfl⟩ := hstore
      refine (persistenceFailures_persist s order.fingerprint a).trans ?_
      rw [if_pos (hk.isOk_run_store ..)]
      rfl
    · exact Call.persistenceFailures_act stage fun n a hstage => hstore ⟨n, a, hstage⟩
  have hstart : (s.prepare host path request).2.depot = s.depot := rfl
  unfold getKernel
  generalize s.prepare host path request = prepared at hstart ⊢
  obtain ⟨outcome, s₁⟩ := prepared
  cases outcome with
  | error e => exact congrArg (·.counters.persistenceFailures) hstart
  | ok order =>
    refine Call.complete_induction (P := fun s' _ =>
      s'.depot.counters.persistenceFailures = s.depot.counters.persistenceFailures)
      (fun s' stage _ h => (hact order s' stage).trans h) ?_
    exact congrArg (·.counters.persistenceFailures) hstart

/-- What is known of a call that has an artifact of its own for the index, if only a module of
which `good` is true has the entry. -/
def Call.Comes (order : KeyedRequest) (a : Artifact) (good : Prop) (s : Site σ) : Stage → Prop
  | .holding _ (.load b true) => b = a ∧ s.depot.find? order.fingerprint = none
  | .holding _ (.insert m) => s.depot.find? order.fingerprint = none ∧
    ((m.function? (order.request.entries.headD "")).isSome → good)
  | .holding _ (.unlock outcome) | .holding _ (.leave outcome) | .finished outcome =>
    outcome.isOk → good
  | _ => False

theorem Call.goesOut_of_comes {a : Artifact} {good : Prop} {stage : Stage}
    (h : Comes order a good s stage) : stage.goesOut = false := by
  cases stage with
  | holding n task =>
    cases task with
    | restore | compile | store => exact h.elim
    | _ => rfl
  | _ => rfl

theorem Call.comes_act {a : Artifact} {good : Prop} {stage : Stage}
    (hload : ∀ m, (s.load host order.fingerprint a).1 = .ok m →
      (m.function? (order.request.entries.headD "")).isSome → good)
    (h : Comes order a good s stage) :
    Comes order a good (act host order s stage).2 (act host order s stage).1 := by
  cases stage with
  | holding n task =>
    cases task with
    | load b shared =>
      cases shared with
      | false => exact h.elim
      | true =>
        obtain ⟨rfl, hfind⟩ := h
        have hdepot : (s.load host order.fingerprint b).2.depot = s.depot := Site.load_depot _ b
        unfold act work
        simp only
        generalize s.load host order.fingerprint b = loaded at hload hdepot ⊢
        obtain ⟨outcome, s₁⟩ := loaded
        cases outcome with
        | error e => exact fun hok => absurd hok Bool.false_ne_true
        | ok m => exact ⟨(congrArg (·.find? order.fingerprint) hdepot).trans hfind, hload m rfl⟩
    | insert m =>
      obtain ⟨hfind, hgood⟩ := h
      unfold act work
      simp only
      rw [Site.grant_fst, Site.enter_fst, hfind, Option.getD_none]
      intro hok
      rw [LoadedModule.isOk_outcome] at hok
      exact hgood hok
    | unlock outcome => exact h
    | leave outcome => exact h
    | _ => exact h.elim
  | finished outcome => exact h
  | _ => exact h.elim

/-- From there on nothing happens to the directory, and no failure is counted. -/
theorem Call.complete_of_comes {a : Artifact} {good : Prop} {stage : Stage}
    (hdevice : ∀ call x, k.content (host.device call x).2 = k.content x)
    (hload : ∀ s' : Site σ, s'.depot.setup = s.depot.setup →
      ∀ m, (s'.load host order.fingerprint a).1 = .ok m →
        (m.function? (order.request.entries.headD "")).isSome → good)
    (h : Comes order a good s stage) :
    k.content (complete host order s stage).2.world.outside = k.content s.world.outside ∧
      (complete host order s stage).2.depot.counters.persistenceFailures =
        s.depot.counters.persistenceFailures ∧
      ((complete host order s stage).1.isOk → good) := by
  have hend := complete_induction
    (P := fun s' stage => Comes order a good s' stage ∧ s'.depot.setup = s.depot.setup ∧
      k.content s'.world.outside = k.content s.world.outside ∧
      s'.depot.counters.persistenceFailures = s.depot.counters.persistenceFailures)
    (fun s' stage _ hP => by
      obtain ⟨hcomes, hsetup, hcontent, hfailures⟩ := hP
      have hout := goesOut_of_comes hcomes
      refine ⟨comes_act (hload s' hsetup) hcomes, (setup_act host order s' stage).trans hsetup,
        (outside_act hdevice order s' stage hout).trans hcontent, ?_⟩
      refine (persistenceFailures_act stage ?_).trans hfailures
      rintro n b rfl
      exact absurd hout.symm Bool.false_ne_true)
    (s := s) ⟨h, rfl, rfl, rfl⟩
  exact ⟨hend.2.2.1, hend.2.2.2, hend.1⟩

/-- A call that has a result to keep leaves of the surroundings what storing it leaves, and if
the store fails then it has counted that. -/
theorem Call.complete_of_store {n : Nat} {a : Artifact} {good : Prop}
    (hdevice : ∀ call x, k.content (host.device call x).2 = k.content x)
    (hfind : s.depot.find? order.fingerprint = none)
    (hload : ∀ s' : Site σ, s'.depot.setup = s.depot.setup →
      ∀ m, (s'.load host order.fingerprint a).1 = .ok m →
        (m.function? (order.request.entries.headD "")).isSome → good) :
    (complete host order s (.holding n (.store a))).2.depot.counters.persistenceFailures =
        s.depot.counters.persistenceFailures +
          (if ((s.depot.setup.store.store order.fingerprint a).run host.files
            s.world.outside).1.isOk then 0 else 1) ∧
      k.content (complete host order s (.holding n (.store a))).2.world.outside =
        k.content ((s.depot.setup.store.store order.fingerprint a).run host.files
          s.world.outside).2 ∧
      ((complete host order s (.holding n (.store a))).1.isOk → good) := by
  rw [complete_eq_of_rank (show (Stage.holding n (.store a)).rank ≠ 0 from Nat.succ_ne_zero 4)]
  have hsetup : (s.persist host order.fingerprint a).depot.setup = s.depot.setup :=
    setup_act host order s (.holding n (.store a))
  have hpersist := (@Site.recounted_persist σ host s order.fingerprint a).sameBooks.find?
    order.fingerprint
  have hcomes : Comes order a good (s.persist host order.fingerprint a)
      (.holding n (.load a true)) := ⟨rfl, hpersist.trans hfind⟩
  obtain ⟨hcontent, hfailures, hgood⟩ := complete_of_comes hdevice
    (fun s' hs' => hload s' (hs'.trans hsetup)) hcomes
  rw [← Site.persistenceFailures_persist, ← Site.outside_persist]
  exact ⟨hfailures, hcontent, hgood⟩

namespace Site

variable {path : SearchPath} {request : Request} {s₁ : Site σ} {n : Nat} {result : Compilation}

/-- What is known of a call that has come to the toolchain, and what is left of it. -/
theorem nears_compile (hk : k.IsObedient)
    (hdevice : ∀ call x, k.content (host.device call x).2 = k.content x)
    (he : s.depot.setup.store.enabled = true)
    (hprepare : (s.prepare host path request).1 = .ok order)
    (hreach : Call.advance host Stage.isCompile (s.prepare host path request).2
      ⟨order, .lookup⟩ = (⟨order, .holding n .compile⟩, s₁)) :
    Call.Nears k order s s₁ (.holding n .compile) ∧
      s.getKernel host path request = Call.complete host order s₁ (.holding n .compile) := by
  have hstart : Call.Nears k order s (s.prepare host path request).2 .lookup :=
    ⟨rfl, fun h => absurd h Bool.false_ne_true, fun _ => rfl, fun _ => rfl,
      fun h => absurd h Bool.false_ne_true⟩
  obtain ⟨hnears, hcomplete⟩ := Call.advance_induction
    (fun s' stage hr h => Call.nears_act hk hdevice he hr h) hstart
  rw [hreach] at hnears hcomplete
  exact ⟨hnears, (getKernel_of_prepare hprepare).trans hcomplete.symm⟩

/-- A call that has compiled for itself and others leaves what storing the result leaves, in a
directory where the look-up before has missed.  If the store fails then that is counted. -/
theorem getKernel_stores (hk : k.IsObedient)
    (hcompile : ∀ job x, k.content (host.compile job x).2 = k.content x)
    (hdevice : ∀ call x, k.content (host.device call x).2 = k.content x)
    (he : s.depot.setup.store.enabled = true)
    (hprepare : (s.prepare host path request).1 = .ok order)
    (hreach : Call.advance host Stage.isCompile (s.prepare host path request).2
      ⟨order, .lookup⟩ = (⟨order, .holding n .compile⟩, s₁))
    (hresult : (s₁.compile host order.toPreparedRequest).1 = .ok result)
    (hforeseen : ¬ s₁.StraysFrom host order.toPreparedRequest) (good : Prop)
    (hload : ∀ s' : Site σ, s'.depot.setup = s.depot.setup →
      ∀ m, (s'.load host order.fingerprint result.artifact).1 = .ok m →
        (m.function? (order.request.entries.headD "")).isSome → good) :
    ∃ x, Missed order.fingerprint (k.content s.world.outside) (k.content x) ∧
      (s.getKernel host path request).2.depot.counters.persistenceFailures =
        s.depot.counters.persistenceFailures +
          (if ((s.depot.setup.store.store order.fingerprint result.artifact).run host.files
            x).1.isOk then 0 else 1) ∧
      k.content (s.getKernel host path request).2.world.outside =
        k.content ((s.depot.setup.store.store order.fingerprint result.artifact).run
          host.files x).2 ∧
      ((s.getKernel host path request).1.isOk → good) := by
  obtain ⟨hnears, hget⟩ := nears_compile hk hdevice he hprepare hreach
  have hwork : Call.act host order s₁ (.holding n .compile) = _ := work_compile hresult
  rw [(extra_eq_nil_iff hresult).mpr hforeseen, List.isEmpty_nil, if_pos rfl] at hwork
  have hrank : (Stage.holding n .compile).rank ≠ 0 := Nat.succ_ne_zero 5
  rw [Call.complete_eq_of_rank hrank, hwork] at hget
  generalize hs₂ : (s₁.compile host order.toPreparedRequest).2.mapDepot
    (·.count fun c => { c with compilations := c.compilations + 1 }) = s₂ at hget
  have hsetup : s₂.depot.setup = s.depot.setup := by
    rw [← hs₂]
    exact hnears.setup
  have hfind : s₂.depot.find? order.fingerprint = none := by
    rw [← hs₂]
    exact hnears.absent rfl
  have hfailures : s₂.depot.counters.persistenceFailures =
      s.depot.counters.persistenceFailures := by
    rw [← hs₂]
    exact hnears.failures (Nat.le_refl 6)
  have hend := Call.complete_of_store (n := n) (a := result.artifact) hdevice hfind
    fun s' hs' => hload s' (hs'.trans hsetup)
  rw [← hget, hsetup, hfailures] at hend
  have hmissed := hnears.missed rfl
  rw [← hcompile order.job s₁.world.outside] at hmissed
  refine ⟨s₂.world.outside, ?_, hend⟩
  rw [← hs₂]
  exact hmissed

end Site
end
end KernelDepot
