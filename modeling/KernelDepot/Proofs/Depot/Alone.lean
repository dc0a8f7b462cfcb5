/-
A call that is alone.

What every step of a call keeps holds when the call has ended.  A call that is alone never
has to wait, it finds no failure in its slot, and it leaves the depot idle.  What it does before
it comes to the store and when it goes out touches only the slots.
-/
import KernelDepot.Proofs.Depot.Turns

namespace KernelDepot

structure Depot.IsIdle (d : Depot) : Prop where
  listed : d.arena.listed = []
  slots : d.arena.slots = []

namespace Depot.Sound

variable {d : Depot} {c : Call}

theorem of_isIdle (h : d.IsIdle) (order : KeyedRequest) : d.Sound [⟨order, .lookup⟩] := by
  have hquiet : (⟨⟨d, ⟨(), [], []⟩⟩, []⟩ : Traffic Unit).IsQuiet := ⟨rfl, h.listed, h.slots⟩
  exact hquiet.sound.arrive order

theorem isIdle (h : d.Sound [c]) (hc : c.stage.isHolding = false) : d.IsIdle := by
  have hempty := Traffic.empty_of_sound (t := (⟨⟨d, ⟨(), [], []⟩⟩, [c]⟩ : Traffic Unit)) h
    fun c' hc' => List.mem_singleton.mp hc' ▸ hc
  exact ⟨hempty.1, hempty.2⟩

/-- Nobody else has the lock. -/
theorem isBlocked_eq_false (h : d.Sound [c]) : c.isBlocked d = false := by
  unfold Call.isBlocked
  split
  next n hs =>
    obtain ⟨slot, hslot, -, -, hl⟩ := h.books.slot c.fingerprint n
      (h.head_taken (by rw [hs]; exact decide_eq_true rfl))
    have hzero : Call.workers [c] n = 0 := by
      rw [Call.workers_cons, hs]
      simp [Call.workers, Stage.works, Task.isWorking]
    unfold Arena.isLocked
    rw [hslot]
    cases hlocked : slot.locked with
    | false => exact hlocked
    | true =>
      rw [hlocked, hzero] at hl
      exact absurd hl Nat.one_ne_zero
  next => rfl

/-- The slot of a call that has taken it as the first remembers nothing. -/
theorem failure?_join_of_isIdle (h : d.Sound [c]) (hidle : d.IsIdle) (f : Fingerprint) :
    (d.arena.join f).2.failure? (d.arena.join f).1 = none := by
  rw [h.books.failure?_join]
  unfold Arena.failure? Arena.slot?
  rw [hidle.slots]
  rfl

end Depot.Sound

namespace Call

variable {σ : Type} {host : Host σ} {order : KeyedRequest}

/-- What every step of a call keeps holds when the call has ended. -/
theorem complete_induction {P : Site σ → Stage → Prop}
    (hstep : ∀ s stage, stage.rank ≠ 0 → P s stage →
      P (act host order s stage).2 (act host order s stage).1)
    {s : Site σ} {stage : Stage} (h : P s stage) :
    P (complete host order s stage).2 (.finished (complete host order s stage).1) := by
  induction hrank : stage.rank using Nat.strongRecOn generalizing s stage with
  | ind n ih =>
    unfold complete
    by_cases hr : stage.rank = 0
    · rw [dif_pos hr]
      obtain ⟨outcome, rfl⟩ := Stage.eq_finished_of_rank hr
      exact h
    · rw [dif_neg hr]
      have hlt := rank_act_lt host order s stage hr
      exact ih _ (hrank ▸ hlt) (hstep s stage hr h) rfl

/-- A call that is alone may take for granted that the slots are as they should be. -/
theorem complete_induction_of_sound {P : Site σ → Stage → Prop}
    (hstep : ∀ s stage, stage.rank ≠ 0 → s.depot.Sound [⟨order, stage⟩] → P s stage →
      P (act host order s stage).2 (act host order s stage).1)
    {s : Site σ} {stage : Stage} (hsound : s.depot.Sound [⟨order, stage⟩]) (h : P s stage) :
    P (complete host order s stage).2 (.finished (complete host order s stage).1) ∧
      (complete host order s stage).2.depot.IsIdle := by
  obtain ⟨hend, hP⟩ := complete_induction
    (P := fun s stage => s.depot.Sound [⟨order, stage⟩] ∧ P s stage)
    (fun s stage hr h =>
      ⟨h.1.move h.1.isBlocked_eq_false (moves_act host order s stage hr), hstep s stage hr h.1 h.2⟩)
    ⟨hsound, h⟩
  exact ⟨hP, hend.isIdle rfl⟩

theorem complete_finished (s : Site σ) (outcome : Outcome) :
    complete host order s (.finished outcome) = (outcome, s) := by
  rw [complete]
  exact dif_pos rfl

/-- What is left of a call is what is left of it after its next step. -/
theorem complete_eq_of_rank {s : Site σ} {stage : Stage} (hr : stage.rank ≠ 0) :
    complete host order s stage =
      complete host order (act host order s stage).2 (act host order s stage).1 := by
  rw [complete.eq_1 host order s stage, dif_neg hr]

theorem complete_of_hit {s : Site σ} {m : LoadedModule}
    (h : s.depot.find? order.fingerprint = some m) :
    complete host order s .lookup =
      s.serveHit host m (order.request.entries.headD "") .memoryHit := by
  rw [complete_eq_of_rank (by decide)]
  unfold act
  simp only [h]
  exact complete_finished _ _

/-- What two calls that are at stages of the same rank keep in common holds when both have
ended. -/
theorem complete_induction₂ {τ : Type} {host' : Host τ}
    {R : Site σ → Stage → Site τ → Stage → Prop}
    (hrank : ∀ s stage s' stage', R s stage s' stage' → stage'.rank = stage.rank)
    (hstep : ∀ s stage s' stage', stage.rank ≠ 0 → R s stage s' stage' →
      R (act host order s stage).2 (act host order s stage).1
        (act host' order s' stage').2 (act host' order s' stage').1)
    {s : Site σ} {s' : Site τ} {stage stage' : Stage} (h : R s stage s' stage') :
    R (complete host order s stage).2 (.finished (complete host order s stage).1)
      (complete host' order s' stage').2 (.finished (complete host' order s' stage').1) := by
  induction hn : stage.rank using Nat.strongRecOn generalizing s stage s' stage' with
  | ind n ih =>
    have hsame := hrank _ _ _ _ h
    by_cases hr : stage.rank = 0
    · obtain ⟨outcome, rfl⟩ := Stage.eq_finished_of_rank hr
      obtain ⟨outcome', rfl⟩ := Stage.eq_finished_of_rank (hsame.trans hr)
      rw [complete_finished, complete_finished]
      exact h
    · have hr' : stage'.rank ≠ 0 := hsame ▸ hr
      rw [complete_eq_of_rank hr, complete_eq_of_rank hr']
      exact ih _ (hn ▸ rank_act_lt host order s stage hr) (hstep _ _ _ _ hr h) rfl

/-- What every step of a call keeps holds wherever the call is brought, and what is left of the
call is what was left of it there. -/
theorem advance_induction {stop : Stage → Bool} {P : Site σ → Stage → Prop}
    (hstep : ∀ s stage, stage.rank ≠ 0 → P s stage →
      P (act host order s stage).2 (act host order s stage).1)
    {s : Site σ} {stage : Stage} (h : P s stage) :
    P (advance host stop s ⟨order, stage⟩).2 (advance host stop s ⟨order, stage⟩).1.stage ∧
      complete host order (advance host stop s ⟨order, stage⟩).2
        (advance host stop s ⟨order, stage⟩).1.stage = complete host order s stage := by
  induction hrank : stage.rank using Nat.strongRecOn generalizing s stage with
  | ind n ih =>
    unfold advance
    by_cases hr : stage.rank = 0
    · rw [if_pos hr]
      exact ⟨h, rfl⟩
    · rw [if_neg hr]
      split
      · exact ⟨h, rfl⟩
      · have hlt := rank_act_lt host order s stage hr
        obtain ⟨hP, hcomplete⟩ := ih _ (hrank ▸ hlt) (hstep s stage hr h) rfl
        exact ⟨hP, hcomplete.trans (complete_eq_of_rank hr).symm⟩

/-- A call that is alone goes on where it may not stop. -/
theorem advance_of_act (stop : Stage → Bool) {s s' : Site σ}
    {stage stage' : Stage}
    (hsound : s.depot.Sound [⟨order, stage⟩]) (hr : stage.rank ≠ 0) (hstop : stop stage = false)
    (h : act host order s stage = (stage', s')) :
    advance host stop s ⟨order, stage⟩ = advance host stop s' ⟨order, stage'⟩ ∧
      s'.depot.Sound [⟨order, stage'⟩] := by
  have hblocked := hsound.isBlocked_eq_false
  have hsound' := hsound.move hblocked (moves_act host order s stage hr)
  rw [h] at hsound'
  refine ⟨?_, hsound'⟩
  rw [advance, if_neg hr]
  simp only
  rw [hstop, hblocked, Bool.or_self, if_neg Bool.false_ne_true, h]

end Call

/-! ## From the index to the toolchain -/

/-- The slot that a call for a fingerprint takes now remembers no failure. -/
def Depot.Admits (d : Depot) (f : Fingerprint) : Prop :=
  (d.arena.join f).2.failure? (d.arena.join f).1 = none

theorem Depot.IsIdle.admits {d : Depot} (h : d.IsIdle) (order : KeyedRequest) :
    d.Admits order.fingerprint :=
  (Sound.of_isIdle h order).failure?_join_of_isIdle h order.fingerprint

namespace Call

variable {σ : Type} {host : Host σ} {order : KeyedRequest} {s : Site σ}

/-- A call that does not find its fingerprint in the index comes to the store, and on the way
there only the slots have changed. -/
theorem acts_to_restore (host : Host σ) (hfind : s.depot.find? order.fingerprint = none)
    (hslot : s.depot.Admits order.fingerprint) :
    ∃ n s₁ s₂, act host order s .lookup = (.join, s) ∧
      act host order s .join = (.holding n .lock, s₁) ∧
      act host order s₁ (.holding n .lock) = (.holding n .recheck, s₂) ∧
      act host order s₂ (.holding n .recheck) = (.holding n .restore, s₂) ∧
      s₂.world = s.world ∧ ∃ arena, s₂.depot = { s.depot with arena } := by
  have hfailure : ((s.depot.arena.join order.fingerprint).2.update
      (s.depot.arena.join order.fingerprint).1 fun slot => { slot with locked := true }).failure?
        (s.depot.arena.join order.fingerprint).1 = none := by
    rw [Arena.failure?_update_of_eq]
    · exact hslot
    · exact fun _ => rfl
  exact ⟨_, _, _, act_lookup_of_none hfind, rfl, rfl, act_recheck_of_none hfailure hfind, rfl, _,
    rfl⟩

/-- What is left of a call that has not found its fingerprint in the index. -/
theorem complete_lookup_of_none (host : Host σ) (hfind : s.depot.find? order.fingerprint = none)
    (hslot : s.depot.Admits order.fingerprint) :
    ∃ n s', complete host order s .lookup = complete host order s' (.holding n .restore) ∧
      s'.world = s.world ∧ ∃ arena, s'.depot = { s.depot with arena } := by
  obtain ⟨n, s₁, s₂, hlookup, hjoin, hlock, hrecheck, hrest⟩ := acts_to_restore host hfind hslot
  refine ⟨n, s₂, ?_, hrest⟩
  rw [complete_eq_of_rank Nat.noConfusion, hlookup, complete_eq_of_rank Nat.noConfusion, hjoin,
    complete_eq_of_rank Nat.noConfusion, hlock, complete_eq_of_rank Nat.noConfusion, hrecheck]

/-- A call that goes out with an outcome changes only the slots. -/
theorem complete_unlock (host : Host σ) (order : KeyedRequest) (s : Site σ) (n : Nat)
    (outcome : Outcome) :
    (complete host order s (.holding n (.unlock outcome))).1 = outcome ∧
      (complete host order s (.holding n (.unlock outcome))).2.world = s.world ∧
      ∃ arena, (complete host order s (.holding n (.unlock outcome))).2.depot =
        { s.depot with arena } := by
  have hunlock : (Stage.holding n (.unlock outcome)).rank ≠ 0 := Nat.succ_ne_zero 1
  have hleave : (Stage.holding n (.leave outcome)).rank ≠ 0 := Nat.succ_ne_zero 0
  rw [complete_eq_of_rank hunlock]
  unfold act work
  simp only
  rw [complete_eq_of_rank hleave]
  unfold act work
  simp only
  rw [complete_finished]
  exact ⟨rfl, rfl, _, rfl⟩

theorem complete_restore_of_error (n : Nat) {e : DeviceFailure}
    (h : (s.restore host order.fingerprint).1 = .error e) :
    (complete host order s (.holding n .restore)).1 = .error (.device e) ∧
      (complete host order s (.holding n .restore)).2.world =
        (s.restore host order.fingerprint).2.world ∧
      ∃ arena, (complete host order s (.holding n .restore)).2.depot =
        { (s.restore host order.fingerprint).2.depot with arena } := by
  have hrank : (Stage.holding n .restore).rank ≠ 0 := Nat.succ_ne_zero 6
  rw [complete_eq_of_rank hrank, act_restore_of_error n h]
  exact complete_unlock host order _ n _

theorem complete_restore_of_none (n : Nat) (h : (s.restore host order.fingerprint).1 = .ok none) :
    complete host order s (.holding n .restore) =
      complete host order ((s.restore host order.fingerprint).2.report [.miss])
        (.holding n .compile) := by
  have hrank : (Stage.holding n .restore).rank ≠ 0 := Nat.succ_ne_zero 6
  rw [complete_eq_of_rank hrank, act_restore_of_none n h]

end Call

theorem Site.getKernel_of_prepare_error {σ : Type} {host : Host σ} {s : Site σ} {path : SearchPath}
    {request : Request} {e : Failure} (h : (s.prepare host path request).1 = .error e) :
    s.getKernel host path request = (.error e, (s.prepare host path request).2) := by
  unfold getKernel
  rw [show s.prepare host path request = (.error e, (s.prepare host path request).2) from
    Prod.ext h rfl]

theorem Site.getKernel_of_prepare {σ : Type} {host : Host σ} {s : Site σ} {path : SearchPath}
    {request : Request} {order : KeyedRequest}
    (h : (s.prepare host path request).1 = .ok order) :
    s.getKernel host path request =
      Call.complete host order (s.prepare host path request).2 .lookup := by
  unfold getKernel
  generalize s.prepare host path request = prepared at h ⊢
  obtain ⟨outcome, s₁⟩ := prepared
  cases h
  rfl

end KernelDepot
