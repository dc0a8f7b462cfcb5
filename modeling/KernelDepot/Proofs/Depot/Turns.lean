/-
What a depot promises about calls at the same time.

The promises are about any number of calls for any fingerprints that take turns in any
order, from a time when nobody was on the way.  They do not depend on what the toolchain,
the device and the disk do, and every path on which a call can end is among the turns.
-/
import KernelDepot.Proofs.Depot.Traffic
import Mathlib.Algebra.GroupWithZero.Nat

namespace KernelDepot

namespace Stage

/-- Whether a call has taken a slot and not left it yet. -/
def isHolding : Stage → Bool
  | holding .. => true
  | _ => false

/-- Whether a call has locked its slot and not unlocked it yet. -/
def isWorking : Stage → Bool
  | holding _ task => task.isWorking
  | _ => false

theorem isHolding_iff {stage : Stage} : stage.isHolding ↔ ∃ n, stage.holds n := by
  cases stage with
  | holding n task => exact ⟨fun _ => ⟨n, decide_eq_true rfl⟩, fun _ => rfl⟩
  | _ => exact ⟨fun h => absurd h Bool.false_ne_true, fun ⟨_, h⟩ => absurd h Bool.false_ne_true⟩

theorem isHolding_of_isWorking {stage : Stage} (h : stage.isWorking) : stage.isHolding := by
  cases stage with
  | holding n task => rfl
  | _ => exact absurd h Bool.false_ne_true

theorem works_of_isWorking {stage : Stage} {n : Nat} (hn : stage.holds n)
    (h : stage.isWorking) : stage.works n := by
  cases stage with
  | holding m task => exact Bool.and_eq_true_iff.mpr ⟨hn, h⟩
  | _ => exact absurd h Bool.false_ne_true

end Stage

/-- Whatever a step does, a module that the index has stays in it. -/
theorem Moves.find?_eq_some {f g : Fingerprint} {entry : String} {d d' : Depot}
    {before after : Stage} {m : LoadedModule} (h : Moves f entry d d' before after)
    (hm : d.find? g = some m) : d'.find? g = some m := by
  rcases h.index_cases with hindex | ⟨n, m', -, hf, hindex⟩
  · rw [Depot.find?_of_index hindex, hm]
  · have hg : g ≠ f := by
      intro e
      rw [e, hf] at hm
      exact nomatch hm
    rw [Depot.find?_of_index_append hindex hf, if_neg hg, hm]

namespace Traffic

variable {σ : Type} {host : Host σ} {t : Traffic σ}

theorem find?_next {f : Fingerprint} {m : LoadedModule} (h : t.site.depot.find? f = some m)
    (move : Move σ) : (t.next host move).site.depot.find? f = some m := by
  cases move with
  | arrive path request =>
    show (t.arrive host path request).site.depot.find? f = some m
    have hd : (t.arrive host path request).site.depot = t.site.depot := by
      unfold arrive
      cases hp : t.site.prepare host path request with
      | mk outcome site => cases outcome <;> exact congrArg (·.2.depot) hp.symm
    rw [hd]
    exact h
  | turn i =>
    show (t.turn host i).site.depot.find? f = some m
    rcases t.turn_cases i with he | ⟨c, others, stage, -, -, -, hmove⟩
    · rw [he]
      exact h
    · exact hmove.find?_eq_some h
  | outside world => exact h

theorem find?_run {f : Fingerprint} {m : LoadedModule} (h : t.site.depot.find? f = some m)
    (moves : List (Move σ)) : (t.run host moves).site.depot.find? f = some m := by
  induction moves generalizing t with
  | nil => exact h
  | cons move moves ih => exact ih (find?_next h move)

/-! ## One at a time -/

/-- What a depot promises about the calls to it. -/
structure Serialized (host : Host σ) (t : Traffic σ) : Prop where
  exclusive : ∀ f, t.calls.countP (fun c => c.fingerprint = f && c.stage.isWorking) ≤ 1
  /-- A fingerprint has a slot exactly if a call for it has taken one, and it is that one. -/
  listed : ∀ f, (t.site.depot.arena.find? f).isSome ↔
    ∃ c ∈ t.calls, c.fingerprint = f ∧ c.stage.isHolding
  taken : ∀ c ∈ t.calls, ∀ n task, c.stage = .holding n task →
    t.site.depot.arena.find? c.fingerprint = some n
  /-- Nothing is left when everybody is gone. -/
  empty : (∀ c ∈ t.calls, c.stage.isHolding = false) →
    t.site.depot.arena.listed = [] ∧ t.site.depot.arena.slots = []
  /-- A fingerprint whose slot remembers a failure has no module. -/
  failed : ∀ f n e, t.site.depot.arena.find? f = some n →
    t.site.depot.arena.failure? n = some e → t.site.depot.find? f = none
  /-- A module that was entered stays, whatever happens.  The toolchain is given nothing more
  to do for its fingerprint, and whoever looks for it finds it. -/
  kept : ∀ f m, t.site.depot.find? f = some m → ∀ moves,
    let later := t.run host moves
    later.site.depot.find? f = some m ∧
      ∀ c ∈ later.calls, c.fingerprint = f →
        let (stage, site) := Call.act host c.order later.site c.stage
        (∀ n, c.stage ≠ .holding n .compile) ∧ site.depot.runs = later.site.depot.runs ∧
          (c.stage = .lookup → stage = .finished (m.outcome c.entry)) ∧
          ∀ n, c.stage = .holding n .recheck → stage = .holding n (.unlock (m.outcome c.entry))

theorem exclusive_of_sound (h : t.site.depot.Sound t.calls) (f : Fingerprint) :
    t.calls.countP (fun c => c.fingerprint = f && c.stage.isWorking) ≤ 1 := by
  cases hn : t.site.depot.arena.find? f with
  | some n =>
    -- All who work for the fingerprint have the lock of the same slot.
    refine Nat.le_trans (List.countP_mono_left fun c hc hcw => ?_) (h.workers_le_one n)
    obtain ⟨hcf, hw⟩ := Bool.and_eq_true_iff.mp hcw
    have hcf : c.fingerprint = f := of_decide_eq_true hcf
    obtain ⟨m, hm⟩ := Stage.isHolding_iff.mp (Stage.isHolding_of_isWorking hw)
    have htaken := h.taken c hc m hm
    rw [hcf, hn] at htaken
    rw [Option.some.inj htaken]
    exact Stage.works_of_isWorking hm hw
  | none =>
    refine Nat.le_trans (Nat.le_of_eq (List.countP_eq_zero.mpr fun c hc hcw => ?_)) (Nat.zero_le 1)
    obtain ⟨hcf, hw⟩ := Bool.and_eq_true_iff.mp hcw
    have hcf : c.fingerprint = f := of_decide_eq_true hcf
    obtain ⟨m, hm⟩ := Stage.isHolding_iff.mp (Stage.isHolding_of_isWorking hw)
    have htaken := h.taken c hc m hm
    rw [hcf, hn] at htaken
    exact nomatch htaken

theorem listed_of_sound (h : t.site.depot.Sound t.calls) (f : Fingerprint) :
    (t.site.depot.arena.find? f).isSome ↔ ∃ c ∈ t.calls, c.fingerprint = f ∧ c.stage.isHolding := by
  constructor
  · intro hf
    obtain ⟨n, hn⟩ := Option.isSome_iff_exists.mp hf
    obtain ⟨slot, -, -, hpos, -⟩ := h.books.slot f n hn
    obtain ⟨c, hc, hcn⟩ := List.countP_pos_iff.mp hpos
    exact ⟨c, hc, h.books.inj _ _ n (h.taken c hc n hcn) hn, Stage.isHolding_iff.mpr ⟨n, hcn⟩⟩
  · rintro ⟨c, hc, rfl, hhold⟩
    obtain ⟨n, hn⟩ := Stage.isHolding_iff.mp hhold
    rw [h.taken c hc n hn]
    rfl

theorem empty_of_sound (h : t.site.depot.Sound t.calls)
    (hidle : ∀ c ∈ t.calls, c.stage.isHolding = false) :
    t.site.depot.arena.listed = [] ∧ t.site.depot.arena.slots = [] := by
  have hfind (f : Fingerprint) : t.site.depot.arena.find? f = none := by
    by_contra hne
    obtain ⟨c, hc, -, hhold⟩ := (listed_of_sound h f).mp (Option.isSome_iff_ne_none.mpr hne)
    exact Bool.false_ne_true ((hidle c hc).symm.trans hhold)
  constructor
  · refine List.eq_nil_iff_forall_not_mem.mpr fun entry hmem => ?_
    have hne := List.lookup_eq_none_iff.mp (hfind entry.1) entry hmem
    rw [bne_self_eq_false] at hne
    exact Bool.false_ne_true hne
  · refine List.eq_nil_iff_forall_not_mem.mpr fun entry hmem => ?_
    cases hslot : t.site.depot.arena.slot? entry.1 with
    | none =>
      have hne := List.lookup_eq_none_iff.mp hslot entry hmem
      rw [bne_self_eq_false] at hne
      exact Bool.false_ne_true hne
    | some slot =>
      obtain ⟨f, hf⟩ := h.books.listed _ slot hslot
      rw [hfind] at hf
      exact nomatch hf

/-- What a call does whose fingerprint has a module. -/
theorem act_of_find? (h : t.site.depot.Sound t.calls) {c : Call} (hc : c ∈ t.calls)
    {m : LoadedModule} (hm : t.site.depot.find? c.fingerprint = some m) :
    (∀ n, c.stage ≠ .holding n .compile) ∧
      (c.stage = .lookup →
        (Call.act host c.order t.site c.stage).1 = .finished (m.outcome c.entry)) ∧
      ∀ n, c.stage = .holding n .recheck →
        (Call.act host c.order t.site c.stage).1 = .holding n (.unlock (m.outcome c.entry)) := by
  refine ⟨fun n hs => ?_, fun hs => ?_, fun n hs => ?_⟩
  · have hsearches : c.stage.searches n = true := by
      rw [hs]
      simp [Stage.searches, Task.isSearching]
    rw [(h.searching c hc n hsearches).1] at hm
    cases hm
  · rw [hs]
    unfold Call.act
    rw [show t.site.depot.find? c.order.fingerprint = some m from hm]
    simp only [Call.serveHit_outcome]
    rfl
  · -- The slot remembers no failure, since there is a module.
    have hholds : c.stage.holds n = true := by
      rw [hs]
      exact decide_eq_true rfl
    have hf : t.site.depot.arena.failure? n = none := by
      rcases h.failed _ n (h.taken c hc n hholds) with hnone | hf
      · rw [hnone] at hm
        cases hm
      · exact hf
    rw [hs]
    unfold Call.act Call.work
    simp only [hf]
    rw [show t.site.depot.find? c.order.fingerprint = some m from hm]
    simp only [Call.serveHit_outcome]
    rfl

theorem serialized_of_sound (h : t.site.depot.Sound t.calls) : t.Serialized host where
  exclusive := exclusive_of_sound h
  listed := listed_of_sound h
  taken c hc n task hs := h.taken c hc n (by rw [hs]; exact decide_eq_true rfl)
  empty := empty_of_sound h
  failed f n e hn he := by
    rcases h.failed f n hn with hm | hnone
    · exact hm
    · rw [hnone] at he
      exact nomatch he
  kept f m hm moves := by
    refine ⟨find?_run hm moves, ?_⟩
    rintro c hc rfl
    obtain ⟨hstage, hlookup, hrecheck⟩ := act_of_find? (sound_run h moves) hc (find?_run hm moves)
    exact ⟨hstage, Call.runs_act host c.order _ c.stage hstage, hlookup, hrecheck⟩

/-- From a quiet time on, calls are served one at a time for each fingerprint, however many
there are and however they take turns. -/
theorem serialized_run (host : Host σ) {start : Traffic σ} (h : start.IsQuiet)
    (moves : List (Move σ)) : (start.run host moves).Serialized host :=
  serialized_of_sound (sound_run h.sound moves)

/-! ### Two calls for one fingerprint -/

/-- Surroundings without files, with a device that agrees to everything and a toolchain that
always fails. -/
def bench : Host Unit where
  disk _ := {}
  files op s := (match op with
    | .isFile _ => false
    | .read _ | .write .. | .rename .. | .delete _ | .list | .size _ => .error .notFound
    | .ticket => ⟨0, 0⟩, s)
  device call s := (match call with
    | .bind | .unload _ | .copy .. | .launch .. => .ok ()
    | .load _ | .getFunction .. => .ok 0
    | .getGlobal .. => .ok ⟨0, 0⟩
    | .occupancy _ => .ok ⟨1, 1⟩, s)
  compile _ s := (.done (.error "out of order"), s)

def unused : Traffic Unit where
  site :=
    { depot := { setup :=
        { toolchain := ⟨"t", "1"⟩, deviceId := 0, device := ⟨0, "", (8, 0)⟩, store := .disabled } }
      world := { outside := () } }

def plainRequest : Request := { entries := ["k"], source := .inline "", arch := "sm_80" }

def arrival : Move Unit := .arrive ⟨[], 0⟩ plainRequest

/-- Two requests come in, both calls take the slot, and the first of them its lock. -/
def rush : List (Move Unit) :=
  [arrival, arrival, .turn 0, .turn 1, .turn 0, .turn 1, .turn 0, .turn 1]

theorem prepare_plainRequest : ∃ order,
    (unused.site.depot.prepare {} ⟨[], 0⟩ plainRequest).outcome = .ok order := by
  have hok : (unused.site.depot.prepare {} ⟨[], 0⟩ plainRequest).outcome.toOption.isSome := by
    decide +kernel
  cases h : (unused.site.depot.prepare {} ⟨[], 0⟩ plainRequest).outcome with
  | error e =>
    rw [h] at hok
    exact absurd hok Bool.false_ne_true
  | ok order => exact ⟨order, rfl⟩

theorem calls_rush : ∃ order, (unused.run bench rush).calls =
    [⟨order, .holding 0 .recheck⟩, ⟨order, .holding 0 .lock⟩] := by
  obtain ⟨order, hok⟩ := prepare_plainRequest
  refine ⟨order, ?_⟩
  generalize hevents : (unused.site.depot.prepare {} ⟨[], 0⟩ plainRequest).events = new
  have harrive (events : List Event) (calls : List Call) :
      next bench ⟨⟨unused.site.depot, ⟨(), [], events⟩⟩, calls⟩ arrival =
        ⟨⟨unused.site.depot, ⟨(), [], events ++ new⟩⟩, calls ++ [⟨order, .lookup⟩]⟩ := by
    rw [← hevents]
    unfold arrival next arrive Site.prepare
    simp only [bench, hok]
    rfl
  have hunused : unused = ⟨⟨unused.site.depot, ⟨(), [], []⟩⟩, []⟩ := rfl
  rw [hunused]
  simp only [rush, run, List.foldl, harrive]
  simp [next, turn, Call.act, Call.work, Call.isBlocked, unused, Depot.find?, Depot.mapArena,
    Site.mapDepot, Arena.join, Arena.find?, Arena.set, Arena.slot?, Arena.update, Arena.isLocked]

/-- The second call waits for the first. -/
theorem serialized_rush : unused.IsQuiet ∧ (unused.run bench rush).Serialized bench ∧
    ∃ order, (unused.run bench rush).calls =
      [⟨order, .holding 0 .recheck⟩, ⟨order, .holding 0 .lock⟩] :=
  have hquiet : unused.IsQuiet := ⟨rfl, rfl, rfl⟩
  ⟨hquiet, serialized_run bench hquiet rush, calls_rush⟩

/-! ## Nobody waits for ever -/

/-- The number of steps that all calls together have in front of them, at most. -/
def stepsLeft (t : Traffic σ) : Nat := (t.calls.map fun c => c.stage.rank).sum

/-- If somebody has not ended then somebody need not wait. -/
theorem exists_ready (h : t.site.depot.Sound t.calls) {c : Call} (hc : c ∈ t.calls)
    (hrank : c.stage.rank ≠ 0) :
    ∃ c' ∈ t.calls, c'.stage.rank ≠ 0 ∧ c'.isBlocked t.site.depot = false := by
  cases hb : c.isBlocked t.site.depot with
  | false => exact ⟨c, hc, hrank, hb⟩
  | true =>
    obtain ⟨n, hs, hlocked⟩ : ∃ n, c.stage = .holding n .lock ∧
        t.site.depot.arena.isLocked n = true := by
      unfold Call.isBlocked at hb
      split at hb
      next n hs => exact ⟨n, hs, hb⟩
      next => exact absurd hb Bool.false_ne_true
    -- Somebody else works with the slot that the call waits for.
    have hholds : c.stage.holds n = true := by
      rw [hs]
      exact decide_eq_true rfl
    obtain ⟨slot, hslot, -, -, hl⟩ := h.books.slot c.fingerprint n (h.taken c hc n hholds)
    rw [Arena.isLocked, hslot] at hlocked
    rw [if_pos (show slot.locked = true from hlocked)] at hl
    have hpos : 0 < Call.workers t.calls n := by omega
    obtain ⟨c', hc', hw⟩ := List.countP_pos_iff.mp hpos
    refine ⟨c', hc', ?_, ?_⟩
    · intro hzero
      obtain ⟨outcome, hend⟩ := Stage.eq_finished_of_rank hzero
      rw [hend] at hw
      exact absurd hw Bool.false_ne_true
    · unfold Call.isBlocked
      split
      next m hs' =>
        rw [hs'] at hw
        exact absurd (Bool.and_eq_true_iff.mp hw).2 Bool.false_ne_true
      next => rfl

/-- The turn of a call that need not wait brings it on. -/
theorem stepsLeft_turn_lt {c : Call} {i : Nat} (hc : t.calls[i]? = some c)
    (hrank : c.stage.rank ≠ 0) (hready : c.isBlocked t.site.depot = false) :
    (t.turn host i).stepsLeft < t.stepsLeft := by
  obtain ⟨hi, hget⟩ := List.getElem?_eq_some_iff.mp hc
  have hcalls : (t.turn host i).calls =
      t.calls.set i { c with stage := (Call.act host c.order t.site c.stage).1 } := by
    rw [turn_of_ready hc hready]
  have hbefore : t.stepsLeft =
      c.stage.rank + ((t.calls.eraseIdx i).map fun c => c.stage.rank).sum := by
    have hp := (List.getElem_cons_eraseIdx_perm hi).map fun c : Call => c.stage.rank
    unfold stepsLeft
    rw [← hp.sum_nat, hget]
    rfl
  have hafter : (t.turn host i).stepsLeft = (Call.act host c.order t.site c.stage).1.rank +
      ((t.calls.eraseIdx i).map fun c => c.stage.rank).sum := by
    have hp := (List.set_perm_cons_eraseIdx hi
      { c with stage := (Call.act host c.order t.site c.stage).1 }).map fun c => c.stage.rank
    unfold stepsLeft
    rw [hcalls, hp.sum_nat]
    rfl
  have hlt := Call.rank_act_lt host c.order t.site c.stage hrank
  omega

/-- Turns that bring all calls to their end. -/
theorem exists_turns_of_sound (host : Host σ) (h : t.site.depot.Sound t.calls) :
    ∃ turns : List Nat, ∀ c ∈ (t.run host (turns.map .turn)).calls,
      ∃ outcome, c.stage = .finished outcome := by
  induction hn : t.stepsLeft using Nat.strongRecOn generalizing t with
  | ind n ih =>
    by_cases hend : ∀ c ∈ t.calls, c.stage.rank = 0
    · exact ⟨[], fun c hc => Stage.eq_finished_of_rank (hend c hc)⟩
    · obtain ⟨c, hc, hrank⟩ : ∃ c ∈ t.calls, c.stage.rank ≠ 0 := by
        by_contra hnone
        exact hend fun c hc => Decidable.not_not.mp fun hrank => hnone ⟨c, hc, hrank⟩
      obtain ⟨c', hc', hrank', hready⟩ := exists_ready h hc hrank
      obtain ⟨i, hi⟩ := List.mem_iff_getElem?.mp hc'
      have hlt : (t.turn host i).stepsLeft < n := hn ▸ stepsLeft_turn_lt hi hrank' hready
      obtain ⟨turns, hturns⟩ := ih _ hlt (sound_next h (.turn i)) rfl
      exact ⟨i :: turns, hturns⟩

end Traffic
end KernelDepot
