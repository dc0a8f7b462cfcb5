/-
What a failed compilation means for the calls that wait.

A slot remembers that the toolchain refused a program, and every call that has taken the slot by
then is refused with the same failure, without another run.  Other failures of a compilation,
such as an include that nobody has, are not remembered, and the next call that gets the lock goes
on to the toolchain.  A call that comes when nobody has taken a slot of the fingerprint does so
in any case.
-/
import KernelDepot.Proofs.Depot.Turns

namespace KernelDepot

/-- The failure that a slot remembers if a compilation ends with it. -/
def Failure.remembered? : Failure → Option CompileFailure
  | compile failure => some failure
  | _ => none

/-- The stages of a call whose slot remembers a failure. -/
inductive Stage.IsRefused (n : Nat) (failure : CompileFailure) : Stage → Prop where
  | lock : IsRefused n failure (.holding n .lock)
  | recheck : IsRefused n failure (.holding n .recheck)
  | unlock : IsRefused n failure (.holding n (.unlock (.error (.compile failure))))
  | leave : IsRefused n failure (.holding n (.leave (.error (.compile failure))))
  | finished : IsRefused n failure (.finished (.error (.compile failure)))

theorem Stage.IsRefused.ne_compile {n : Nat} {failure : CompileFailure} {stage : Stage}
    (h : stage.IsRefused n failure) (m : Nat) : stage ≠ .holding m .compile := by
  cases h <;> exact nofun

/-- Whether a call has yet to look into its slot. -/
def Stage.isWaiting : Stage → Bool
  | holding _ .lock | holding _ .recheck => true
  | _ => false

theorem Stage.holds_of_isWaiting {n : Nat} {failure : CompileFailure} {stage : Stage}
    (h : stage.IsRefused n failure) (hw : stage.isWaiting) : stage.holds n := by
  cases h with
  | lock | recheck => exact decide_eq_true rfl
  | _ => exact absurd hw Bool.false_ne_true

/-! ## What a slot remembers -/

/-- Others keep a slot, with what it remembers. -/
theorem Moves.failure?_of_holds {d d' : Depot} {c : Call} {others : List Call} {stage : Stage}
    {n : Nat} {failure : CompileFailure} (hsound : d.Sound (c :: others))
    (hready : c.isBlocked d = false) (hmove : Moves c.fingerprint c.entry d d' c.stage stage)
    (hholds : ∃ other ∈ others, other.stage.holds n) (h : d.arena.failure? n = some failure) :
    d'.arena.failure? n = some failure := by
  have hsound' := hsound.move hready hmove
  obtain ⟨order, before⟩ := c
  cases hmove with
  | hit m hm hd => exact hd.arena ▸ h
  | miss hm hd => exact hd.arena ▸ h
  | join harena => rw [harena, hsound.books.failure?_join, h]
  | lock m harena =>
    rw [harena]
    exact (Arena.failure?_update_of_eq _ _ _ _ (by intro slot; rfl)).trans h
  | refuse m e he hd => exact hd.arena ▸ h
  | find m l he hm hd => exact hd.arena ▸ h
  | search m he hm hd => exact hd.arena ▸ h
  | goOn m task task' ht ht' hd => exact hd.arena ▸ h
  | giveUp m task outcome ht hd => exact hd.arena ▸ h
  | fail m e harena =>
    -- Who compiles has found a slot that remembered nothing.
    have hnone : d.arena.failure? m = none := by
      refine (hsound.searching _ List.mem_cons_self m ?_).2
      simp [Stage.searches, Task.isSearching]
    have hne : n ≠ m := by
      rintro rfl
      rw [hnone] at h
      exact Option.some_ne_none _ h.symm
    rw [harena, Arena.failure?_update_of_ne _ _ hne, h]
  | insert m l outcome harena => rw [harena, h]
  | unlock m outcome harena =>
    rw [harena]
    exact (Arena.failure?_update_of_eq _ _ _ _ (by intro slot; rfl)).trans h
  | leave m outcome harena =>
    obtain ⟨other, hother, hn⟩ := hholds
    obtain ⟨slot, hslot, -⟩ := hsound'.books.slot _ n
      (hsound'.taken other (List.mem_cons_of_mem _ hother) n hn)
    obtain ⟨slot', hslot', hsame⟩ := Arena.exists_slot?_of_leave (harena ▸ hslot)
    unfold Arena.failure? at h ⊢
    rw [hslot'] at h
    rw [hslot]
    exact hsame.symm.trans h

namespace Traffic

variable {σ : Type} {host : Host σ} {t : Traffic σ} {i j n : Nat} {order : KeyedRequest}
  {stage : Stage} {failure : CompileFailure}

/-! ## Refused -/

/-- Whether a call is on its way to a failure that its slot remembers. -/
structure Refuses (t : Traffic σ) (j n : Nat) (order : KeyedRequest) (failure : CompileFailure)
    (stage : Stage) : Prop where
  call : t.calls[j]? = some ⟨order, stage⟩
  isRefused : stage.IsRefused n failure
  remembered : stage.isWaiting → t.site.depot.arena.failure? n = some failure

variable (host) in
theorem Refuses.act (h : t.Refuses j n order failure stage) :
    (Call.act host order t.site stage).1.IsRefused n failure ∧
      ((Call.act host order t.site stage).1.isWaiting →
        (Call.act host order t.site stage).2.depot.arena.failure? n = some failure) := by
  obtain ⟨-, hstage, hremembered⟩ := h
  cases hstage with
  | lock =>
    refine ⟨.recheck, fun _ => ?_⟩
    rw [← hremembered rfl]
    exact Arena.failure?_update_of_eq _ _ _ _ fun _ => rfl
  | recheck =>
    unfold Call.act Call.work
    simp only [hremembered rfl]
    exact ⟨.unlock, nofun⟩
  | unlock => exact ⟨.leave, nofun⟩
  | leave => exact ⟨.finished, nofun⟩
  | finished => exact ⟨.finished, nofun⟩

variable (host) in
theorem Refuses.next (hsound : t.site.depot.Sound t.calls)
    (h : t.Refuses j n order failure stage) (move : Move σ) :
    ∃ stage', (t.next host move).Refuses j n order failure stage' := by
  cases move with
  | arrive path request =>
    refine ⟨stage, ?_⟩
    show (t.arrive host path request).Refuses j n order failure stage
    unfold arrive
    have hdepot : (t.site.prepare host path request).2.depot = t.site.depot := rfl
    generalize t.site.prepare host path request = prepared at hdepot ⊢
    obtain ⟨outcome, site⟩ := prepared
    have hdepot : site.depot = t.site.depot := hdepot
    cases outcome with
    | error e => exact ⟨h.call, h.isRefused, hdepot ▸ h.remembered⟩
    | ok other =>
      have hlt : j < t.calls.length := (List.getElem?_eq_some_iff.mp h.call).1
      exact ⟨(List.getElem?_append_left hlt).trans h.call, h.isRefused, hdepot ▸ h.remembered⟩
  | outside world => exact ⟨stage, h.call, h.isRefused, h.remembered⟩
  | turn k =>
    show ∃ stage', (t.turn host k).Refuses j n order failure stage'
    cases hk : t.calls[k]? with
    | none =>
      unfold turn
      rw [hk]
      exact ⟨stage, h⟩
    | some c =>
      cases hready : c.isBlocked t.site.depot with
      | true =>
        rw [turn_of_blocked hk hready]
        exact ⟨stage, h⟩
      | false =>
        rw [turn_of_ready hk hready]
        obtain ⟨hlt, hget⟩ := List.getElem?_eq_some_iff.mp hk
        by_cases hkj : k = j
        · subst hkj
          obtain rfl : c = ⟨order, stage⟩ := Option.some.inj (hk.symm.trans h.call)
          obtain ⟨hrefused, hremembered⟩ := h.act host
          exact ⟨_, List.getElem?_set_self hlt, hrefused, hremembered⟩
        · refine ⟨stage, (List.getElem?_set_ne hkj).trans h.call, h.isRefused, fun hw => ?_⟩
          by_cases hrank : c.stage.rank = 0
          · -- A call that has ended stays as it is.
            obtain ⟨outcome, hs⟩ := Stage.eq_finished_of_rank hrank
            rw [hs]
            exact h.remembered hw
          · have hperm : t.calls.Perm (c :: t.calls.eraseIdx k) := by
              rw [← hget]
              exact (List.getElem_cons_eraseIdx_perm hlt).symm
            have hother : ⟨order, stage⟩ ∈ t.calls.eraseIdx k :=
              List.mem_eraseIdx_iff_getElem?.mpr ⟨j, Ne.symm hkj, h.call⟩
            exact (Call.moves_act host c.order t.site c.stage hrank).failure?_of_holds
              (hsound.perm hperm) hready
              ⟨_, hother, Stage.holds_of_isWaiting h.isRefused hw⟩ (h.remembered hw)

variable (host) in
theorem Refuses.run (hsound : t.site.depot.Sound t.calls)
    (h : t.Refuses j n order failure stage) (moves : List (Move σ)) :
    ∃ stage', (t.run host moves).Refuses j n order failure stage' := by
  induction moves generalizing t stage with
  | nil => exact ⟨stage, h⟩
  | cons move moves ih =>
    obtain ⟨stage', h'⟩ := h.next host hsound move
    exact ih (sound_next hsound move) h'

theorem Refuses.exists_turns (hsound : t.site.depot.Sound t.calls)
    (h : t.Refuses j n order failure stage) :
    ∃ turns : List Nat, (t.run host (turns.map .turn)).calls[j]? =
      some ⟨order, .finished (.error (.compile failure))⟩ := by
  obtain ⟨turns, hend⟩ := exists_turns_of_sound host hsound
  obtain ⟨stage', h'⟩ := h.run host hsound (turns.map .turn)
  obtain ⟨outcome, rfl⟩ : ∃ outcome, stage' = .finished outcome :=
    hend _ (List.mem_of_getElem? h'.call)
  cases h'.isRefused
  exact ⟨turns, h'.call⟩

/-! ## Going on to the toolchain -/

variable (host) in
theorem turn_of_act {stage' : Stage} {s : Site σ} (h : t.calls[j]? = some ⟨order, stage⟩)
    (hready : Call.isBlocked ⟨order, stage⟩ t.site.depot = false)
    (hact : Call.act host order t.site stage = (stage', s)) :
    (t.turn host j).calls[j]? = some ⟨order, stage'⟩ ∧ (t.turn host j).site = s := by
  rw [turn_of_ready h hready]
  simp only [hact]
  exact ⟨List.getElem?_set_self (List.getElem?_eq_some_iff.mp h).1, trivial⟩

/-- Whether a call looks for a stored artifact next, and has the toolchain run if there is
none. -/
def Resorts (host : Host σ) (t : Traffic σ) (j : Nat) : Prop :=
  ∃ order n, t.calls[j]? = some ⟨order, .holding n .restore⟩ ∧
    ((t.site.restore host order.fingerprint).1 = .ok none →
      (t.run host [.turn j, .turn j]).site.depot.runs.length = t.site.depot.runs.length + 1)

theorem resorts_of_restore (h : t.calls[j]? = some ⟨order, .holding n .restore⟩) :
    t.Resorts host j := by
  refine ⟨order, n, h, fun hmiss => ?_⟩
  obtain ⟨hcall, hsite⟩ := turn_of_act host h rfl (Call.act_restore_of_none n hmiss)
  have hruns : (t.turn host j).site.depot.runs = t.site.depot.runs := by
    obtain ⟨counters, hdepot⟩ : t.site.depot.Recounted
      (t.site.restore host order.fingerprint).2.depot := Site.recounted_restore _
    rw [hsite, Site.report_depot, hdepot]
  show ((t.turn host j).turn host j).site.depot.runs.length = _
  rw [turn_of_ready hcall rfl, ← hruns]
  exact Call.length_runs_act_compile host order _ n

/-- A call that gets the lock of a slot that remembers nothing. -/
theorem resorts_of_lock (h : t.calls[j]? = some ⟨order, .holding n .lock⟩)
    (hfree : t.site.depot.arena.isLocked n = false)
    (hfailure : t.site.depot.arena.failure? n = none)
    (hm : t.site.depot.find? order.fingerprint = none) :
    (t.run host [.turn j, .turn j]).Resorts host j := by
  obtain ⟨hcall, hsite⟩ := turn_of_act host h hfree rfl
  have hfailure' : (t.turn host j).site.depot.arena.failure? n = none := by
    rw [hsite]
    exact (Arena.failure?_update_of_eq _ _ _ _ (by intro slot; rfl)).trans hfailure
  have hm' : (t.turn host j).site.depot.find? order.fingerprint = none := by
    rw [hsite]
    exact hm
  exact resorts_of_restore (turn_of_act host hcall rfl (Call.act_recheck_of_none hfailure' hm')).1

/-- A call that comes when its fingerprint has no slot. -/
theorem resorts_of_arrive (hsound : t.site.depot.Sound t.calls)
    (hslot : t.site.depot.arena.find? order.fingerprint = none)
    (hm : t.site.depot.find? order.fingerprint = none) {path : SearchPath} {request : Request}
    (hprepare : (t.site.prepare host path request).1 = .ok order) :
    (t.run host (.arrive path request :: List.replicate 4 (.turn t.calls.length))).Resorts host
      t.calls.length := by
  have harrive : t.arrive host path request =
      ⟨(t.site.prepare host path request).2, t.calls ++ [⟨order, .lookup⟩]⟩ := by
    unfold arrive
    generalize t.site.prepare host path request = prepared at hprepare ⊢
    obtain ⟨outcome, s⟩ := prepared
    obtain rfl : outcome = .ok order := hprepare
    rfl
  have hcall : (t.arrive host path request).calls[t.calls.length]? = some ⟨order, .lookup⟩ := by
    rw [harrive]
    exact List.getElem?_concat_length
  have hdepot : (t.arrive host path request).site.depot = t.site.depot := by
    rw [harrive]
    rfl
  show (((((t.arrive host path request).turn host _).turn host _)).run host
    [.turn t.calls.length, .turn t.calls.length]).Resorts host _
  generalize t.arrive host path request = arrived at hcall hdepot ⊢
  generalize t.calls.length = j at hcall ⊢
  have hmiss : arrived.site.depot.find? order.fingerprint = none := by rw [hdepot, hm]
  obtain ⟨hjoining, hsite⟩ := turn_of_act host hcall rfl (Call.act_lookup_of_none hmiss)
  obtain ⟨hlocking, hsite'⟩ := turn_of_act host hjoining rfl rfl
  have hdepot' : (arrived.turn host j).site.depot = t.site.depot := by rw [hsite, hdepot]
  refine resorts_of_lock hlocking ?_ ?_ ?_
  · rw [hsite', hdepot']
    exact Arena.isLocked_join hslot
  · rw [hsite', hdepot']
    exact hsound.books.failure?_join_self hslot
  · rw [hsite']
    show (arrived.turn host j).site.depot.find? order.fingerprint = none
    rw [hdepot']
    exact hm

/-! ## When a compilation has failed -/

/-- What it means that a call fails to compile. -/
structure SharesFailure (host : Host σ) (t : Traffic σ) (i n : Nat) (order : KeyedRequest)
    (e : Failure) : Prop where
  failed : (t.turn host i).calls[i]? = some ⟨order, .holding n (.unlock (.error e))⟩
  remembered : (t.turn host i).site.depot.arena.failure? n = e.remembered?
  /-- The calls that have taken the slot come to the failure that it remembers. -/
  refused : ∀ failure, e.remembered? = some failure → ∀ (j : Nat) (other : KeyedRequest),
    t.calls[j]? = some ⟨other, .holding n .lock⟩ → ∀ moves,
      let later := (t.turn host i).run host moves
      ∃ stage, later.calls[j]? = some ⟨other, stage⟩ ∧ stage.IsRefused n failure ∧
        (Call.act host other later.site stage).2.depot.runs = later.site.depot.runs ∧
        ∃ turns : List Nat, (later.run host (turns.map .turn)).calls[j]? =
          some ⟨other, .finished (.error (.compile failure))⟩
  /-- If it remembers nothing then the next one tries again. -/
  repeated : e.remembered? = none → ∀ (j : Nat) (other : KeyedRequest),
    t.calls[j]? = some ⟨other, .holding n .lock⟩ →
      (t.run host [.turn i, .turn i, .turn j, .turn j]).Resorts host j
  /-- When all have gone nothing is remembered. -/
  afresh : ∀ moves, let later := (t.turn host i).run host moves
    (∀ c ∈ later.calls, c.fingerprint = order.fingerprint → c.stage.isHolding = false) →
      later.site.depot.find? order.fingerprint = none → ∀ path request again,
        (later.site.prepare host path request).1 = .ok again →
          again.fingerprint = order.fingerprint →
            (later.run host (.arrive path request ::
              List.replicate 4 (.turn later.calls.length))).Resorts host later.calls.length

theorem act_of_compile_error {e : Failure} {s : Site σ}
    (he : (s.compile host order.toPreparedRequest).1 = .error e) :
    (Call.act host order s (.holding n .compile)).1 = .holding n (.unlock (.error e)) ∧
      (Call.act host order s (.holding n .compile)).2.depot.index = s.depot.index ∧
      (Call.act host order s (.holding n .compile)).2.depot.arena =
        match e.remembered? with
        | some failure => s.depot.arena.update n fun slot => { slot with failure := some failure }
        | none => s.depot.arena := by
  have hbooks : s.depot.SameBooks (s.compile host order.toPreparedRequest).2.depot :=
    Site.sameBooks_compile _
  unfold Call.act Call.work
  simp only
  generalize s.compile host order.toPreparedRequest = compiled at he hbooks ⊢
  obtain ⟨outcome, s₁⟩ := compiled
  obtain rfl : outcome = .error e := he
  cases e with
  | compile failure =>
    refine ⟨rfl, hbooks.index, ?_⟩
    show s₁.depot.arena.update n _ = _
    rw [hbooks.arena]
    rfl
  | _ => exact ⟨rfl, hbooks.index, hbooks.arena⟩

theorem sharesFailure_of_sound (hsound : t.site.depot.Sound t.calls)
    (hi : t.calls[i]? = some ⟨order, .holding n .compile⟩) {e : Failure}
    (he : (t.site.compile host order.toPreparedRequest).1 = .error e) :
    t.SharesFailure host i n order e := by
  have hmem : (⟨order, .holding n .compile⟩ : Call) ∈ t.calls := List.mem_of_getElem? hi
  obtain ⟨hm, hnone⟩ := hsound.searching _ hmem n (by simp [Stage.searches, Task.isSearching])
  have hslot := hsound.taken _ hmem n (decide_eq_true rfl)
  obtain ⟨hstage, hindex, harena⟩ := act_of_compile_error (n := n) he
  obtain ⟨hcall, hsite⟩ := turn_of_act host hi rfl (Prod.ext hstage rfl)
  have hremembered : (t.turn host i).site.depot.arena.failure? n = e.remembered? := by
    rw [hsite, harena]
    cases e.remembered? with
    | none => exact hnone
    | some failure =>
      obtain ⟨slot, hs, -⟩ := hsound.books.slot _ n hslot
      show ((t.site.depot.arena.update n _).slot? n).bind _ = _
      rw [Arena.slot?_update, if_pos rfl, hs]
      rfl
  have hsound' : (t.turn host i).site.depot.Sound (t.turn host i).calls :=
    sound_next hsound (.turn i)
  -- A call that waits for the slot is another one, and it is for the same fingerprint.
  have hwait (j : Nat) (other : KeyedRequest)
      (hj : t.calls[j]? = some ⟨other, .holding n .lock⟩) :
      i ≠ j ∧ other.fingerprint = order.fingerprint ∧
        (t.turn host i).calls[j]? = some ⟨other, .holding n .lock⟩ := by
    have htaken := hsound.taken _ (List.mem_of_getElem? hj) n (decide_eq_true rfl)
    have hne : i ≠ j := by
      rintro rfl
      rw [hi] at hj
      simp at hj
    refine ⟨hne, hsound.books.inj _ _ n htaken hslot, ?_⟩
    rw [turn_of_ready hi rfl]
    exact (List.getElem?_set_ne hne).trans hj
  refine ⟨hcall, hremembered, ?_, ?_, ?_⟩
  · intro failure hfailure j other hj moves
    have hrefuses : (t.turn host i).Refuses j n other failure (.holding n .lock) :=
      ⟨(hwait j other hj).2.2, .lock, fun _ => hremembered.trans hfailure⟩
    obtain ⟨stage, h⟩ := hrefuses.run host hsound' moves
    exact ⟨stage, h.call, h.isRefused,
      Call.runs_act host other _ stage h.isRefused.ne_compile,
      h.exists_turns (sound_run hsound' moves)⟩
  · intro hforgotten j other hj
    obtain ⟨hne, hsame, hj'⟩ := hwait j other hj
    obtain ⟨-, hsite'⟩ := turn_of_act host hcall rfl rfl
    have hj'' : ((t.turn host i).turn host i).calls[j]? = some ⟨other, .holding n .lock⟩ := by
      rw [turn_of_ready hcall rfl]
      exact (List.getElem?_set_ne hne).trans hj'
    show (((t.turn host i).turn host i).run host [.turn j, .turn j]).Resorts host j
    refine resorts_of_lock hj'' ?_ ?_ ?_
    · rw [hsite']
      exact Arena.isLocked_update _ _ _ (by intro slot; rfl)
    · rw [hsite']
      exact (Arena.failure?_update_of_eq _ _ _ _ (by intro slot; rfl)).trans
        (hremembered.trans hforgotten)
    · rw [hsite', hsame]
      show (t.turn host i).site.depot.find? order.fingerprint = none
      rw [hsite]
      exact (Depot.find?_of_index hindex _).trans hm
  · intro moves later hidle hm' path request again hprepare hsame
    have hlater : later.site.depot.Sound later.calls := sound_run hsound' moves
    refine resorts_of_arrive hlater ?_ (hsame ▸ hm') hprepare
    rw [hsame]
    cases hfind : later.site.depot.arena.find? order.fingerprint with
    | none => rfl
    | some m =>
      obtain ⟨c, hc, hf, hholding⟩ :=
        (listed_of_sound hlater order.fingerprint).mp (by rw [hfind]; rfl)
      exact absurd (hidle c hc hf) (by rw [hholding]; exact Bool.noConfusion)

/-- Whatever calls there are and however they have taken turns, if one of them fails to compile
then those that wait come to the same failure if the toolchain refused the program, and try
again if not, and so does who comes when all have gone. -/
theorem sharesFailure_run (host : Host σ) {start : Traffic σ} (h : start.IsQuiet)
    (moves : List (Move σ)) (hi : (start.run host moves).calls[i]? =
      some ⟨order, .holding n .compile⟩) {e : Failure}
    (he : ((start.run host moves).site.compile host order.toPreparedRequest).1 = .error e) :
    (start.run host moves).SharesFailure host i n order e :=
  sharesFailure_of_sound (sound_run h.sound moves) hi he

end Traffic

/-! ### An include that nobody has

The scan puts `missing.cuh` off, and the toolchain turns out to need it. -/

namespace Absent

open Traffic

def host : Host Unit :=
  { bench with compile := fun _ s => (.ask ⟨"missing.cuh", none⟩ fun _ => .done (.error ""), s) }

def request : Request := { plainRequest with source := .inline "#include \"missing.cuh\"\n" }

/-- Two requests come in, and one call gets as far as the toolchain while the other waits. -/
def moves : List (Move Unit) :=
  [.arrive ⟨[], 0⟩ request, .arrive ⟨[], 0⟩ request, .turn 0, .turn 1, .turn 0, .turn 1] ++
    List.replicate 3 (.turn 0)

/-- Whether the first of two calls lacks an include as soon as it compiles, while the other
waits, and the toolchain has run twice when the other has got its turns too. -/
def isRepeated (t : Traffic Unit) : Bool :=
  match t.calls with
  | [⟨order, .holding 0 .compile⟩, ⟨_, .holding 0 .lock⟩] =>
    match (t.site.compile host order.toPreparedRequest).1 with
    | .error (.notFound ..) =>
      (t.run host ([.turn 0, .turn 0] ++ List.replicate 4 (.turn 1))).site.depot.runs.length = 2
    | _ => false
  | _ => false

theorem exists_of_isRepeated {t : Traffic Unit} (h : isRepeated t) : ∃ order other e,
    t.calls = [⟨order, .holding 0 .compile⟩, ⟨other, .holding 0 .lock⟩] ∧
      (t.site.compile host order.toPreparedRequest).1 = .error e ∧ e.remembered? = none ∧
      (t.run host ([.turn 0, .turn 0] ++ List.replicate 4 (.turn 1))).site.depot.runs.length =
        2 := by
  unfold isRepeated at h
  split at h
  next order other hcalls =>
    split at h
    next name includer searched he => exact ⟨order, other, _, hcalls, he, rfl, of_decide_eq_true h⟩
    next => exact absurd h Bool.false_ne_true
  next => exact absurd h Bool.false_ne_true

theorem sharesFailure_moves : unused.IsQuiet ∧ ∃ order other e,
    (unused.run host moves).SharesFailure host 0 0 order e ∧ e.remembered? = none ∧
      (unused.run host moves).calls[1]? = some ⟨other, .holding 0 .lock⟩ ∧
      ((unused.run host moves).run host
        ([.turn 0, .turn 0] ++ List.replicate 4 (.turn 1))).site.depot.runs.length = 2 := by
  have hquiet : unused.IsQuiet := ⟨rfl, rfl, rfl⟩
  obtain ⟨order, other, e, hcalls, he, hforgotten, hruns⟩ :=
    exists_of_isRepeated (t := unused.run host moves) (by decide +kernel)
  have hfirst : (unused.run host moves).calls[0]? = some ⟨order, .holding 0 .compile⟩ :=
    congrArg (·[0]?) hcalls
  have hsecond : (unused.run host moves).calls[1]? = some ⟨other, .holding 0 .lock⟩ :=
    congrArg (·[1]?) hcalls
  exact ⟨hquiet, order, other, e, sharesFailure_run host hquiet moves hfirst he, hforgotten,
    hsecond, hruns⟩

end Absent
end KernelDepot
