/-
Calls that are on their way at the same time.

`Sound` ties the slots and the index of a depot to the stages of its calls.  Every move of
any call keeps it, so it holds however the calls take turns, and what a depot promises
about calls for one fingerprint is read off it: they work one after the other, nothing is
left of them, and a module that one of them entered serves all that come after.
-/
import KernelDepot.Depot.Traffic
import KernelDepot.Proofs.Depot.Arena
import KernelDepot.Proofs.Depot.Steps
import Mathlib.Data.List.Perm.Basic

namespace KernelDepot

theorem Task.isWorking_of_isSearching {task : Task} (h : task.isSearching = true) :
    task.isWorking = true := by
  cases task <;> first | rfl | exact absurd h Bool.false_ne_true

namespace Stage

/-- Whether a call has taken the slot with a number and not left it yet. -/
def holds : Stage → Nat → Bool
  | holding m _, n => m = n
  | _, _ => false

/-- Whether a call has locked the slot with a number and not unlocked it yet. -/
def works : Stage → Nat → Bool
  | holding m task, n => m = n && task.isWorking
  | _, _ => false

/-- Whether a call with the lock of the slot with a number found nothing in the index. -/
def searches : Stage → Nat → Bool
  | holding m task, n => m = n && task.isSearching
  | _, _ => false

theorem holds_of_works {stage : Stage} {n : Nat} (h : stage.works n) : stage.holds n := by
  cases stage with
  | holding m task => exact (Bool.and_eq_true_iff.mp h).1
  | _ => exact absurd h Bool.false_ne_true

theorem not_searches {m n : Nat} {task : Task} (h : task.isSearching = false) :
    ¬ (holding m task).searches n := by
  intro hs
  exact Bool.false_ne_true (h.symm.trans (Bool.and_eq_true_iff.mp hs).2)

theorem works_of_searches {stage : Stage} {n : Nat} (h : stage.searches n) : stage.works n := by
  cases stage with
  | holding m task =>
    obtain ⟨hm, ht⟩ := Bool.and_eq_true_iff.mp h
    exact Bool.and_eq_true_iff.mpr ⟨hm, Task.isWorking_of_isSearching ht⟩
  | _ => exact absurd h Bool.false_ne_true

end Stage

namespace Call

def fingerprint (c : Call) : Fingerprint := c.order.fingerprint

def holders (calls : List Call) (n : Nat) : Nat := calls.countP fun c => c.stage.holds n

def workers (calls : List Call) (n : Nat) : Nat := calls.countP fun c => c.stage.works n

theorem holders_cons (c : Call) (calls : List Call) (n : Nat) :
    holders (c :: calls) n = holders calls n + if c.stage.holds n then 1 else 0 :=
  List.countP_cons

theorem workers_cons (c : Call) (calls : List Call) (n : Nat) :
    workers (c :: calls) n = workers calls n + if c.stage.works n then 1 else 0 :=
  List.countP_cons

/-- A call that takes the slots that it took before leaves the holders as they are. -/
theorem holders_of_stage {c : Call} {stage : Stage}
    (h : ∀ n, stage.holds n = c.stage.holds n) (others : List Call) :
    holders ({ c with stage } :: others) = holders (c :: others) := by
  funext n
  rw [holders_cons, holders_cons, ← h]

theorem workers_of_stage {c : Call} {stage : Stage}
    (h : ∀ n, stage.works n = c.stage.works n) (others : List Call) :
    workers ({ c with stage } :: others) = workers (c :: others) := by
  funext n
  rw [workers_cons, workers_cons, ← h]

theorem workers_le_holders (calls : List Call) (n : Nat) : workers calls n ≤ holders calls n :=
  List.countP_mono_left fun _ _ => Stage.holds_of_works

end Call

/-! ## The invariant -/

/-- What holds between a depot and the calls to it. -/
structure Depot.Sound (d : Depot) (calls : List Call) : Prop where
  books : d.arena.Counted (Call.holders calls) (Call.workers calls)
  taken : ∀ c ∈ calls, ∀ n, c.stage.holds n → d.arena.find? c.fingerprint = some n
  failed : ∀ f n, d.arena.find? f = some n → d.find? f = none ∨ d.arena.failure? n = none
  searching : ∀ c ∈ calls, ∀ n, c.stage.searches n →
    d.find? c.fingerprint = none ∧ d.arena.failure? n = none

namespace Depot.Sound

open Call

variable {d d' : Depot} {c : Call} {others calls calls' : List Call} {stage : Stage} {n : Nat}

theorem perm (h : d.Sound calls) (hp : calls.Perm calls') : d.Sound calls' where
  books := by
    have hh : holders calls' = holders calls := funext fun n => (hp.countP_eq _).symm
    have hw : workers calls' = workers calls := funext fun n => (hp.countP_eq _).symm
    rw [hh, hw]
    exact h.books
  taken c hc := h.taken c (hp.mem_iff.mpr hc)
  failed := h.failed
  searching c hc := h.searching c (hp.mem_iff.mpr hc)

/-- A slot has one lock. -/
theorem workers_le_one (h : d.Sound calls) (n : Nat) : workers calls n ≤ 1 := by
  by_cases hn : ∃ f, d.arena.find? f = some n
  · obtain ⟨f, hf⟩ := hn
    obtain ⟨slot, -, -, -, hl⟩ := h.books.slot f n hf
    rw [← hl]
    split <;> omega
  · have hidle := (h.books.idle n fun f hf => hn ⟨f, hf⟩).2
    omega

/-- Whoever works with a slot is the only one. -/
theorem not_works (h : d.Sound (c :: others)) (hc : c.stage.works n) :
    ∀ c' ∈ others, ¬ c'.stage.works n := by
  have hle := h.workers_le_one n
  rw [workers_cons, if_pos hc] at hle
  have hzero : workers others n = 0 := by omega
  exact List.countP_eq_zero.mp hzero

/-- A call that holds a slot stands for a fingerprint that is listed with it. -/
theorem head_taken (h : d.Sound (c :: others)) (hc : c.stage.holds n) :
    d.arena.find? c.fingerprint = some n :=
  h.taken c List.mem_cons_self n hc

/-- A step that leaves the books alone. -/
theorem stay (h : d.Sound (c :: others)) (hd : d.SameBooks d')
    (hholds : ∀ n, stage.holds n = c.stage.holds n)
    (hworks : ∀ n, stage.works n = c.stage.works n)
    (hsearch : ∀ n, stage.searches n →
      d.find? c.fingerprint = none ∧ d.arena.failure? n = none) :
    d'.Sound ({ c with stage } :: others) where
  books := by
    rw [hd.arena, holders_of_stage hholds, workers_of_stage hworks]
    exact h.books
  taken c' hc' n hn := by
    rw [hd.arena]
    rcases List.mem_cons.mp hc' with rfl | hc'
    · exact h.head_taken (hholds n ▸ hn)
    · exact h.taken c' (List.mem_cons_of_mem _ hc') n hn
  failed f n hf := by
    rw [hd.arena] at hf ⊢
    rw [hd.find?]
    exact h.failed f n hf
  searching c' hc' n hn := by
    rw [hd.arena, hd.find?]
    rcases List.mem_cons.mp hc' with rfl | hc'
    · exact hsearch n hn
    · exact h.searching c' (List.mem_cons_of_mem _ hc') n hn

/-- A change of the lock or the failure of a slot, by a call that holds it before and after. -/
theorem update {change : Slot → Slot} (h : d.Sound (c :: others))
    (harena : d'.arena = d.arena.update n change) (hindex : d'.index = d.index)
    (hrefs : ∀ slot, (change slot).references = slot.references) (hc : c.stage.holds n)
    (hholds : ∀ m, stage.holds m = c.stage.holds m)
    (hother : ∀ m, m ≠ n → stage.works m = c.stage.works m)
    (hlock : ∀ slot, d.arena.slot? n = some slot →
      (if slot.locked then 1 else 0) = workers (c :: others) n →
      (if (change slot).locked then 1 else 0) = workers ({ c with stage } :: others) n)
    (hfailure : (∀ slot, (change slot).failure = slot.failure) ∨
      (c.stage.searches n = true ∧ stage.searches n = false))
    (hsearch : ∀ m, stage.searches m → c.stage.searches m) :
    d'.Sound ({ c with stage } :: others) where
  books := by
    rw [harena, holders_of_stage hholds]
    refine h.books.update hrefs (h.head_taken hc) hlock fun m hm => ?_
    rw [workers_cons, workers_cons, ← hother m hm]
  taken c' hc' m hm := by
    rw [harena, Arena.find?_update]
    rcases List.mem_cons.mp hc' with rfl | hc'
    · exact h.head_taken (hholds m ▸ hm)
    · exact h.taken c' (List.mem_cons_of_mem _ hc') m hm
  failed f m hf := by
    have hd : d'.find? f = d.find? f := find?_of_index hindex f
    rw [harena, Arena.find?_update] at hf
    rw [hd, harena]
    rcases hfailure with hsame | ⟨hs, -⟩
    · rw [Arena.failure?_update_of_eq _ _ _ _ hsame]
      exact h.failed f m hf
    · by_cases hm : m = n
      · subst hm
        have hcf : f = c.fingerprint := h.books.inj f _ m hf (h.head_taken hc)
        rw [hcf]
        exact .inl (h.searching c List.mem_cons_self m hs).1
      · rw [Arena.failure?_update_of_ne _ _ hm]
        exact h.failed f m hf
  searching c' hc' m hm := by
    have hd : d'.find? c'.fingerprint = d.find? c'.fingerprint := find?_of_index hindex _
    rw [hd, harena]
    rcases hfailure with hsame | ⟨hs, hs'⟩
    · rw [Arena.failure?_update_of_eq _ _ _ _ hsame]
      rcases List.mem_cons.mp hc' with rfl | hc'
      · exact h.searching c List.mem_cons_self m (hsearch m hm)
      · exact h.searching c' (List.mem_cons_of_mem _ hc') m hm
    · -- Nobody else searches with the slot that takes the failure.
      have hne : m ≠ n := by
        rintro rfl
        rcases List.mem_cons.mp hc' with rfl | hc'
        · exact Bool.false_ne_true (hs'.symm.trans hm)
        · exact h.not_works (Stage.works_of_searches hs) c' hc' (Stage.works_of_searches hm)
      rw [Arena.failure?_update_of_ne _ _ hne]
      rcases List.mem_cons.mp hc' with rfl | hc'
      · exact h.searching c List.mem_cons_self m (hsearch m hm)
      · exact h.searching c' (List.mem_cons_of_mem _ hc') m hm

/-- Entering a module for a fingerprint that has none. -/
theorem insert {m : LoadedModule} (h : d.Sound (c :: others)) (hs : c.stage.searches n)
    (harena : d'.arena = d.arena)
    (hindex : d'.index = match d.find? c.fingerprint with
      | some _ => d.index
      | none => d.index ++ [(c.fingerprint, m)])
    (hholds : ∀ k, stage.holds k = c.stage.holds k)
    (hworks : ∀ k, stage.works k = c.stage.works k)
    (hsearch : ∀ k, stage.searches k = false) :
    d'.Sound ({ c with stage } :: others) := by
  have hw : c.stage.works n := Stage.works_of_searches hs
  have hn : d.arena.find? c.fingerprint = some n := h.head_taken (Stage.holds_of_works hw)
  obtain ⟨hm, hf⟩ := h.searching c List.mem_cons_self n hs
  have hother (g : Fingerprint) (hg : g ≠ c.fingerprint) : d'.find? g = d.find? g := by
    rw [hm] at hindex
    rw [find?_of_index_append hindex hm, if_neg hg]
  exact {
    books := by
      rw [harena, holders_of_stage hholds, workers_of_stage hworks]
      exact h.books
    taken := fun c' hc' k hk => by
      rw [harena]
      rcases List.mem_cons.mp hc' with rfl | hc'
      · exact h.head_taken (hholds k ▸ hk)
      · exact h.taken c' (List.mem_cons_of_mem _ hc') k hk
    failed := fun g k hg => by
      rw [harena] at hg ⊢
      by_cases hgf : g = c.fingerprint
      · rw [hgf, hn] at hg
        rw [← Option.some.inj hg]
        exact .inr hf
      · rw [hother g hgf]
        exact h.failed g k hg
    searching := fun c' hc' k hk => by
      rcases List.mem_cons.mp hc' with rfl | hc'
      · exact absurd ((hsearch k).symm.trans hk) Bool.false_ne_true
      · have hk' := h.searching c' (List.mem_cons_of_mem _ hc') k hk
        have hne : c'.fingerprint ≠ c.fingerprint := fun e => by
          have htaken := h.taken c' (List.mem_cons_of_mem _ hc') k
            (Stage.holds_of_works (Stage.works_of_searches hk))
          rw [e, hn] at htaken
          have hkn : k = n := (Option.some.inj htaken).symm
          exact h.not_works hw c' hc' (hkn ▸ Stage.works_of_searches hk)
        rw [harena, hother _ hne]
        exact hk' }

theorem join (h : d.Sound (c :: others)) (hc : c.stage = .join)
    (harena : d'.arena = (d.arena.join c.fingerprint).2) (hindex : d'.index = d.index) :
    d'.Sound ({ c with stage := .holding (d.arena.join c.fingerprint).1 .lock } :: others) := by
  have hd (g : Fingerprint) : d'.find? g = d.find? g := find?_of_index hindex g
  have hfailure (m : Nat) : d'.arena.failure? m = d.arena.failure? m := by
    rw [harena]
    exact h.books.failure?_join m
  exact {
    books := by
      have hworks (k : Nat) : (Stage.holding (d.arena.join c.fingerprint).1 .lock).works k =
          c.stage.works k := by
        rw [hc]
        exact Bool.and_false _
      rw [harena, workers_of_stage hworks]
      refine h.books.join fun k => ?_
      rw [holders_cons, holders_cons, hc]
      simp only [Stage.holds, Bool.false_eq_true, if_false, Nat.add_zero, decide_eq_true_eq,
        @eq_comm _ k]
    taken := fun c' hc' k hk => by
      rw [harena]
      rcases List.mem_cons.mp hc' with rfl | hc'
      · have hk : (d.arena.join c.fingerprint).1 = k := of_decide_eq_true hk
        rw [← hk]
        exact Arena.find?_join_self _ _
      · exact Arena.find?_join_of_eq_some (h.taken c' (List.mem_cons_of_mem _ hc') k hk)
    failed := fun g k hg => by
      rw [hd, hfailure]
      cases hk : d.arena.find? g with
      | some m =>
        have hm : d'.arena.find? g = some m := by
          rw [harena]
          exact Arena.find?_join_of_eq_some hk
        rw [hm] at hg
        exact h.failed g k (hk.trans hg)
      | none =>
        -- The slot is new, so it remembers nothing.
        right
        have hgf : g = c.fingerprint := by
          by_contra hne
          rw [harena, Arena.find?_join_of_ne _ hne, hk] at hg
          exact nomatch hg
        have hnew : (d.arena.join g).1 = d.arena.next := by
          unfold Arena.join
          rw [hk]
          rfl
        rw [harena, ← hgf, Arena.find?_join_self, hnew] at hg
        rw [← Option.some.inj hg]
        exact h.books.failure?_next
    searching := fun c' hc' k hk => by
      rw [hd, hfailure]
      rcases List.mem_cons.mp hc' with rfl | hc'
      · exact absurd hk (Stage.not_searches rfl)
      · exact h.searching c' (List.mem_cons_of_mem _ hc') k hk }

theorem leave {outcome : Outcome} (h : d.Sound (c :: others))
    (hc : c.stage = .holding n (.leave outcome))
    (harena : d'.arena = d.arena.leave c.fingerprint n) (hindex : d'.index = d.index) :
    d'.Sound ({ c with stage := .finished outcome } :: others) := by
  have hd (g : Fingerprint) : d'.find? g = d.find? g := find?_of_index hindex g
  have hn : d.arena.find? c.fingerprint = some n :=
    h.head_taken (by rw [hc]; exact decide_eq_true rfl)
  have hworkers : workers ({ c with stage := .finished outcome } :: others) =
      workers (c :: others) := by
    refine workers_of_stage (fun k => ?_) others
    rw [hc]
    exact (Bool.and_false _).symm
  have hholders (k : Nat) : holders (c :: others) k =
      holders ({ c with stage := .finished outcome } :: others) k + if k = n then 1 else 0 := by
    rw [holders_cons, holders_cons, hc]
    simp only [Stage.holds, Bool.false_eq_true, if_false, Nat.add_zero, decide_eq_true_eq,
      @eq_comm _ k]
  obtain ⟨hbooks, hother, hself⟩ := h.books.leave hn hholders fun hzero => by
    have hle := workers_le_holders ({ c with stage := .finished outcome } :: others) n
    rw [← hworkers]
    omega
  have hfind (g : Fingerprint) (k : Nat) (hg : d'.arena.find? g = some k) :
      d.arena.find? g = some k := by
    rw [harena] at hg
    by_cases hgf : g = c.fingerprint
    · rw [hgf, hself] at hg
      rw [hgf, hn]
      split at hg
      · exact nomatch hg
      · exact hg
    · rw [← hother g hgf]
      exact hg
  have hfailure (k : Nat) (hk : d.arena.failure? k = none) : d'.arena.failure? k = none := by
    rw [harena]
    cases he : (d.arena.leave c.fingerprint n).failure? k with
    | none => rfl
    | some e =>
      rw [Arena.failure?_eq_some_of_leave he] at hk
      exact nomatch hk
  exact {
    books := by
      rw [harena, hworkers]
      exact hbooks
    taken := fun c' hc' k hk => by
      rcases List.mem_cons.mp hc' with rfl | hmem
      · exact absurd hk Bool.false_ne_true
      · have htaken := h.taken c' (List.mem_cons_of_mem _ hmem) k hk
        rw [harena]
        by_cases hgf : c'.fingerprint = c.fingerprint
        · rw [hgf, hn] at htaken
          have hkn : n = k := Option.some.inj htaken
          have hpos : 0 < holders ({ c with stage := .finished outcome } :: others) n :=
            List.countP_pos_iff.mpr ⟨c', hc', hkn ▸ hk⟩
          rw [hgf, hself, if_neg (by omega), hkn]
        · rw [hother _ hgf]
          exact htaken
    failed := fun g k hg => by
      rw [hd]
      rcases h.failed g k (hfind g k hg) with hm | hk
      · exact .inl hm
      · exact .inr (hfailure k hk)
    searching := fun c' hc' k hk => by
      rw [hd]
      rcases List.mem_cons.mp hc' with rfl | hc'
      · exact absurd hk Bool.false_ne_true
      · have hs := h.searching c' (List.mem_cons_of_mem _ hc') k hk
        exact ⟨hs.1, hfailure k hs.2⟩ }

theorem move (h : d.Sound (c :: others)) (hready : c.isBlocked d = false)
    (hmove : Moves c.fingerprint c.entry d d' c.stage stage) :
    d'.Sound ({ c with stage } :: others) := by
  obtain ⟨order, before⟩ := c
  cases hmove with
  | hit m hm hd => exact h.stay hd (fun _ => rfl) (fun _ => rfl) nofun
  | miss hm hd => exact h.stay hd (fun _ => rfl) (fun _ => rfl) nofun
  | join harena hindex => exact h.join rfl harena hindex
  | lock n harena hindex =>
    refine h.update harena hindex (fun _ => rfl) (decide_eq_true rfl) (fun _ => rfl)
      (fun m hm => ?_) (fun slot hslot hl => ?_) (.inl fun _ => rfl) fun m hm => ?_
    · simp [Stage.works, Task.isWorking, hm.symm]
    · -- The lock was off, so nobody worked with the slot.
      have hoff : slot.locked = false := by
        simpa [isBlocked, Arena.isLocked, hslot] using hready
      rw [hoff] at hl
      rw [workers_cons] at hl ⊢
      simp only [Stage.works, Task.isWorking, decide_true, Bool.true_and, if_true] at hl ⊢
      simp only [Bool.false_eq_true, if_false] at hl
      omega
    · exact absurd hm (Stage.not_searches rfl)
  | refuse n failure hfailure hd =>
    refine h.stay hd (fun _ => rfl) (fun _ => rfl) fun m hm => ?_
    exact absurd hm (Stage.not_searches rfl)
  | find n m hfailure hm hd =>
    refine h.stay hd (fun _ => rfl) (fun _ => rfl) fun k hk => ?_
    exact absurd hk (Stage.not_searches rfl)
  | search n hfailure hm hd =>
    refine h.stay hd (fun _ => rfl) (fun _ => rfl) fun k hk => ?_
    have hkn : n = k := of_decide_eq_true (Bool.and_eq_true_iff.mp hk).1
    exact ⟨hm, hkn ▸ hfailure⟩
  | goOn n task task' ht ht' hd =>
    refine h.stay hd (fun _ => rfl) (fun k => ?_) fun k hk => ?_
    · simp only [Stage.works, Task.isWorking_of_isSearching ht, Task.isWorking_of_isSearching ht']
    · refine h.searching _ List.mem_cons_self k ?_
      rw [Stage.searches, ht'] at hk
      rw [Stage.searches, ht]
      exact hk
  | giveUp n task outcome ht hd =>
    refine h.stay hd (fun _ => rfl) (fun k => ?_) fun k hk => ?_
    · simp only [Stage.works, Task.isWorking_of_isSearching ht]
      rfl
    · exact absurd hk (Stage.not_searches rfl)
  | fail n failure harena hindex =>
    refine h.update harena hindex (fun _ => rfl) (decide_eq_true rfl) (fun _ => rfl)
      (fun _ _ => rfl) (fun slot _ hl => ?_) (.inr ⟨?_, ?_⟩) fun m hm => ?_
    · rw [workers_cons] at hl ⊢
      exact hl
    · simp [Stage.searches, Task.isSearching]
    · simp [Stage.searches, Task.isSearching]
    · exact absurd hm (Stage.not_searches rfl)
  | insert n m outcome harena hindex =>
    have hs : (Stage.holding n (.insert m)).searches n = true := by
      simp [Stage.searches, Task.isSearching]
    refine h.insert hs harena hindex (fun _ => rfl) (fun _ => rfl) fun k => ?_
    simp [Stage.searches, Task.isSearching]
  | unlock n outcome harena hindex =>
    have hone := h.workers_le_one n
    refine h.update harena hindex (fun _ => rfl) (decide_eq_true rfl) (fun _ => rfl)
      (fun m hm => ?_) (fun slot _ hl => ?_) (.inl fun _ => rfl) fun m hm => ?_
    · simp [Stage.works, Task.isWorking, hm.symm]
    · rw [workers_cons] at hone ⊢
      simp only [Stage.works, Task.isWorking, decide_true, Bool.true_and, if_true,
        Bool.false_eq_true, Bool.and_false, if_false] at hone ⊢
      omega
    · exact absurd hm (Stage.not_searches rfl)
  | leave n outcome harena hindex => exact h.leave rfl harena hindex

theorem arrive (h : d.Sound calls) (order : KeyedRequest) :
    d.Sound (⟨order, .lookup⟩ :: calls) where
  books := by
    have hh : holders (⟨order, .lookup⟩ :: calls) = holders calls := funext fun k => by
      rw [holders_cons]
      exact Nat.add_zero _
    have hw : workers (⟨order, .lookup⟩ :: calls) = workers calls := funext fun k => by
      rw [workers_cons]
      exact Nat.add_zero _
    rw [hh, hw]
    exact h.books
  taken c hc n hn := by
    rcases List.mem_cons.mp hc with rfl | hc
    · exact absurd hn Bool.false_ne_true
    · exact h.taken c hc n hn
  failed := h.failed
  searching c hc n hn := by
    rcases List.mem_cons.mp hc with rfl | hc
    · exact absurd hn Bool.false_ne_true
    · exact h.searching c hc n hn

end Depot.Sound

namespace Traffic

variable {σ : Type} {host : Host σ} {t : Traffic σ}

theorem IsQuiet.sound (h : t.IsQuiet) : t.site.depot.Sound t.calls := by
  have hfind (f : Fingerprint) : t.site.depot.arena.find? f = none := by
    unfold Arena.find?
    rw [h.listed]
    rfl
  have hslot (n : Nat) : t.site.depot.arena.slot? n = none := by
    unfold Arena.slot?
    rw [h.slots]
    rfl
  rw [h.calls]
  exact {
    books := {
      nodup := by
        rw [h.listed]
        exact List.nodup_nil
      inj := fun f g n hf => by
        rw [hfind] at hf
        exact nomatch hf
      fresh := fun f n hf => by
        rw [hfind] at hf
        exact nomatch hf
      listed := fun n slot hn => by
        rw [hslot] at hn
        exact nomatch hn
      slot := fun f n hf => by
        rw [hfind] at hf
        exact nomatch hf
      idle := fun n _ => ⟨rfl, rfl⟩ }
    taken := fun c hc => absurd hc List.not_mem_nil
    failed := fun f n hf => by
      rw [hfind] at hf
      exact nomatch hf
    searching := fun c hc => absurd hc List.not_mem_nil }

theorem turn_of_blocked {i : Nat} {c : Call} (hc : t.calls[i]? = some c)
    (hblocked : c.isBlocked t.site.depot = true) : t.turn host i = t := by
  unfold turn
  rw [hc]
  exact if_pos hblocked

theorem turn_of_ready {i : Nat} {c : Call} (hc : t.calls[i]? = some c)
    (hready : c.isBlocked t.site.depot = false) :
    t.turn host i = ⟨(Call.act host c.order t.site c.stage).2,
      t.calls.set i { c with stage := (Call.act host c.order t.site c.stage).1 }⟩ := by
  unfold turn
  rw [hc]
  simp only [hready, Bool.false_eq_true, if_false]

/-- A turn is a move of one call among the others, or nothing happens. -/
theorem turn_cases (t : Traffic σ) (i : Nat) :
    t.turn host i = t ∨ ∃ c others stage,
      t.calls.Perm (c :: others) ∧ (t.turn host i).calls.Perm ({ c with stage } :: others) ∧
        c.isBlocked t.site.depot = false ∧
        Moves c.fingerprint c.entry t.site.depot (t.turn host i).site.depot c.stage stage := by
  unfold turn
  cases hc : t.calls[i]? with
  | none => exact .inl rfl
  | some c =>
    obtain ⟨hi, hget⟩ := List.getElem?_eq_some_iff.mp hc
    by_cases hb : c.isBlocked t.site.depot = true
    · exact .inl (if_pos hb)
    · by_cases hr : c.stage.rank = 0
      · -- A call that has ended stays as it is.
        left
        obtain ⟨outcome, hs⟩ := Stage.eq_finished_of_rank hr
        obtain ⟨order, stage⟩ := c
        obtain rfl : stage = .finished outcome := hs
        show Traffic.mk t.site (t.calls.set i ⟨order, .finished outcome⟩) = t
        rw [← hget, List.set_getElem_self]
      · right
        refine ⟨c, t.calls.eraseIdx i, (Call.act host c.order t.site c.stage).1, ?_, ?_,
          Bool.eq_false_iff.mpr hb, ?_⟩
        · rw [← hget]
          exact (List.getElem_cons_eraseIdx_perm hi).symm
        · simp only [if_neg hb]
          exact List.set_perm_cons_eraseIdx hi _
        · simp only [if_neg hb]
          exact Call.moves_act host c.order t.site c.stage hr

theorem sound_next (h : t.site.depot.Sound t.calls) (move : Move σ) :
    (t.next host move).site.depot.Sound (t.next host move).calls := by
  cases move with
  | arrive path request =>
    show (t.arrive host path request).site.depot.Sound (t.arrive host path request).calls
    unfold arrive
    cases hp : t.site.prepare host path request with
    | mk outcome site =>
      have hd : site.depot = t.site.depot := congrArg (·.2.depot) hp.symm
      cases outcome with
      | error e =>
        show site.depot.Sound t.calls
        rw [hd]
        exact h
      | ok order =>
        show site.depot.Sound (t.calls ++ [⟨order, .lookup⟩])
        rw [hd]
        exact (h.arrive order).perm (List.perm_append_singleton _ _).symm
  | turn i =>
    show (t.turn host i).site.depot.Sound (t.turn host i).calls
    rcases t.turn_cases i with he | ⟨c, others, stage, hp, hp', hready, hmove⟩
    · rw [he]
      exact h
    · exact ((h.perm hp).move hready hmove).perm hp'.symm
  | outside world => exact h

theorem sound_run (h : t.site.depot.Sound t.calls) (moves : List (Move σ)) :
    (t.run host moves).site.depot.Sound (t.run host moves).calls := by
  induction moves generalizing t with
  | nil => exact h
  | cons move moves ih => exact ih (sound_next h move)

end Traffic
end KernelDepot
