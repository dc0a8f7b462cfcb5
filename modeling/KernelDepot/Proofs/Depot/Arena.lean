/-
Slots and references.

`Counted` says that an arena keeps its books: the slot of a listed fingerprint is referred
to by the arena and by so many holders, its lock is on if somebody has it, and there are
no other slots.  Joining, leaving, locking and unlocking keep the books, and a fingerprint
is listed as long as its slot has holders.
-/
import KernelDepot.Depot.Arena
import KernelDepot.Proofs.NameTable

namespace KernelDepot
namespace Arena

/-! ## What the operations do to a look-up -/

theorem lookup_filter_ne {α β : Type} [DecidableEq α] (l : List (α × β)) (n m : α) :
    (l.filter fun s => s.1 ≠ n).lookup m = if m = n then none else l.lookup m := by
  rw [lookup_filter (fun k => decide (k ≠ n))]
  by_cases hm : m = n
  · rw [if_neg (by simpa using hm), if_pos hm]
  · rw [if_pos (by simpa using hm), if_neg hm]

theorem slot?_set (a : Arena) (n m : Nat) (slot : Option Slot) :
    (a.set n slot).slot? m = if m = n then slot else a.slot? m := by
  show ((slot.map (n, ·)).toList ++ a.slots.filter fun s => s.1 ≠ n).lookup m = _
  cases slot with
  | none => exact lookup_filter_ne _ _ _
  | some s =>
    show ((n, s) :: a.slots.filter fun s => s.1 ≠ n).lookup m = _
    rw [List.lookup_cons, lookup_filter_ne]
    by_cases hm : m = n
    · rw [hm, beq_self_eq_true, if_pos rfl, if_pos rfl]
    · rw [beq_false_of_ne hm, if_neg hm, if_neg hm]
      rfl

@[simp] theorem slot?_set_self (a : Arena) (n : Nat) (slot : Option Slot) :
    (a.set n slot).slot? n = slot := by
  rw [slot?_set, if_pos rfl]

theorem slot?_set_of_ne (a : Arena) {n m : Nat} (slot : Option Slot) (h : m ≠ n) :
    (a.set n slot).slot? m = a.slot? m := by
  rw [slot?_set, if_neg h]

@[simp] theorem find?_update (a : Arena) (n : Nat) (change : Slot → Slot) (f : Fingerprint) :
    (a.update n change).find? f = a.find? f := rfl

@[simp] theorem find?_drop (a : Arena) (n : Nat) (f : Fingerprint) :
    (a.drop n).find? f = a.find? f := rfl

theorem slot?_update (a : Arena) (n m : Nat) (change : Slot → Slot) :
    (a.update n change).slot? m = if m = n then (a.slot? n).map change else a.slot? m :=
  slot?_set a n m _

theorem failure?_update_of_eq (a : Arena) (n m : Nat) (change : Slot → Slot)
    (h : ∀ slot, (change slot).failure = slot.failure) :
    (a.update n change).failure? m = a.failure? m := by
  unfold failure?
  rw [slot?_update]
  by_cases hm : m = n
  · rw [if_pos hm, hm]
    cases a.slot? n with
    | none => rfl
    | some slot => exact h slot
  · rw [if_neg hm]

theorem failure?_update_of_ne (a : Arena) {n m : Nat} (change : Slot → Slot) (h : m ≠ n) :
    (a.update n change).failure? m = a.failure? m := by
  unfold failure?
  rw [slot?_update, if_neg h]

/-- A slot that is left after somebody gave it up remembers what it remembered before. -/
theorem exists_slot?_of_drop {a : Arena} {n m : Nat} {slot : Slot}
    (h : (a.drop n).slot? m = some slot) :
    ∃ before, a.slot? m = some before ∧ before.failure = slot.failure := by
  unfold drop at h
  rw [slot?_set] at h
  by_cases hm : m = n
  · rw [if_pos hm] at h
    obtain ⟨before, hbefore, hleft⟩ := Option.bind_eq_some_iff.mp h
    refine ⟨before, hm ▸ hbefore, ?_⟩
    split at hleft
    · exact nomatch hleft
    · rw [← Option.some.inj hleft]
  · rw [if_neg hm] at h
    exact ⟨slot, h, rfl⟩

theorem exists_slot?_of_leave {a : Arena} {f : Fingerprint} {n m : Nat} {slot : Slot}
    (h : (a.leave f n).slot? m = some slot) :
    ∃ before, a.slot? m = some before ∧ before.failure = slot.failure := by
  unfold leave at h
  simp only at h
  split at h
  · split at h
    · obtain ⟨between, hbetween, hsame⟩ := exists_slot?_of_drop (a := _) h
      obtain ⟨before, hbefore, hsame'⟩ := exists_slot?_of_drop (a := a) hbetween
      exact ⟨before, hbefore, hsame'.trans hsame⟩
    · exact exists_slot?_of_drop h
  · exact exists_slot?_of_drop h

theorem failure?_eq_some_of_leave {a : Arena} {f : Fingerprint} {n m : Nat} {e : CompileFailure}
    (h : (a.leave f n).failure? m = some e) : a.failure? m = some e := by
  obtain ⟨slot, hslot, he⟩ := Option.bind_eq_some_iff.mp h
  obtain ⟨before, hbefore, hsame⟩ := exists_slot?_of_leave hslot
  exact Option.bind_eq_some_iff.mpr ⟨before, hbefore, hsame.trans he⟩

theorem isLocked_update (a : Arena) (n : Nat) (change : Slot → Slot)
    (h : ∀ slot, (change slot).locked = false) : (a.update n change).isLocked n = false := by
  unfold isLocked
  rw [slot?_update, if_pos rfl]
  cases a.slot? n with
  | none => rfl
  | some slot => exact h slot

theorem isLocked_join {a : Arena} {f : Fingerprint} (h : a.find? f = none) :
    (a.join f).2.isLocked (a.join f).1 = false := by
  unfold join
  rw [h]
  show Option.any _ ((a.set a.next (some { references := 2 })).slot? a.next) = false
  rw [slot?_set_self]
  rfl

theorem find?_join_self (a : Arena) (f : Fingerprint) :
    (a.join f).2.find? f = some (a.join f).1 := by
  unfold join
  cases hf : a.find? f with
  | some n => exact hf
  | none => exact List.lookup_cons_self

theorem find?_join_of_ne (a : Arena) {f g : Fingerprint} (h : g ≠ f) :
    (a.join f).2.find? g = a.find? g := by
  unfold join
  cases hf : a.find? f with
  | some n => rfl
  | none =>
    show List.lookup g ((f, a.next) :: a.listed) = _
    rw [List.lookup_cons, beq_false_of_ne h]
    rfl

theorem find?_join_of_eq_some {a : Arena} {f g : Fingerprint} {n : Nat}
    (h : a.find? g = some n) : (a.join f).2.find? g = some n := by
  by_cases hg : g = f
  · subst hg
    unfold join
    rw [h]
    exact h
  · rw [find?_join_of_ne a hg, h]

/-! ## The books -/

/-- The books of an arena: `holders` says how many hold the slot with a number, and `workers`
how many of those have its lock. -/
structure Counted (a : Arena) (holders workers : Nat → Nat) : Prop where
  nodup : (a.listed.map Prod.fst).Nodup
  inj : ∀ f g n, a.find? f = some n → a.find? g = some n → f = g
  fresh : ∀ f n, a.find? f = some n → n < a.next
  listed : ∀ n slot, a.slot? n = some slot → ∃ f, a.find? f = some n
  slot : ∀ f n, a.find? f = some n → ∃ slot, a.slot? n = some slot ∧
    slot.references = holders n + 1 ∧ 0 < holders n ∧ (if slot.locked then 1 else 0) = workers n
  idle : ∀ n, (∀ f, a.find? f ≠ some n) → holders n = 0 ∧ workers n = 0

namespace Counted

variable {a : Arena} {holders workers holders' workers' : Nat → Nat} {f : Fingerprint} {n : Nat}

/-- The listed slot of a fingerprint gets other holders. -/
theorem set (h : Counted a holders workers) (hn : a.find? f = some n) {slot : Slot}
    (hrefs : slot.references = holders' n + 1) (hpos : 0 < holders' n)
    (hlock : (if slot.locked then 1 else 0) = workers' n)
    (hrest : ∀ m, m ≠ n → holders' m = holders m ∧ workers' m = workers m) :
    Counted (a.set n (some slot)) holders' workers' where
  nodup := h.nodup
  inj := h.inj
  fresh := h.fresh
  listed m slot' hm := by
    by_cases he : m = n
    · exact ⟨f, he ▸ hn⟩
    · rw [slot?_set_of_ne a _ he] at hm
      exact h.listed m slot' hm
  slot g m hg := by
    by_cases he : m = n
    · rw [he, slot?_set_self]
      exact ⟨slot, rfl, hrefs, hpos, hlock⟩
    · rw [slot?_set_of_ne a _ he, (hrest m he).1, (hrest m he).2]
      exact h.slot g m hg
  idle m hm := by
    have hne : m ≠ n := fun e => hm f (e ▸ hn)
    rw [(hrest m hne).1, (hrest m hne).2]
    exact h.idle m hm

/-- A new slot is listed for a fingerprint that has none, and somebody takes it. -/
theorem add (h : Counted a holders workers) (hf : a.find? f = none)
    (hh : ∀ m, holders' m = holders m + if m = a.next then 1 else 0) :
    Counted { a.set a.next (some { references := 2 }) with
      listed := (f, a.next) :: a.listed, next := a.next + 1 } holders' workers := by
  have hnext : ∀ g, a.find? g ≠ some a.next := by
    intro g hg
    exact Nat.lt_irrefl _ (h.fresh g _ hg)
  have hself : List.lookup f ((f, a.next) :: a.listed) = some a.next := List.lookup_cons_self
  have hother (g : Fingerprint) (hg : g ≠ f) :
      List.lookup g ((f, a.next) :: a.listed) = a.find? g := by
    rw [List.lookup_cons, beq_false_of_ne hg]
    rfl
  have hfind (g : Fingerprint) (m : Nat)
      (hg : List.lookup g ((f, a.next) :: a.listed) = some m) :
      (g = f ∧ m = a.next) ∨ (g ≠ f ∧ a.find? g = some m) := by
    by_cases he : g = f
    · rw [he, hself] at hg
      exact .inl ⟨he, (Option.some.inj hg).symm⟩
    · rw [hother g he] at hg
      exact .inr ⟨he, hg⟩
  have hslot? (m : Nat) : (a.set a.next (some { references := 2 })).slot? m =
      if m = a.next then some { references := 2 } else a.slot? m := slot?_set a a.next m _
  -- Nobody can have held a number that was not given out.
  obtain ⟨hzero, hwork⟩ := h.idle a.next hnext
  exact {
    nodup := by
      refine List.nodup_cons.mpr ⟨fun hmem => ?_, h.nodup⟩
      obtain ⟨e, he, hef⟩ := List.mem_map.mp hmem
      have hne := List.lookup_eq_none_iff.mp hf e he
      rw [hef, bne_self_eq_false] at hne
      exact Bool.false_ne_true hne
    inj := fun g g' m hg hg' => by
      rcases hfind g m hg with ⟨he, hm⟩ | ⟨-, hm⟩ <;>
        rcases hfind g' m hg' with ⟨he', hm'⟩ | ⟨-, hm'⟩
      · rw [he, he']
      · exact absurd (hm ▸ hm') (hnext g')
      · exact absurd (hm' ▸ hm) (hnext g)
      · exact h.inj g g' m hm hm'
    fresh := fun g m hg => by
      show m < a.next + 1
      rcases hfind g m hg with ⟨-, hm⟩ | ⟨-, hm⟩
      · omega
      · have hlt := h.fresh g m hm
        omega
    listed := fun m slot hm => by
      by_cases he : m = a.next
      · exact ⟨f, he ▸ hself⟩
      · obtain ⟨g, hg⟩ := h.listed m slot ((slot?_set_of_ne a _ he).symm.trans hm)
        have hgf : g ≠ f := by
          intro e
          rw [e, hf] at hg
          exact nomatch hg
        exact ⟨g, (hother g hgf).trans hg⟩
    slot := fun g m hg => by
      show ∃ slot, (a.set a.next (some { references := 2 })).slot? m = some slot ∧ _
      rw [hslot?, hh]
      rcases hfind g m hg with ⟨-, hm⟩ | ⟨-, hm⟩
      · rw [hm, if_pos rfl, if_pos rfl, hzero, hwork]
        exact ⟨_, rfl, rfl, Nat.one_pos, rfl⟩
      · have hne : m ≠ a.next := fun e => hnext g (e ▸ hm)
        rw [if_neg hne, if_neg hne]
        exact h.slot g m hm
    idle := fun m hm => by
      have hne : m ≠ a.next := fun e => hm f (e ▸ hself)
      rw [hh, if_neg hne]
      refine h.idle m fun g hg => ?_
      have hgf : g ≠ f := by
        intro e
        rw [e, hf] at hg
        exact nomatch hg
      exact hm g ((hother g hgf).trans hg) }

/-- The slot of a fingerprint is gone and listed no more, for nobody holds it. -/
theorem remove {b : Arena} (h : Counted a holders workers) (hf : a.find? f = some n)
    (hlisted : b.listed = a.listed.filter fun entry => entry.1 ≠ f) (hnext : b.next = a.next)
    (hslot : ∀ m, b.slot? m = if m = n then none else a.slot? m)
    (hnobody : holders' n = 0 ∧ workers n = 0)
    (hrest : ∀ m, m ≠ n → holders' m = holders m) : Counted b holders' workers := by
  have hfind (g : Fingerprint) : b.find? g = if g = f then none else a.find? g := by
    unfold find?
    rw [hlisted]
    exact lookup_filter_ne a.listed f g
  have hother (g : Fingerprint) (m : Nat) (hg : b.find? g = some m) :
      a.find? g = some m ∧ m ≠ n := by
    rw [hfind] at hg
    by_cases he : g = f
    · rw [if_pos he] at hg
      exact nomatch hg
    · rw [if_neg he] at hg
      exact ⟨hg, fun hm => he (h.inj g f n (hm ▸ hg) hf)⟩
  have hkept (g : Fingerprint) (m : Nat) (hm : m ≠ n) (hg : a.find? g = some m) :
      b.find? g = some m := by
    have hgf : g ≠ f := by
      intro e
      rw [e, hf] at hg
      exact hm (Option.some.inj hg).symm
    rw [hfind, if_neg hgf, hg]
  exact {
    nodup := by
      rw [hlisted]
      exact h.nodup.sublist (List.filter_sublist.map _)
    inj := fun g g' m hg hg' => h.inj g g' m (hother g m hg).1 (hother g' m hg').1
    fresh := fun g m hg => by
      rw [hnext]
      exact h.fresh g m (hother g m hg).1
    listed := fun m slot hm => by
      rw [hslot] at hm
      by_cases he : m = n
      · rw [if_pos he] at hm
        exact nomatch hm
      · rw [if_neg he] at hm
        obtain ⟨g, hg⟩ := h.listed m slot hm
        exact ⟨g, hkept g m he hg⟩
    slot := fun g m hg => by
      obtain ⟨hm, hne⟩ := hother g m hg
      rw [hslot, if_neg hne, hrest m hne]
      exact h.slot g m hm
    idle := fun m hm => by
      by_cases he : m = n
      · rw [he]
        exact hnobody
      · rw [hrest m he]
        exact h.idle m fun g hg => hm g (hkept g m he hg) }

/-- A change that leaves the references alone. -/
theorem update {change : Slot → Slot} (h : Counted a holders workers)
    (hrefs : ∀ slot, (change slot).references = slot.references) (hn : a.find? f = some n)
    (hlock : ∀ slot, a.slot? n = some slot → (if slot.locked then 1 else 0) = workers n →
      (if (change slot).locked then 1 else 0) = workers' n)
    (hrest : ∀ m, m ≠ n → workers' m = workers m) :
    Counted (a.update n change) holders workers' := by
  obtain ⟨slot, hslot, hr, hpos, hl⟩ := h.slot f n hn
  unfold Arena.update
  rw [hslot]
  exact h.set hn ((hrefs slot).trans hr) hpos (hlock slot hslot hl) fun m hm => ⟨rfl, hrest m hm⟩

/-- Somebody takes the slot of a fingerprint. -/
theorem join (h : Counted a holders workers)
    (hh : ∀ m, holders' m = holders m + if m = (a.join f).1 then 1 else 0) :
    Counted (a.join f).2 holders' workers := by
  unfold Arena.join at hh ⊢
  cases hf : a.find? f with
  | some n =>
    rw [hf] at hh
    obtain ⟨slot, hslot, hr, -, hl⟩ := h.slot f n hf
    have hn : holders' n = holders n + 1 := by rw [hh, if_pos rfl]
    show Counted (a.update n _) holders' workers
    unfold Arena.update
    rw [hslot]
    refine h.set hf ?_ (by omega) hl fun m hm => ⟨?_, rfl⟩
    · show slot.references + 1 = holders' n + 1
      omega
    · rw [hh, if_neg hm]
      rfl
  | none =>
    rw [hf] at hh
    exact h.add hf hh

/-- A number that was not given out remembers nothing. -/
theorem failure?_next (h : Counted a holders workers) : a.failure? a.next = none := by
  cases hslot : a.slot? a.next with
  | none =>
    unfold failure?
    rw [hslot]
    rfl
  | some slot =>
    obtain ⟨g, hg⟩ := h.listed _ slot hslot
    exact absurd (h.fresh g _ hg) (Nat.lt_irrefl _)

theorem failure?_join (h : Counted a holders workers) (m : Nat) :
    (a.join f).2.failure? m = a.failure? m := by
  unfold Arena.join
  cases hf : a.find? f with
  | some n => exact failure?_update_of_eq a n m _ fun _ => rfl
  | none =>
    show ((a.set a.next _).slot? m).bind _ = _
    rw [slot?_set]
    by_cases hm : m = a.next
    · rw [if_pos hm, hm, h.failure?_next]
      rfl
    · rw [if_neg hm]
      rfl

/-- A slot that is new remembers nothing. -/
theorem failure?_join_self (h : Counted a holders workers) (hf : a.find? f = none) :
    (a.join f).2.failure? (a.join f).1 = none := by
  rw [h.failure?_join]
  unfold Arena.join
  rw [hf]
  exact h.failure?_next

theorem leave (h : Counted a holders workers) (hf : a.find? f = some n)
    (hh : ∀ m, holders m = holders' m + if m = n then 1 else 0)
    (hw : holders' n = 0 → workers n = 0) :
    Counted (a.leave f n) holders' workers ∧
      (∀ g, g ≠ f → (a.leave f n).find? g = a.find? g) ∧
      (a.leave f n).find? f = if holders' n = 0 then none else some n := by
  obtain ⟨slot, hslot, hr, -, hl⟩ := h.slot f n hf
  have hhn : holders n = holders' n + 1 := by rw [hh, if_pos rfl]
  have hrest (m : Nat) (hm : m ≠ n) : holders' m = holders m := by
    rw [hh, if_neg hm]
    rfl
  have hdrop : a.drop n = a.set n (some { slot with references := slot.references - 1 }) := by
    unfold Arena.drop
    rw [hslot]
    show a.set n (if slot.references ≤ 1 then none else _) = _
    rw [if_neg (by omega)]
  have hleft : (a.drop n).slot? n = some { slot with references := slot.references - 1 } := by
    rw [hdrop, slot?_set_self]
  by_cases hlast : holders' n = 0
  · -- Only the arena is left, which takes the slot off its list and lets go of it.
    have hleave : a.leave f n =
        { a.drop n with listed := a.listed.filter fun entry => entry.1 ≠ f }.drop n := by
      have hone : ((a.drop n).slot? n).any (fun slot => slot.references = 1) = true := by
        rw [hleft]
        exact decide_eq_true (show slot.references - 1 = 1 by omega)
      unfold Arena.leave
      simp only [find?_drop, hf, hone, if_true]
      rfl
    have hgone (m : Nat) : (a.leave f n).slot? m = if m = n then none else a.slot? m := by
      rw [hleave]
      by_cases hm : m = n
      · rw [if_pos hm, hm]
        show (Arena.set _ n _).slot? n = _
        rw [slot?_set_self]
        show ((a.drop n).slot? n).bind _ = none
        rw [hleft]
        exact if_pos (by simp only; omega)
      · rw [if_neg hm]
        exact (slot?_set_of_ne _ _ hm).trans (slot?_set_of_ne a _ hm)
    have hlisted : (a.leave f n).listed = a.listed.filter fun entry => entry.1 ≠ f := by
      rw [hleave]
      rfl
    have hfind (g : Fingerprint) : (a.leave f n).find? g = if g = f then none else a.find? g := by
      unfold find?
      rw [hlisted]
      exact lookup_filter_ne a.listed f g
    have hnext : (a.leave f n).next = a.next := by
      rw [hleave]
      rfl
    refine ⟨h.remove hf hlisted hnext hgone ⟨hlast, hw hlast⟩ hrest, ?_, ?_⟩
    · intro g hg
      rw [hfind, if_neg hg]
    · rw [hfind, if_pos rfl, if_pos hlast]
  · have hleave : a.leave f n = a.drop n := by
      have hmany : ((a.drop n).slot? n).any (fun slot => slot.references = 1) = false := by
        rw [hleft]
        exact decide_eq_false (show slot.references - 1 ≠ 1 by omega)
      unfold Arena.leave
      simp only [find?_drop, hf, hmany, Bool.false_eq_true, if_false]
    rw [hleave, if_neg hlast]
    refine ⟨?_, fun g _ => rfl, hf⟩
    rw [hdrop]
    refine h.set hf ?_ (by omega) hl fun m hm => ⟨hrest m hm, rfl⟩
    show slot.references - 1 = holders' n + 1
    omega

end Counted
end Arena
end KernelDepot
