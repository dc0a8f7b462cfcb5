/-
The search order after any history.

A history of calls is read as one of happenings: a provider comes in, at the end of the
line, or one goes.  Who is left is said by the history alone: a provider that came in stands
until something later concerns its identity (`survivors`).  The theorem is that a search path
is just these, sorted by one key.
-/
import KernelDepot.Proofs.SearchPath
import Mathlib.Data.Prod.Lex
import Mathlib.Order.OrderDual

namespace KernelDepot

namespace Registration

/-- Where a registration stands in the search: roots of a request first, then by descending
priority, then by category, then by time. -/
def key (r : Registration) : Bool ×ₗ ℤᵒᵈ ×ₗ ℕ ×ₗ ℕ :=
  toLex (!r.pinned, toLex (OrderDual.toDual r.priority, toLex (r.provider.kind.rank, r.serial)))

theorem rank_inj {a b : ProviderKind} : a.rank = b.rank ↔ a = b := by
  cases a <;> cases b <;> decide

theorem before_iff (a b : Registration) : a.before b = true ↔ a.key ≤ b.key := by
  unfold before key
  simp only [Prod.Lex.toLex_le_toLex, OrderDual.toDual_lt_toDual, EmbeddingLike.apply_eq_iff_eq,
    rank_inj]
  by_cases hpinned : a.pinned = b.pinned
  · by_cases hpriority : a.priority = b.priority
    · by_cases hkind : a.provider.kind = b.provider.kind
      · simp [hpinned, hpriority, hkind]
      · simp [hpinned, hpriority, hkind]
    · simp [hpinned, hpriority]
  · cases ha : a.pinned <;> cases hb : b.pinned <;> simp_all

end Registration

namespace SearchPath

/-! ## Histories -/

/-- One call on a search path. -/
inductive Edit where
  | register (provider : Provider) (priority : Int)
  | unregister (id : String)
  | addRoots (disk : Disk) (roots : List String)

def edit (s : SearchPath) : Edit → SearchPath
  | .register provider priority => s.register provider priority
  | .unregister id => s.unregister id
  | .addRoots disk roots => s.withRoots disk roots

/-- The search path that some calls lead to. -/
def ofEdits (edits : List Edit) : SearchPath := edits.foldl edit {}

/-- What calls amount to for a single provider. -/
inductive Happening where
  | comes (provider : Provider) (priority : Int) (pinned : Bool)
  | goes (id : String)

namespace Happening

def id : Happening → String
  | comes provider _ _ => provider.id
  | goes id => id

/-- The registration that somebody who comes in at a time gets. -/
def added (time : Nat) : Happening → List Registration
  | comes provider priority pinned => [⟨provider, priority, pinned, time⟩]
  | goes _ => []

end Happening

def Edit.happenings : Edit → List Happening
  | register provider priority => [.comes provider priority false]
  | unregister id => [.goes id]
  | addRoots disk roots =>
    roots.map fun root => .comes (IncludeRoot.atPath disk root).provider 0 true

/-- How many come in. -/
def arrivals (hs : List Happening) : Nat := (hs.flatMap (Happening.added 0)).length

/-- The registrations that stand after some happenings from a time on: one that is added
stands if nothing later concerns its provider. -/
def survivors : Nat → List Happening → List Registration
  | _, [] => []
  | time, h :: later =>
    (if later.any fun h' => h'.id = h.id then [] else h.added time) ++
      survivors (time + arrivals [h]) later

theorem arrivals_append (hs hs' : List Happening) :
    arrivals (hs ++ hs') = arrivals hs + arrivals hs' := by
  unfold arrivals
  rw [List.flatMap_append, List.length_append]

theorem arrivals_cons (h : Happening) (hs : List Happening) :
    arrivals (h :: hs) = arrivals [h] + arrivals hs :=
  arrivals_append [h] hs

theorem Happening.id_of_mem_added {h : Happening} {time : Nat} {r : Registration}
    (hr : r ∈ h.added time) : r.provider.id = h.id := by
  cases h with
  | comes provider priority pinned =>
    obtain rfl := List.mem_singleton.mp hr
    rfl
  | goes id => exact absurd hr List.not_mem_nil

/-- The last happening ends the registration that it concerns and adds its own. -/
theorem survivors_concat (time : Nat) (hs : List Happening) (h : Happening) :
    survivors time (hs ++ [h]) =
      (survivors time hs).filter (fun r => r.provider.id ≠ h.id) ++
        h.added (time + arrivals hs) := by
  induction hs generalizing time with
  | nil => simp [survivors, arrivals]
  | cons first hs ih =>
    have hfirst : (first.added time).filter (fun r => decide (r.provider.id ≠ h.id)) =
        if first.id = h.id then [] else first.added time := by
      split
      · next heq =>
        exact List.filter_eq_nil_iff.mpr fun r hr => by
          simp [first.id_of_mem_added hr, heq]
      · next hne =>
        exact List.filter_eq_self.mpr fun r hr => by
          simp [first.id_of_mem_added hr, hne]
    have hany : ((hs ++ [h]).any fun h' => decide (h'.id = first.id)) =
        ((hs.any fun h' => decide (h'.id = first.id)) || decide (first.id = h.id)) := by
      simp [eq_comm]
    rw [List.cons_append, survivors, survivors, ih, hany, arrivals_cons first hs,
      List.filter_append, ← Nat.add_assoc, List.append_assoc]
    congr 1
    cases hs.any fun h' => decide (h'.id = first.id) with
    | true => simp
    | false =>
      rw [Bool.false_or, if_neg Bool.false_ne_true, hfirst]
      simp

/-- Who came in later has a later time. -/
theorem pairwise_serial_survivors (time : Nat) (hs : List Happening) :
    (∀ r ∈ survivors time hs, time ≤ r.serial) ∧
      (survivors time hs).Pairwise fun a b => a.serial < b.serial := by
  induction hs generalizing time with
  | nil => exact ⟨fun r hr => absurd hr List.not_mem_nil, List.Pairwise.nil⟩
  | cons first hs ih =>
    obtain ⟨hlate, hpairs⟩ := ih (time + arrivals [first])
    unfold survivors
    cases first with
    | goes id =>
      rw [Happening.added, ite_self, List.nil_append]
      exact ⟨hlate, hpairs⟩
    | comes provider priority pinned =>
      have hlater : ∀ r ∈ survivors (time + 1) hs, time < r.serial := hlate
      split
      · exact ⟨fun r hr => (hlater r hr).le, hpairs⟩
      · refine ⟨List.forall_mem_cons.mpr ⟨le_rfl, fun r hr => (hlater r hr).le⟩, ?_⟩
        exact List.Pairwise.cons hlater hpairs

/-! ## One happening -/

def happen (s : SearchPath) : Happening → SearchPath
  | .comes provider priority pinned => s.insert provider priority pinned
  | .goes id => s.unregister id

theorem edit_eq (s : SearchPath) (e : Edit) : s.edit e = e.happenings.foldl happen s := by
  cases e with
  | register provider priority => rfl
  | unregister id => rfl
  | addRoots disk roots =>
    unfold Edit.happenings
    rw [List.foldl_map]
    rfl

/-- The search path holds who is left of some happenings, in the order of the key. -/
structure Reflects (s : SearchPath) (hs : List Happening) : Prop where
  nextSerial : s.nextSerial = arrivals hs
  perm : s.registrations.Perm (survivors 0 hs)
  sorted : s.registrations.Pairwise fun a b => a.key ≤ b.key

theorem pairwise_key_mergeSort (rs : List Registration) :
    (rs.mergeSort Registration.before).Pairwise fun a b => a.key ≤ b.key := by
  have hsorted := @List.pairwise_mergeSort _ Registration.before
    (fun a b c hab hbc => (Registration.before_iff a c).mpr
      (((Registration.before_iff a b).mp hab).trans ((Registration.before_iff b c).mp hbc)))
    (fun a b => by
      rw [Bool.or_eq_true, Registration.before_iff, Registration.before_iff]
      exact le_total a.key b.key) rs
  exact hsorted.imp fun h => (Registration.before_iff _ _).mp h

namespace Reflects

variable {s : SearchPath} {hs : List Happening}

/-- One happening more. -/
theorem happen (hr : s.Reflects hs) (h : Happening) : (s.happen h).Reflects (hs ++ [h]) := by
  have hrest : (s.unregister h.id).registrations.Perm
      ((survivors 0 hs).filter fun r => r.provider.id ≠ h.id) := hr.perm.filter _
  have htime := hr.nextSerial
  have hconcat := survivors_concat 0 hs h
  rw [Nat.zero_add, ← htime] at hconcat
  cases h with
  | comes provider priority pinned =>
    refine ⟨?_, ?_, pairwise_key_mergeSort _⟩
    · rw [arrivals_append, ← htime]
      rfl
    · rw [hconcat]
      exact (List.mergeSort_perm _ _).trans (hrest.append_right _)
  | goes id =>
    refine ⟨?_, ?_, hr.sorted.filter _⟩
    · rw [arrivals_append, ← htime]
      rfl
    · rw [hconcat, Happening.added, List.append_nil]
      exact hrest

theorem foldl (hr : s.Reflects hs) (more : List Happening) :
    (more.foldl SearchPath.happen s).Reflects (hs ++ more) := by
  induction more generalizing s hs with
  | nil => rwa [List.append_nil]
  | cons h more ih =>
    have hall := ih (hr.happen h)
    rwa [List.append_assoc] at hall

/-- No two keys are equal, since no two times are. -/
theorem strictlySorted (hr : s.Reflects hs) :
    s.registrations.Pairwise fun a b => a.key < b.key := by
  have hserial : s.registrations.Pairwise fun a b => a.serial ≠ b.serial :=
    (hr.perm.pairwise_iff fun h => h.symm).mpr
      ((pairwise_serial_survivors 0 hs).2.imp fun h => h.ne)
  refine (hr.sorted.and hserial).imp fun ⟨hle, hne⟩ => lt_of_le_of_ne hle fun heq => hne ?_
  exact congrArg (fun key => (ofLex (ofLex (ofLex key).2).2).2) heq

end Reflects

theorem reflects_ofEdits (edits : List Edit) :
    (ofEdits edits).Reflects (edits.flatMap Edit.happenings) := by
  have hempty : ({} : SearchPath).Reflects [] := ⟨rfl, .nil, .nil⟩
  have hall := hempty.foldl (edits.flatMap Edit.happenings)
  rw [List.foldl_flatMap, List.nil_append] at hall
  have hedit : edit = fun s e => e.happenings.foldl SearchPath.happen s :=
    funext fun s => funext fun e => edit_eq s e
  rw [ofEdits, hedit]
  exact hall

/-! ## What a history leads to -/

theorem Assembled.edit {s : SearchPath} (h : s.Assembled) (e : Edit) : (s.edit e).Assembled := by
  cases e with
  | register provider priority => exact h.register provider priority
  | unregister id => exact h.unregister id
  | addRoots disk roots => exact h.withRoots disk roots

theorem Assembled.foldl_edit {s : SearchPath} (h : s.Assembled) (edits : List Edit) :
    (edits.foldl SearchPath.edit s).Assembled := by
  induction edits generalizing s with
  | nil => exact h
  | cons e edits ih => exact ih (h.edit e)

theorem has_iff (s : SearchPath) (id : String) : s.has id = true ↔ id ∈ s.order := by
  simp [has, order]

theorem order_unregister (s : SearchPath) (id : String) :
    (s.unregister id).order = s.order.filter (· ≠ id) := by
  unfold order unregister
  rw [List.filter_map]
  rfl

theorem length_unregister_ne_iff (s : SearchPath) (id : String) :
    (s.unregister id).registrations.length ≠ s.registrations.length ↔ id ∈ s.order := by
  unfold unregister
  rw [← (List.length_filter_le _ _).lt_iff_ne, List.length_filter_lt_length_iff_exists]
  simp [order]

/-- After any calls the providers have distinct identities, and they are the survivors of the
history in the order of the key.  A provider can be taken away exactly if it is there, and the
others keep their order.  A name is resolved by the first provider that has it, whether it
serves the file or cannot read it. -/
theorem ordered_ofEdits (edits : List Edit) :
    (ofEdits edits).order.Nodup ∧
    (ofEdits edits).registrations.Perm (survivors 0 (edits.flatMap Edit.happenings)) ∧
    ((ofEdits edits).registrations.Pairwise fun a b => a.key < b.key) ∧
    (∀ id, ((ofEdits edits).has id = true ↔ id ∈ (ofEdits edits).order) ∧
      (((ofEdits edits).unregister id).registrations.length ≠
        (ofEdits edits).registrations.length ↔ id ∈ (ofEdits edits).order) ∧
      ((ofEdits edits).unregister id).order = (ofEdits edits).order.filter (· ≠ id)) ∧
    ∀ disk name,
      ((ofEdits edits).resolve disk name = .ok none ↔
        ∀ r ∈ (ofEdits edits).registrations, r.provider.lookup disk name = .ok none) ∧
      (∀ hit, (ofEdits edits).resolve disk name = .ok (some hit) ↔
        ∃ r, Answers disk name (ofEdits edits).registrations r (.ok hit.content) ∧
          r.provider.id = hit.provider) ∧
      ∀ failure, (ofEdits edits).resolve disk name = .error failure ↔
        ∃ r cause, Answers disk name (ofEdits edits).registrations r (.error cause) ∧
          failure = ⟨name, r.provider.id, cause⟩ := by
  have hr := reflects_ofEdits edits
  refine ⟨(Assembled.empty.foldl_edit edits).nodup_order, hr.perm, hr.strictlySorted, fun id => ?_,
    fun disk name => ?_⟩
  · exact ⟨has_iff _ id, length_unregister_ne_iff _ id, order_unregister _ id⟩
  · exact ⟨resolveAmong_eq_none_iff, fun _ => resolveAmong_eq_some_iff,
      fun _ => resolveAmong_eq_error_iff⟩

end SearchPath
end KernelDepot
