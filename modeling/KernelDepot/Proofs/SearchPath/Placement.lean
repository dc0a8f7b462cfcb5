/-
Where a new provider comes to stand.

The registrations of a search path are sorted by their keys and no two keys are equal, because
every registration has a time of its own.  A list that is sorted in this way is known by its
members.  So it suffices to cut the other registrations in two, those before the new one and
those behind it, to know the whole order after an insertion.
-/
import KernelDepot.Proofs.SearchPath.History

namespace KernelDepot

theorem Registration.key_lt_iff {a b : Registration} : a.key < b.key ↔
    (a.pinned = true ∧ b.pinned = false) ∨ a.pinned = b.pinned ∧
      (b.priority < a.priority ∨ a.priority = b.priority ∧
        (a.provider.kind.rank < b.provider.kind.rank ∨
          a.provider.kind = b.provider.kind ∧ a.serial < b.serial)) := by
  unfold key
  simp only [Prod.Lex.toLex_lt_toLex, OrderDual.toDual_lt_toDual, EmbeddingLike.apply_eq_iff_eq,
    rank_inj]
  cases a.pinned <;> cases b.pinned <;> simp

namespace SearchPath

theorem eq_of_perm_of_sorted {as bs : List Registration} (h : as.Perm bs)
    (ha : as.Pairwise fun a b => a.key < b.key) (hb : bs.Pairwise fun a b => a.key < b.key) :
    as = bs :=
  h.eq_of_pairwise (fun _ _ _ _ hab hba => absurd hba hab.asymm) ha hb

/-- What holds of every search path that calls lead to.  Only directories are pinned, and all of
them with the same priority, so the time alone tells the roots of a request apart. -/
structure IsOrdered (s : SearchPath) : Prop where
  sorted : s.registrations.Pairwise fun a b => a.key < b.key
  serial_lt : ∀ r ∈ s.registrations, r.serial < s.nextSerial
  pinned_alike : ∀ r ∈ s.registrations, r.pinned = true →
    r.priority = 0 ∧ r.provider.kind = .directory

variable {s : SearchPath}

theorem mem_insert {provider : Provider} {priority : Int} {pinned : Bool} {r : Registration} :
    r ∈ (s.insert provider priority pinned).registrations ↔
      r ∈ (s.unregister provider.id).registrations ∨
        r = ⟨provider, priority, pinned, s.nextSerial⟩ := by
  unfold insert
  rw [List.mem_mergeSort, List.mem_append, List.mem_singleton]

namespace IsOrdered

theorem empty : IsOrdered {} := ⟨.nil, nofun, nofun⟩

theorem unregister (h : s.IsOrdered) (id : String) : (s.unregister id).IsOrdered where
  sorted := h.sorted.filter _
  serial_lt r hr := h.serial_lt r (List.mem_of_mem_filter hr)
  pinned_alike r hr := h.pinned_alike r (List.mem_of_mem_filter hr)

theorem insert (h : s.IsOrdered) {provider : Provider} {priority : Int} {pinned : Bool}
    (hpinned : pinned = true → priority = 0 ∧ provider.kind = .directory) :
    (s.insert provider priority pinned).IsOrdered := by
  have hrest := h.unregister provider.id
  have hapart : ∀ a ∈ (s.unregister provider.id).registrations,
      ∀ b ∈ [(⟨provider, priority, pinned, s.nextSerial⟩ : Registration)], a.key ≠ b.key := by
    intro a ha b hb heq
    obtain rfl := List.mem_singleton.mp hb
    have hlt : a.serial < s.nextSerial := hrest.serial_lt a ha
    have htime : a.serial = s.nextSerial :=
      congrArg (fun key => (ofLex (ofLex (ofLex key).2).2).2) heq
    omega
  have hne := List.pairwise_append.mpr
    ⟨hrest.sorted.imp fun hlt => hlt.ne, List.pairwise_singleton _ _, hapart⟩
  refine ⟨?_, fun r hr => ?_, fun r hr => ?_⟩
  · have hne := ((List.mergeSort_perm _ Registration.before).pairwise_iff
      fun hab => Ne.symm hab).mpr hne
    exact ((pairwise_key_mergeSort _).and hne).imp fun ⟨hle, hne⟩ => lt_of_le_of_ne hle hne
  · show r.serial < s.nextSerial + 1
    rcases mem_insert.mp hr with hr | rfl
    · exact Nat.lt_succ_of_lt (hrest.serial_lt r hr)
    · exact Nat.lt_succ_self _
  · rcases mem_insert.mp hr with hr | rfl
    · exact hrest.pinned_alike r hr
    · exact hpinned

theorem register (h : s.IsOrdered) (provider : Provider) (priority : Int) :
    (s.register provider priority).IsOrdered :=
  IsOrdered.insert h nofun

theorem withRoots (h : s.IsOrdered) (disk : Disk) (roots : List String) :
    (s.withRoots disk roots).IsOrdered := by
  unfold SearchPath.withRoots
  induction roots generalizing s with
  | nil => exact h
  | cons root roots ih => exact ih (h.insert fun _ => ⟨rfl, rfl⟩)

end IsOrdered

theorem Assembled.isOrdered (h : s.Assembled) : s.IsOrdered := by
  induction h with
  | empty => exact .empty
  | register provider priority _ ih => exact ih.register provider priority
  | unregister id _ ih => exact ih.unregister id
  | withRoots disk roots _ ih => exact ih.withRoots disk roots

/-- The order after an insertion, from a cut of the other registrations. -/
theorem IsOrdered.registrations_insert (h : s.IsOrdered) {provider : Provider} {priority : Int}
    {pinned : Bool} (hpinned : pinned = true → priority = 0 ∧ provider.kind = .directory)
    {front back : List Registration}
    (hrest : (s.unregister provider.id).registrations = front ++ back)
    (hfront : ∀ r ∈ front, r.key < Registration.key ⟨provider, priority, pinned, s.nextSerial⟩)
    (hback : ∀ r ∈ back, Registration.key ⟨provider, priority, pinned, s.nextSerial⟩ < r.key) :
    (s.insert provider priority pinned).registrations =
      front ++ ⟨provider, priority, pinned, s.nextSerial⟩ :: back := by
  have hsorted := (h.unregister provider.id).sorted
  rw [hrest] at hsorted
  obtain ⟨hsortedFront, hsortedBack, hacross⟩ := List.pairwise_append.mp hsorted
  have hperm : (s.insert provider priority pinned).registrations.Perm
      (front ++ ⟨provider, priority, pinned, s.nextSerial⟩ :: back) := by
    refine (List.mergeSort_perm _ _).trans ?_
    rw [hrest, List.append_assoc]
    exact (List.perm_append_singleton _ _).append_left front
  refine eq_of_perm_of_sorted hperm (h.insert hpinned).sorted ?_
  refine List.pairwise_append.mpr ⟨hsortedFront, List.pairwise_cons.mpr ⟨hback, hsortedBack⟩, ?_⟩
  intro a ha b hb
  rcases List.mem_cons.mp hb with rfl | hb
  · exact hfront a ha
  · exact hacross a ha b hb

theorem resolveAmong_append (disk : Disk) (name : String) (front back : List Registration) :
    resolveAmong disk name (front ++ back) =
      match resolveAmong disk name front with
      | .ok none => resolveAmong disk name back
      | answer => answer := by
  induction front with
  | nil => rfl
  | cons r front ih =>
    rw [List.cons_append, resolveAmong, resolveAmong, ih]
    cases ask disk r.provider name with
    | error failure => rfl
    | ok hit => cases hit <;> rfl

end SearchPath
end KernelDepot
