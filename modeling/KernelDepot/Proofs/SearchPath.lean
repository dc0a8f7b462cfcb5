/-
Which provider answers for a name.

Providers are asked in turn and the first that has the name decides, whether it serves the
file or cannot read it: `Answers` says this of a list of registrations, and the lemmas on
`resolveAmong` say that a search does it.  A search path is put together by registering,
unregistering and adding roots, and none of these leaves two providers of one identity in
it, so a provider is known by its identity.
-/
import KernelDepot.SearchPath
import Mathlib.Data.List.Nodup
import Mathlib.Data.List.Perm.Basic

namespace KernelDepot

theorem nodup_append_singleton {α : Type} {l : List α} {a : α} (h : l.Nodup) (ha : a ∉ l) :
    (l ++ [a]).Nodup := by
  rw [← List.concat_eq_append]
  exact h.concat ha

namespace SearchPath

/-! ## Search paths that can be put together -/

/-- The search paths that registering, unregistering and adding roots lead to. -/
inductive Assembled : SearchPath → Prop where
  | empty : Assembled {}
  | register {s : SearchPath} (provider : Provider) (priority : Int) :
    Assembled s → Assembled (s.register provider priority)
  | unregister {s : SearchPath} (id : String) : Assembled s → Assembled (s.unregister id)
  | withRoots {s : SearchPath} (disk : Disk) (roots : List String) :
    Assembled s → Assembled (s.withRoots disk roots)

theorem nodup_order_unregister {s : SearchPath} (h : s.order.Nodup) (id : String) :
    (s.unregister id).order.Nodup :=
  List.Nodup.sublist (List.filter_sublist.map _) h

theorem not_mem_order_unregister (s : SearchPath) (id : String) :
    id ∉ (s.unregister id).order := by
  simp [order, unregister]

theorem nodup_order_insert {s : SearchPath} (h : s.order.Nodup) (provider : Provider)
    (priority : Int) (pinned : Bool) : (s.insert provider priority pinned).order.Nodup := by
  have hrest := nodup_order_unregister h provider.id
  have hnew := not_mem_order_unregister s provider.id
  unfold insert order
  refine ((List.mergeSort_perm _ _).map _).nodup_iff.mpr ?_
  rw [List.map_append, List.map_singleton]
  exact nodup_append_singleton hrest hnew

theorem nodup_order_withRoots {s : SearchPath} (h : s.order.Nodup) (disk : Disk)
    (roots : List String) : (s.withRoots disk roots).order.Nodup := by
  unfold withRoots
  induction roots generalizing s with
  | nil => exact h
  | cons root roots ih => exact ih (nodup_order_insert h _ 0 true)

/-- The providers of a search path have distinct identities. -/
theorem Assembled.nodup_order {s : SearchPath} (h : s.Assembled) : s.order.Nodup := by
  induction h with
  | empty => exact List.nodup_nil
  | register provider priority _ ih => exact nodup_order_insert ih provider priority false
  | unregister id _ ih => exact nodup_order_unregister ih id
  | withRoots disk roots _ ih => exact nodup_order_withRoots ih disk roots

/-- A provider is known by its identity. -/
theorem Assembled.eq_of_id_eq {s : SearchPath} (h : s.Assembled) {a b : Registration}
    (ha : a ∈ s.registrations) (hb : b ∈ s.registrations) (hid : a.provider.id = b.provider.id) :
    a = b :=
  List.inj_on_of_nodup_map h.nodup_order ha hb hid

/-! ## The first answer -/

/-- Of some providers that are asked in turn for a name, `r` is the first that has it, and
this is its content or the reason why it cannot be read. -/
inductive Answers (disk : Disk) (name : String) :
    List Registration → Registration → Except FileFault Bytes → Prop where
  | serves {r : Registration} {rest : List Registration} {content : Bytes} :
    r.provider.lookup disk name = .ok (some content) → Answers disk name (r :: rest) r (.ok content)
  | fails {r : Registration} {rest : List Registration} {cause : FileFault} :
    r.provider.lookup disk name = .error cause → Answers disk name (r :: rest) r (.error cause)
  | later {q r : Registration} {rest : List Registration} {answer : Except FileFault Bytes} :
    q.provider.lookup disk name = .ok none → Answers disk name rest r answer →
      Answers disk name (q :: rest) r answer

section
variable {disk : Disk} {name : String} {asked : List Registration}

theorem Answers.mem {r : Registration} {answer : Except FileFault Bytes}
    (h : Answers disk name asked r answer) : r ∈ asked := by
  induction h with
  | serves _ => exact List.mem_cons_self
  | fails _ => exact List.mem_cons_self
  | later _ _ ih => exact List.mem_cons_of_mem _ ih

/-- Who answers does so by a look-up. -/
theorem Answers.lookup_eq {r : Registration} {answer : Except FileFault Bytes}
    (h : Answers disk name asked r answer) :
    r.provider.lookup disk name = answer.map some := by
  induction h with
  | serves h => exact h
  | fails h => exact h
  | later _ _ ih => exact ih

/-- What a search says: the first answer, or that nobody has the name. -/
theorem resolveAmong_spec (disk : Disk) (name : String) (asked : List Registration) :
    (resolveAmong disk name asked = .ok none ∧
      ∀ r ∈ asked, r.provider.lookup disk name = .ok none) ∨
    (∃ r content, resolveAmong disk name asked = .ok (some ⟨r.provider.id, content⟩) ∧
      Answers disk name asked r (.ok content)) ∨
    (∃ r cause, resolveAmong disk name asked = .error ⟨name, r.provider.id, cause⟩ ∧
      Answers disk name asked r (.error cause)) := by
  induction asked with
  | nil => exact .inl ⟨rfl, fun r hr => absurd hr List.not_mem_nil⟩
  | cons q rest ih =>
    unfold resolveAmong ask
    cases hq : q.provider.lookup disk name with
    | error cause => exact .inr (.inr ⟨q, cause, rfl, .fails hq⟩)
    | ok found =>
      cases found with
      | some content => exact .inr (.inl ⟨q, content, rfl, .serves hq⟩)
      | none =>
        rcases ih with ⟨hr, hall⟩ | ⟨r, content, hr, ha⟩ | ⟨r, cause, hr, ha⟩
        · exact .inl ⟨hr, List.forall_mem_cons.mpr ⟨hq, hall⟩⟩
        · exact .inr (.inl ⟨r, content, hr, .later hq ha⟩)
        · exact .inr (.inr ⟨r, cause, hr, .later hq ha⟩)

theorem Answers.unique {r q : Registration} {answer other : Except FileFault Bytes}
    (h : Answers disk name asked r answer) (h' : Answers disk name asked q other) :
    r = q ∧ answer = other := by
  induction h with
  | serves h =>
    cases h' with
    | serves h' => exact ⟨rfl, congrArg _ (Option.some.inj (Except.ok.inj (h.symm.trans h')))⟩
    | fails h' => exact nomatch h.symm.trans h'
    | later h' _ => exact nomatch h.symm.trans h'
  | fails h =>
    cases h' with
    | serves h' => exact nomatch h.symm.trans h'
    | fails h' => exact ⟨rfl, congrArg _ (Except.error.inj (h.symm.trans h'))⟩
    | later h' _ => exact nomatch h.symm.trans h'
  | later h _ ih =>
    cases h' with
    | serves h' => exact nomatch h.symm.trans h'
    | fails h' => exact nomatch h.symm.trans h'
    | later _ h' => exact ih h'

/-- Where somebody has the name it is not the case that nobody has it. -/
theorem Answers.exists_ne {r : Registration} {answer : Except FileFault Bytes}
    (h : Answers disk name asked r answer) :
    ¬ ∀ q ∈ asked, q.provider.lookup disk name = .ok none := by
  intro hall
  have hr := (hall r h.mem).symm.trans h.lookup_eq
  cases answer with
  | ok content => exact nomatch Except.ok.inj hr
  | error cause => exact nomatch hr

theorem resolveAmong_eq_none_iff : resolveAmong disk name asked = .ok none ↔
    ∀ r ∈ asked, r.provider.lookup disk name = .ok none := by
  rcases resolveAmong_spec disk name asked with ⟨hr, hall⟩ | ⟨r, content, hr, ha⟩ |
    ⟨r, cause, hr, ha⟩
  · exact ⟨fun _ => hall, fun _ => hr⟩
  · exact ⟨fun h => (nomatch h.symm.trans hr), fun h => absurd h ha.exists_ne⟩
  · exact ⟨fun h => (nomatch h.symm.trans hr), fun h => absurd h ha.exists_ne⟩

theorem resolveAmong_eq_some_iff {hit : Resolution} :
    resolveAmong disk name asked = .ok (some hit) ↔
      ∃ r, Answers disk name asked r (.ok hit.content) ∧ r.provider.id = hit.provider := by
  rcases resolveAmong_spec disk name asked with ⟨hr, hall⟩ | ⟨r, content, hr, ha⟩ |
    ⟨r, cause, hr, ha⟩
  · exact ⟨fun h => (nomatch h.symm.trans hr), fun ⟨_, hq, _⟩ => absurd hall hq.exists_ne⟩
  · constructor
    · intro h
      obtain rfl := Option.some.inj (Except.ok.inj (hr.symm.trans h))
      exact ⟨r, ha, rfl⟩
    · rintro ⟨q, hq, hid⟩
      obtain ⟨rfl, hcontent⟩ := ha.unique hq
      rw [hr, hid, Except.ok.inj hcontent]
  · exact ⟨fun h => (nomatch h.symm.trans hr), fun ⟨_, hq, _⟩ => nomatch (ha.unique hq).2⟩

theorem resolveAmong_eq_error_iff {u : Unreadable} :
    resolveAmong disk name asked = .error u ↔
      ∃ r cause, Answers disk name asked r (.error cause) ∧ u = ⟨name, r.provider.id, cause⟩ := by
  rcases resolveAmong_spec disk name asked with ⟨hr, hall⟩ | ⟨r, content, hr, ha⟩ |
    ⟨r, cause, hr, ha⟩
  · exact ⟨fun h => (nomatch h.symm.trans hr), fun ⟨_, _, hq, _⟩ => absurd hall hq.exists_ne⟩
  · exact ⟨fun h => (nomatch h.symm.trans hr), fun ⟨_, _, hq, _⟩ => nomatch (ha.unique hq).2⟩
  · constructor
    · intro h
      exact ⟨r, cause, ha, (Except.error.inj (hr.symm.trans h)).symm⟩
    · rintro ⟨q, cause', hq, rfl⟩
      obtain ⟨rfl, hcause⟩ := ha.unique hq
      rw [hr, Except.error.inj hcause]

end

end SearchPath
end KernelDepot
