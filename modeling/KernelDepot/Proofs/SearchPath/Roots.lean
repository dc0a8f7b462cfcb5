/-
The roots of a request.

Every root is put behind the roots that are there already, and a root that is mentioned again is
taken away from where it stood.  So a root counts where it is mentioned last, and this is not
always the order of the list: a name that two roots have is answered by the second one if the
first is mentioned once more behind it.
-/
import KernelDepot.Proofs.SearchPath.Placement
import KernelDepot.Proofs.Text.Utf8
import KernelDepot.Provider.Embedded
import Mathlib.Data.List.Dedup
import Mathlib.Data.List.Induction

namespace KernelDepot

theorem dedup_concat {α : Type} [DecidableEq α] (l : List α) (a : α) :
    (l ++ [a]).dedup = l.dedup.filter (· ≠ a) ++ [a] := by
  induction l with
  | nil => rfl
  | cons b l ih =>
    rw [List.cons_append, List.dedup_cons, List.dedup_cons, ih]
    by_cases hb : b ∈ l
    · rw [if_pos hb, if_pos (List.mem_append_left _ hb)]
    · rw [if_neg hb]
      by_cases hba : b = a
      · subst hba
        rw [if_pos (List.mem_append_right _ List.mem_cons_self),
          List.filter_cons_of_neg (by simp)]
      · have hmem : b ∉ l ++ [a] := by simp [hb, hba]
        rw [if_neg hmem, List.filter_cons_of_pos (by simp [hba]), List.cons_append]

namespace IncludeRoot

/-- The content that a root has for a name. -/
def content? (r : IncludeRoot) (disk : Disk) (name : String) : Option Bytes :=
  (r.locate disk name).bind fun path => (disk.read path).toOption

/-- The answer of the first of some roots that has a name. -/
def first? (disk : Disk) (name : String) (roots : List IncludeRoot) : Option Resolution :=
  roots.findSome? fun r => (r.content? disk name).map fun content => ⟨r.id, content⟩

theorem isFile_of_locate {r : IncludeRoot} {disk : Disk} {name path : String}
    (h : r.locate disk name = some path) : disk.isFile path = true := by
  unfold locate at h
  simp only at h
  split at h
  · exact nomatch h
  · split at h
    · exact nomatch h
    · split at h
      · next hfile =>
        rw [← Option.some.inj h]
        exact (Bool.and_eq_true_iff.mp hfile).2
      · exact nomatch h

theorem lookup_provider (r : IncludeRoot) : r.provider.lookup = r.lookup := rfl

/-- What is found is a file, so it can be read. -/
theorem lookup_eq (r : IncludeRoot) (disk : Disk) (name : String) :
    r.lookup disk name = .ok (r.content? disk name) := by
  unfold lookup content?
  cases hlocate : r.locate disk name with
  | none => rfl
  | some path =>
    have hfile := isFile_of_locate hlocate
    unfold Disk.isFile at hfile
    split at hfile
    · next content hstat =>
      have hread : disk.read path = .ok content := by
        unfold Disk.read
        rw [hstat]
        rfl
      simp only [Option.bind_some, hread]
      rfl
    · exact absurd hfile Bool.false_ne_true

/-- What a root has in a place that no link leads to. -/
theorem content?_of_locate {r : IncludeRoot} {disk : Disk} {name : String} {place : Place}
    {content : Bytes} (hname : isDescending (slashed name) && r.servesExtension (slashed name))
    (hpath : Path.join r.root (slashed name) = Disk.pathOf place)
    (hinside : Path.startsWith (Disk.pathOf place) r.root && !Disk.isTooLong (Disk.pathOf place))
    (hlocate : ∀ single, disk.locate true single (Disk.pathOf place) =
      .ok ⟨place, some (.file content)⟩) :
    r.content? disk name = some content := by
  obtain ⟨hdescending, hserves⟩ := Bool.and_eq_true_iff.mp hname
  obtain ⟨hinside, hshort⟩ := Bool.and_eq_true_iff.mp hinside
  have hcanonical : disk.canonical (Disk.pathOf place) = .ok (Disk.pathOf place) := by
    unfold Disk.canonical
    rw [hlocate]
    rfl
  have hstat : disk.stat (Disk.pathOf place) = .ok (.file content) := by
    unfold Disk.stat Disk.resolve
    rw [Bool.eq_false_of_not_eq_true' hshort, if_neg Bool.false_ne_true, hlocate]
    rfl
  have hfile : disk.isFile (Disk.pathOf place) = true := by
    unfold Disk.isFile
    rw [hstat]
  have hfound : r.locate disk name = some (Disk.pathOf place) := by
    unfold locate
    simp only [hdescending, hserves, hpath, hcanonical, hinside, hfile]
    rfl
  unfold content? Disk.read
  rw [hfound, Option.bind_some, hstat]
  rfl

theorem first?_eq_none_iff {disk : Disk} {name : String} {roots : List IncludeRoot} :
    first? disk name roots = none ↔ ∀ r ∈ roots, r.content? disk name = none := by
  unfold first?
  rw [List.findSome?_eq_none_iff]
  simp only [Option.map_eq_none_iff]

theorem first?_dedup_eq_none_iff {disk : Disk} {name : String} {roots : List IncludeRoot} :
    first? disk name roots.dedup = none ↔ first? disk name roots = none := by
  rw [first?_eq_none_iff, first?_eq_none_iff]
  simp only [List.mem_dedup]

theorem id_of_first? {disk : Disk} {name : String} {roots : List IncludeRoot} {hit : Resolution}
    (h : first? disk name roots = some hit) : ∃ r ∈ roots, r.id = hit.provider := by
  obtain ⟨r, hr, hcontent⟩ := List.exists_of_findSome?_eq_some h
  obtain ⟨content, -, rfl⟩ := Option.map_eq_some_iff.mp hcontent
  exact ⟨r, hr, rfl⟩

theorem extensions_atPath (disk : Disk) (path : String) : (atPath disk path).extensions = none := by
  unfold atPath
  split <;> rfl

theorem id_atPath_inj {disk : Disk} {path path' : String} :
    (atPath disk path).id = (atPath disk path').id ↔ atPath disk path = atPath disk path' := by
  constructor
  · intro h
    have hroot : (atPath disk path).root = (atPath disk path').root := by
      have hlist := congrArg String.toList h
      unfold id at hlist
      rw [String.toList_append, String.toList_append] at hlist
      exact String.toList_inj.mp (List.append_cancel_left hlist)
    have hextensions : (atPath disk path).extensions = (atPath disk path').extensions := by
      rw [extensions_atPath, extensions_atPath]
    cases hp : atPath disk path
    cases hp' : atPath disk path'
    rw [hp, hp'] at hroot hextensions
    exact congrArg₂ IncludeRoot.mk hroot hextensions
  · exact congrArg id

/-- A directory that has a letter for its name is a root under its path. -/
theorem atPath_letter {disk : Disk} {c : Char} (hc : c.toNat ≠ 0 ∧ c ≠ '/' ∧ c ≠ '.')
    (hentry : disk.entryAt [String.singleton c] = some .directory) (hworking : disk.working = []) :
    atPath disk (String.singleton c) = ⟨"/" ++ String.singleton c, none⟩ := by
  obtain ⟨hzero, hslash, hpoint⟩ := hc
  have hsegments : Path.segments (String.singleton c) = [String.singleton c] := by
    unfold Path.segments List.splitOn
    rw [String.toList_singleton, List.splitOnP_eq_singleton (by simpa using hslash)]
    rfl
  have hpath : Disk.pathOf [String.singleton c] = "/" ++ String.singleton c := by
    simp [Disk.pathOf]
  have hnul : Disk.hasNul (String.singleton c) = false := by
    simpa [Disk.hasNul] using hzero
  have habsolute : Path.isAbsolute (String.singleton c) = false := by
    unfold Path.isAbsolute
    rw [String.toList_singleton, List.isPrefixOf_cons_cons, beq_false_of_ne hslash.symm,
      Bool.false_and]
  have hname : String.singleton c ≠ "" ∧ String.singleton c ≠ "." ∧ String.singleton c ≠ ".." := by
    simp only [ne_eq, ← String.toList_inj, String.toList_singleton]
    simpa using hpoint
  have hshort : (Text.bytes (String.singleton c)).length ≤ Disk.nameLimit := by
    have hlength := Text.length_bytes_le (String.singleton c)
    rw [String.length_singleton] at hlength
    exact hlength.trans (by decide)
  have hreach : Disk.isWithinReach [String.singleton c] .directory [] = true := by
    have hlength := Text.length_bytes_le ("/" ++ String.singleton c)
    rw [String.length_append, String.length_singleton] at hlength
    have hlong : Disk.isTooLong ("/" ++ String.singleton c) = false :=
      Bool.and_eq_false_iff.mpr (.inr (decide_eq_false (Nat.not_lt.mpr
        (hlength.trans (by decide)))))
    show (!Disk.isTooLong (Disk.pathOf [String.singleton c])) = true
    rw [hpath, hlong]
    rfl
  have hwalk : disk.walk true true Disk.linkLimit [] [String.singleton c] =
      .ok ⟨[String.singleton c], some .directory⟩ := by
    have hroot : disk.entryAt [] = some .directory := rfl
    simp [Disk.walk, hroot, hentry, hname, hreach, Nat.not_lt.mpr hshort]
  have hlocate : disk.locate true true (String.singleton c) =
      .ok ⟨[String.singleton c], some .directory⟩ := by
    unfold Disk.locate Disk.origin
    rw [hnul, habsolute, hsegments, hworking, if_neg Bool.false_ne_true, if_neg hname.1,
      if_neg Bool.false_ne_true]
    exact hwalk
  unfold atPath Disk.canonical
  rw [hlocate, ← hpath]
  rfl

end IncludeRoot

namespace SearchPath

variable {s : SearchPath} {disk : Disk} {name : String}

/-! ## Where the roots stand -/

theorem withRoots_concat (disk : Disk) (roots : List String) (root : String) :
    s.withRoots disk (roots ++ [root]) =
      (s.withRoots disk roots).insert (IncludeRoot.atPath disk root).provider 0 true :=
  List.foldl_append

theorem key_lt_of_pinned {a b : Registration} (ha : a.pinned = true) (hb : b.pinned = false) :
    a.key < b.key :=
  Registration.key_lt_iff.mpr (.inl ⟨ha, hb⟩)

theorem IsOrdered.key_lt_root (h : s.IsOrdered) {r : Registration} (hr : r ∈ s.registrations)
    (hpinned : r.pinned = true) (root : IncludeRoot) :
    r.key < Registration.key ⟨root.provider, 0, true, s.nextSerial⟩ := by
  obtain ⟨hpriority, hkind⟩ := h.pinned_alike r hr hpinned
  refine Registration.key_lt_iff.mpr (.inr ⟨hpinned, .inr ⟨hpriority, .inr ⟨hkind, ?_⟩⟩⟩)
  exact h.serial_lt r hr

/-- Those that are pinned stand in front. -/
theorem IsOrdered.filter_pinned_append (h : s.IsOrdered) :
    s.registrations.filter (·.pinned) ++ s.registrations.filter (!·.pinned) = s.registrations := by
  refine eq_of_perm_of_sorted (List.filter_append_perm _ _) ?_ h.sorted
  refine List.pairwise_append.mpr ⟨h.sorted.filter _, h.sorted.filter _, ?_⟩
  intro a ha b hb
  have hpinned := (List.mem_filter.mp ha).2
  have hplain := (List.mem_filter.mp hb).2
  exact key_lt_of_pinned hpinned (Bool.eq_false_of_not_eq_true' hplain)

theorem filter_eq_self_of_not_mem_order {rs : List Registration} {id : String}
    (hrs : ∀ r ∈ rs, r ∈ s.registrations) (hid : id ∉ s.order) :
    rs.filter (fun r => r.provider.id ≠ id) = rs := by
  refine List.filter_eq_self.mpr fun r hr => decide_eq_true fun heq => hid ?_
  rw [← heq]
  exact List.mem_map_of_mem (hrs r hr)

/-- Taking away the registrations of a root takes away the root, if no other root has its id. -/
theorem providers_filter_ne {rs : List Registration} {roots : List IncludeRoot}
    (root : IncludeRoot) (hproviders : rs.map (·.provider) = roots.map IncludeRoot.provider)
    (hid : ∀ r ∈ roots, r.id = root.id ↔ r = root) :
    (rs.filter fun r => r.provider.id ≠ root.id).map (·.provider) =
      (roots.filter (· ≠ root)).map IncludeRoot.provider := by
  have hcongr : roots.filter (· ≠ root) = roots.filter
      ((fun p : Provider => decide (p.id ≠ root.id)) ∘ IncludeRoot.provider) :=
    List.filter_congr fun r hr => decide_eq_decide.mpr (not_congr (hid r hr).symm)
  rw [hcongr, ← List.filter_map, ← hproviders, List.filter_map]
  rfl

/-- The roots stand behind those that were pinned before and in front of all others, each where
it is mentioned last. -/
theorem IsOrdered.registrations_withRoots (h : s.IsOrdered) (disk : Disk) {roots : List String}
    (hnew : ∀ root ∈ roots, (IncludeRoot.atPath disk root).id ∉ s.order) :
    ∃ added : List Registration,
      (s.withRoots disk roots).registrations =
        s.registrations.filter (·.pinned) ++ (added ++ s.registrations.filter (!·.pinned)) ∧
      (∀ r ∈ added, r.pinned = true) ∧
      added.map (·.provider) =
        (roots.map (IncludeRoot.atPath disk)).dedup.map IncludeRoot.provider := by
  induction roots using List.reverseRecOn with
  | nil =>
    refine ⟨[], ?_, nofun, rfl⟩
    show s.registrations = _
    rw [List.nil_append, h.filter_pinned_append]
  | append_singleton roots root ih =>
    obtain ⟨added, hadded, hpinned, hproviders⟩ :=
      ih fun other hother => hnew other (List.mem_append_left _ hother)
    have hroot := hnew root (List.mem_append_right _ List.mem_cons_self)
    have hordered := h.withRoots disk roots
    have hrest : ((s.withRoots disk roots).unregister
        (IncludeRoot.atPath disk root).id).registrations =
        (s.registrations.filter (·.pinned) ++
          added.filter (fun r => r.provider.id ≠ (IncludeRoot.atPath disk root).id)) ++
          s.registrations.filter (!·.pinned) := by
      show (s.withRoots disk roots).registrations.filter _ = _
      rw [hadded, List.filter_append, List.filter_append, List.append_assoc,
        filter_eq_self_of_not_mem_order (fun r hr => List.mem_of_mem_filter hr) hroot,
        filter_eq_self_of_not_mem_order (fun r hr => List.mem_of_mem_filter hr) hroot]
    refine ⟨added.filter (fun r => r.provider.id ≠ (IncludeRoot.atPath disk root).id) ++
      [⟨(IncludeRoot.atPath disk root).provider, 0, true, (s.withRoots disk roots).nextSerial⟩],
      ?_, ?_, ?_⟩
    · rw [withRoots_concat, hordered.registrations_insert (fun _ => ⟨rfl, rfl⟩) hrest ?_ ?_]
      · simp only [List.append_assoc, List.singleton_append]
      · intro r hr
        have hmem : r ∈ (s.withRoots disk roots).registrations := by
          refine List.mem_of_mem_filter (hrest ▸ List.mem_append_left _ hr)
        refine hordered.key_lt_root hmem ?_ _
        rcases List.mem_append.mp hr with hr | hr
        · exact (List.mem_filter.mp hr).2
        · exact hpinned r (List.mem_of_mem_filter hr)
      · intro r hr
        exact key_lt_of_pinned rfl (Bool.eq_false_of_not_eq_true' (List.mem_filter.mp hr).2)
    · intro r hr
      rcases List.mem_append.mp hr with hr | hr
      · exact hpinned r (List.mem_of_mem_filter hr)
      · rw [List.mem_singleton.mp hr]
    · have hfilter := providers_filter_ne (IncludeRoot.atPath disk root) hproviders fun r hr => by
        obtain ⟨other, -, rfl⟩ := List.mem_map.mp (List.mem_dedup.mp hr)
        exact IncludeRoot.id_atPath_inj
      have hlisted : ((roots ++ [root]).map (IncludeRoot.atPath disk)).dedup =
          (roots.map (IncludeRoot.atPath disk)).dedup.filter (· ≠ IncludeRoot.atPath disk root) ++
            [IncludeRoot.atPath disk root] := by
        rw [List.map_append, List.map_singleton, dedup_concat]
      rw [hlisted, List.map_append, List.map_append, hfilter]
      rfl

/-! ## What the roots answer -/

theorem resolveAmong_of_roots {rs : List Registration} {roots : List IncludeRoot}
    (h : rs.map (·.provider) = roots.map IncludeRoot.provider) :
    resolveAmong disk name rs = .ok (IncludeRoot.first? disk name roots) := by
  induction rs generalizing roots with
  | nil =>
    obtain rfl := List.map_eq_nil_iff.mp h.symm
    rfl
  | cons r rs ih =>
    cases roots with
    | nil => exact nomatch h
    | cons root roots =>
      obtain ⟨hhead, hrest⟩ := List.cons.inj h
      have hprovider : r.provider = root.provider := hhead
      have hask : ask disk r.provider name =
          .ok ((root.content? disk name).map fun content => ⟨root.id, content⟩) := by
        unfold ask
        rw [hprovider, IncludeRoot.lookup_provider, root.lookup_eq]
        rfl
      unfold resolveAmong IncludeRoot.first?
      rw [hask, List.findSome?_cons]
      cases root.content? disk name with
      | none => exact ih hrest
      | some content => rfl

/-- A name is answered by the first root of the list that has it, and as without the roots
exactly if none has it. -/
def AnswersAsListed (s : SearchPath) (disk : Disk) (roots : List String) (name : String) : Prop :=
  (∀ hit, IncludeRoot.first? disk name (roots.map (IncludeRoot.atPath disk)) = some hit →
    ∃ found, (s.withRoots disk roots).resolve disk name = .ok (some found) ∧
      found.content = hit.content) ∧
  ((s.withRoots disk roots).resolve disk name = s.resolve disk name ↔
    ∀ root ∈ roots, (IncludeRoot.atPath disk root).content? disk name = none)

theorem IsOrdered.resolve_eq (h : s.IsOrdered) (disk : Disk) (name : String) :
    s.resolve disk name =
      match resolveAmong disk name (s.registrations.filter (·.pinned)) with
      | .ok none => resolveAmong disk name (s.registrations.filter (!·.pinned))
      | answer => answer := by
  have hparts := resolveAmong_append disk name (s.registrations.filter (·.pinned))
    (s.registrations.filter (!·.pinned))
  rwa [h.filter_pinned_append] at hparts

theorem IsOrdered.resolve_withRoots (h : s.IsOrdered) (disk : Disk) {roots : List String}
    (hnew : ∀ root ∈ roots, (IncludeRoot.atPath disk root).id ∉ s.order) (name : String) :
    (s.withRoots disk roots).resolve disk name =
      match resolveAmong disk name (s.registrations.filter (·.pinned)) with
      | .ok none =>
        match IncludeRoot.first? disk name (roots.map (IncludeRoot.atPath disk)).dedup with
        | some hit => .ok (some hit)
        | none => resolveAmong disk name (s.registrations.filter (!·.pinned))
      | answer => answer := by
  obtain ⟨added, hadded, -, hproviders⟩ := h.registrations_withRoots disk hnew
  show resolveAmong disk name (s.withRoots disk roots).registrations = _
  rw [hadded, resolveAmong_append, resolveAmong_append, resolveAmong_of_roots hproviders]
  cases IncludeRoot.first? disk name (roots.map (IncludeRoot.atPath disk)).dedup <;> rfl

theorem mem_order_of_resolve {hit : Resolution} (h : s.resolve disk name = .ok (some hit)) :
    hit.provider ∈ s.order := by
  obtain ⟨r, hr, hid⟩ := resolveAmong_eq_some_iff.mp h
  rw [← hid]
  exact List.mem_map_of_mem hr.mem

theorem IsOrdered.answersAsListed_of_none (h : s.IsOrdered) {roots : List String}
    (hnew : ∀ root ∈ roots, (IncludeRoot.atPath disk root).id ∉ s.order)
    (hnone : IncludeRoot.first? disk name (roots.map (IncludeRoot.atPath disk)) = none) :
    s.AnswersAsListed disk roots name := by
  have hresolve := h.resolve_withRoots disk hnew name
  rw [IncludeRoot.first?_dedup_eq_none_iff.mpr hnone] at hresolve
  have hsame : (s.withRoots disk roots).resolve disk name = s.resolve disk name :=
    hresolve.trans (h.resolve_eq disk name).symm
  have hlacking := IncludeRoot.first?_eq_none_iff.mp hnone
  exact ⟨fun hit hhit => (nomatch hnone.symm.trans hhit),
    iff_of_true hsame (List.forall_mem_map.mp hlacking)⟩

/-- The answer of a root is not one of the original search path, by its provider. -/
theorem resolve_ne_of_first? {roots : List String}
    (hnew : ∀ root ∈ roots, (IncludeRoot.atPath disk root).id ∉ s.order) {last : Resolution}
    (hlast : IncludeRoot.first? disk name (roots.map (IncludeRoot.atPath disk)).dedup = some last) :
    s.resolve disk name ≠ .ok (some last) := by
  intro h
  obtain ⟨r, hr, hid⟩ := IncludeRoot.id_of_first? hlast
  obtain ⟨root, hroot, rfl⟩ := List.mem_map.mp (List.mem_dedup.mp hr)
  refine hnew root hroot ?_
  rw [hid]
  exact mem_order_of_resolve h

theorem IsOrdered.answersAsListed_iff_of_some (h : s.IsOrdered) {roots : List String}
    (hnew : ∀ root ∈ roots, (IncludeRoot.atPath disk root).id ∉ s.order) {hit last : Resolution}
    (hhit : IncludeRoot.first? disk name (roots.map (IncludeRoot.atPath disk)) = some hit)
    (hlast : IncludeRoot.first? disk name (roots.map (IncludeRoot.atPath disk)).dedup = some last) :
    s.AnswersAsListed disk roots name ↔
      resolveAmong disk name (s.registrations.filter (·.pinned)) = .ok none ∧
        last.content = hit.content := by
  have hresolve := h.resolve_withRoots disk hnew name
  have hbefore := h.resolve_eq disk name
  rw [hlast] at hresolve
  have hhas : ¬ ∀ root ∈ roots, (IncludeRoot.atPath disk root).content? disk name = none := by
    rw [← List.forall_mem_map (f := IncludeRoot.atPath disk)
      (P := fun r => r.content? disk name = none), ← IncludeRoot.first?_eq_none_iff, hhit]
    exact nofun
  unfold AnswersAsListed
  rw [iff_false_right hhas]
  cases hfront : resolveAmong disk name (s.registrations.filter (·.pinned)) with
  | error failure =>
    rw [hfront] at hresolve hbefore
    exact iff_of_false (fun hlisted => hlisted.2 (hresolve.trans hbefore.symm))
      (fun h => nomatch h.1)
  | ok answer =>
    rw [hfront] at hresolve hbefore
    cases answer with
    | some other =>
      exact iff_of_false (fun hlisted => hlisted.2 (hresolve.trans hbefore.symm))
        (fun h => nomatch h.1)
    | none =>
      constructor
      · intro hlisted
        obtain ⟨found, hanswer, hcontent⟩ := hlisted.1 hit hhit
        obtain rfl : last = found := Option.some.inj (Except.ok.inj (hresolve.symm.trans hanswer))
        exact ⟨rfl, hcontent⟩
      · rintro ⟨-, hcontent⟩
        refine ⟨fun other hother => ?_, fun heq => ?_⟩
        · obtain rfl : hit = other := Option.some.inj (hhit.symm.trans hother)
          exact ⟨last, hresolve, hcontent⟩
        · exact resolve_ne_of_first? hnew hlast (heq.symm.trans hresolve)

/-- A search path with roots asks those that were pinned before, then the roots, each where it is
mentioned last, and then all others.  A name is answered as the list of roots says exactly if,
whenever a root has it, none of those that were pinned before has it and the root whose last
mention comes first has the same content for it as the one whose first mention does. -/
theorem resolve_withRoots_iff (hs : s.Assembled) (disk : Disk) {roots : List String}
    (hnew : ∀ root ∈ roots, (IncludeRoot.atPath disk root).id ∉ s.order) (name : String) :
    ((s.withRoots disk roots).resolve disk name =
      match resolveAmong disk name (s.registrations.filter (·.pinned)) with
      | .ok none =>
        match IncludeRoot.first? disk name (roots.map (IncludeRoot.atPath disk)).dedup with
        | some hit => .ok (some hit)
        | none => resolveAmong disk name (s.registrations.filter (!·.pinned))
      | answer => answer) ∧
    (s.AnswersAsListed disk roots name ↔
      ∀ hit, IncludeRoot.first? disk name (roots.map (IncludeRoot.atPath disk)) = some hit →
        (∀ r ∈ s.registrations, r.pinned = true → r.provider.lookup disk name = .ok none) ∧
        (IncludeRoot.first? disk name (roots.map (IncludeRoot.atPath disk)).dedup).map (·.content) =
          some hit.content) := by
  have hordered := hs.isOrdered
  refine ⟨hordered.resolve_withRoots disk hnew name, ?_⟩
  have hpinned : resolveAmong disk name (s.registrations.filter (·.pinned)) = .ok none ↔
      ∀ r ∈ s.registrations, r.pinned = true → r.provider.lookup disk name = .ok none := by
    rw [resolveAmong_eq_none_iff]
    simp only [List.mem_filter, and_imp]
  cases hfirst : IncludeRoot.first? disk name (roots.map (IncludeRoot.atPath disk)) with
  | none => exact iff_of_true (hordered.answersAsListed_of_none hnew hfirst) nofun
  | some hit =>
    obtain ⟨last, hlast⟩ : ∃ last, IncludeRoot.first? disk name
        (roots.map (IncludeRoot.atPath disk)).dedup = some last :=
      Option.ne_none_iff_exists'.mp fun heq =>
        nomatch hfirst.symm.trans (IncludeRoot.first?_dedup_eq_none_iff.mp heq)
    rw [hordered.answersAsListed_iff_of_some hnew hfirst hlast, hpinned, hlast]
    simp only [Option.some.injEq, forall_eq', Option.map_some]

end SearchPath

/-! ## A root that is mentioned twice -/

namespace Doubled

/-- Two directories with a header of one name. -/
def disk : Disk where
  entries := [(["a"], .directory), (["a", "x.h"], .file [1]), (["b"], .directory),
    (["b", "x.h"], .file [2])]

theorem walk_header {dir : String} {content : Bytes} (single : Bool)
    (hplain : dir ≠ "" ∧ dir ≠ "." ∧ dir ≠ ".." ∧ (Text.bytes dir).length ≤ Disk.nameLimit)
    (hdir : disk.entryAt [dir] = some .directory)
    (hheader : disk.entryAt [dir, "x.h"] = some (.file content))
    (hreach : Disk.isWithinReach [dir] .directory ["x.h"] = true ∧
      Disk.isWithinReach [dir, "x.h"] (.file content) [] = true) :
    disk.walk true single Disk.linkLimit [] ["", dir, "x.h"] =
      .ok ⟨[dir, "x.h"], some (.file content)⟩ := by
  have hroot : disk.entryAt [] = some .directory := rfl
  have hname : (Text.bytes "x.h").length ≤ Disk.nameLimit := by decide +kernel
  simp [Disk.walk, hroot, hdir, hheader, hplain, hname, hreach, Nat.not_lt.mpr]

theorem locate_a (single : Bool) :
    disk.locate true single "/a/x.h" = .ok ⟨["a", "x.h"], some (.file [1])⟩ := by
  have hnames : Path.segments "/a/x.h" = ["", "a", "x.h"] := by decide +kernel
  have hwalk : disk.walk true single Disk.linkLimit [] (Path.segments "/a/x.h") =
      .ok ⟨["a", "x.h"], some (.file [1])⟩ := by
    rw [hnames]
    exact walk_header single (by decide +kernel) rfl rfl (by decide +kernel)
  exact (if_neg (by decide +kernel)).trans ((if_neg (by decide)).trans hwalk)

theorem locate_b (single : Bool) :
    disk.locate true single "/b/x.h" = .ok ⟨["b", "x.h"], some (.file [2])⟩ := by
  have hnames : Path.segments "/b/x.h" = ["", "b", "x.h"] := by decide +kernel
  have hwalk : disk.walk true single Disk.linkLimit [] (Path.segments "/b/x.h") =
      .ok ⟨["b", "x.h"], some (.file [2])⟩ := by
    rw [hnames]
    exact walk_header single (by decide +kernel) rfl rfl (by decide +kernel)
  exact (if_neg (by decide +kernel)).trans ((if_neg (by decide)).trans hwalk)

theorem roots_eq : ["a", "b", "a"].map (IncludeRoot.atPath disk) =
    [⟨"/a", none⟩, ⟨"/b", none⟩, ⟨"/a", none⟩] := by
  have ha : IncludeRoot.atPath disk "a" = ⟨"/a", none⟩ :=
    IncludeRoot.atPath_letter (c := 'a') (by decide) rfl rfl
  have hb : IncludeRoot.atPath disk "b" = ⟨"/b", none⟩ :=
    IncludeRoot.atPath_letter (c := 'b') (by decide) rfl rfl
  rw [List.map_cons, List.map_cons, List.map_singleton, ha, hb]

theorem content?_a : (⟨"/a", none⟩ : IncludeRoot).content? disk "x.h" = some [1] := by
  have hpath : Path.join "/a" (IncludeRoot.slashed "x.h") = Disk.pathOf ["a", "x.h"] := by
    decide +kernel
  exact IncludeRoot.content?_of_locate (by decide +kernel) hpath (by decide +kernel) locate_a

theorem content?_b : (⟨"/b", none⟩ : IncludeRoot).content? disk "x.h" = some [2] := by
  have hpath : Path.join "/b" (IncludeRoot.slashed "x.h") = Disk.pathOf ["b", "x.h"] := by
    decide +kernel
  exact IncludeRoot.content?_of_locate (by decide +kernel) hpath (by decide +kernel) locate_b

/-- A search path that does not have the directories yet. -/
def path : SearchPath := SearchPath.register {} EmbeddedFiles.bundled.provider 0

theorem id_atPath_notMem_order :
    ∀ root ∈ ["a", "b", "a"], (IncludeRoot.atPath disk root).id ∉ path.order := by
  have hregistrations : path.registrations = [⟨EmbeddedFiles.bundled.provider, 0, false, 0⟩] :=
    List.mergeSort_singleton _
  have horder : path.order = ["embedded:ringkernel"] := by
    unfold SearchPath.order
    rw [hregistrations]
    rfl
  rw [← List.forall_mem_map (f := IncludeRoot.atPath disk)
    (P := fun r => r.id ∉ path.order), roots_eq, horder]
  decide

/-- The header is answered from the second directory, since the first one is mentioned once
more. -/
theorem not_answersAsListed : ¬ path.AnswersAsListed disk ["a", "b", "a"] "x.h" := by
  have hassembled : path.Assembled := .register _ _ .empty
  have hiff := (SearchPath.resolve_withRoots_iff hassembled disk id_atPath_notMem_order "x.h").2
  have hdedup : ([⟨"/a", none⟩, ⟨"/b", none⟩, ⟨"/a", none⟩] : List IncludeRoot).dedup =
      [⟨"/b", none⟩, ⟨"/a", none⟩] := by decide
  rw [roots_eq, hdedup] at hiff
  unfold IncludeRoot.first? at hiff
  rw [List.findSome?_cons, content?_a, List.findSome?_cons, content?_b] at hiff
  intro h
  exact absurd (hiff.mp h _ rfl).2 (by decide)

end Doubled

end KernelDepot
