/-
A scan explores exactly what can be reached.

`Drains` is the scan without a bound on the number of files.  What every step of it keeps is
`Explored`: the files that were read or wait are reached, the findings have a reason, and
every file that was found was read or waits.  What reading a file adds is `Notes`: each of
its directives is accounted for.  From the first the stack is empty in time, which is
`Explored.drains`, and from both together the findings are the closure of the program when
the stack is empty, which is `Explored.isClosure`.
-/
import KernelDepot.Proofs.Include.Bound

namespace KernelDepot

def Dependency.page (d : Dependency) : Page := ⟨d.name, some d.provider, d.content⟩

namespace IncludeSpace

/-- There is a reason for a finding. -/
def Justifies (space : IncludeSpace) (root : Page) : Finding → Prop
  | .dependency f => ∃ page, space.Reaches root page ∧ space.Finds page f.name f.provider f.content
  | .builtin name => name ∈ space.builtins ∧ space.Mentions root name
  | .deferred name => name ∉ space.builtins ∧ space.Mentions root name ∧
    ∀ r ∈ space.path.registrations, r.provider.lookup space.disk name = .ok none

end IncludeSpace

namespace Survey

open IncludeSpace

/-- Read files from the stack until it is empty or one of them cannot be read on. -/
inductive Drains (space : IncludeSpace) : Survey → Except Interruption Survey → Prop where
  | done {s : Survey} : s.pending = [] → Drains space s (.ok s)
  | stop {s : Survey} {page : Page} {rest : List Page} {e : Interruption} :
    s.pending = page :: rest → read space page { s with pending := rest } = .error e →
      Drains space s (.error e)
  | next {s s' : Survey} {page : Page} {rest : List Page} {result : Except Interruption Survey} :
    s.pending = page :: rest → read space page { s with pending := rest } = .ok s' →
      Drains space s' result → Drains space s result

/-- The state of a scan that has taken the pages `seen` from its stack. -/
structure Explored (space : IncludeSpace) (root : Page) (seen : List Page) (s : Survey) : Prop where
  root_mem : root ∈ seen ++ s.pending
  reached : ∀ p ∈ seen ++ s.pending, space.Reaches root p
  justified : ∀ f ∈ s.findings, space.Justifies root f
  listed : ∀ f ∈ files s.findings, f.page ∈ seen ++ s.pending
  nodup : s.findings.Nodup
  distinct : ((files s.findings).map fun f => (f.name, f.provider)).Nodup
  /-- Every page but the first is on the stack because a file was found. -/
  count : (seen ++ s.pending).length = (files s.findings).length + 1

/-- A directive of a page is accounted for in the findings. -/
structure Notes (space : IncludeSpace) (findings : List Finding) (page : Page) (d : Directive) :
    Prop where
  builtin : d.name ∈ space.builtins → .builtin d.name ∈ findings
  deferred : d.name ∉ space.builtins → space.look page d = .ok none → .deferred d.name ∈ findings
  file : ∀ hit, d.name ∉ space.builtins → space.look page d = .ok (some hit) →
    ∃ f ∈ files findings, f.name = d.name ∧ f.provider = hit.provider
  readable : d.name ∉ space.builtins → ∀ u, space.look page d ≠ .error u

variable {space : IncludeSpace} {root page : Page} {seen : List Page} {s s' : Survey}
variable {d : Directive}

/-! ## Findings -/

theorem mem_files {findings : List Finding} {f : Dependency} :
    f ∈ files findings ↔ .dependency f ∈ findings := by
  unfold files
  rw [List.mem_filterMap]
  constructor
  · rintro ⟨g, hg, hgf⟩
    cases g with
    | dependency d => exact Option.some.inj hgf ▸ hg
    | builtin name => exact nomatch hgf
    | deferred name => exact nomatch hgf
  · exact fun h => ⟨_, h, rfl⟩

theorem mem_note (s : Survey) (f : Finding) : f ∈ (s.note f).findings := by
  unfold note
  split
  · assumption
  · exact List.mem_append_right _ List.mem_cons_self

theorem findings_subset_note (s : Survey) (f : Finding) : s.findings ⊆ (s.note f).findings := by
  unfold note
  split
  · exact List.Subset.refl _
  · exact List.subset_append_left _ _

theorem findings_subset_add (s : Survey) (page : Page) (name : String) (hit : Resolution) :
    s.findings ⊆ (s.add page name hit).findings := by
  unfold add
  split
  · exact List.Subset.refl _
  · exact List.subset_append_left _ _

theorem Notes.mono {findings more : List Finding} (h : Notes space findings page d)
    (hsub : findings ⊆ more) : Notes space more page d where
  builtin hb := hsub (h.builtin hb)
  deferred hb hl := hsub (h.deferred hb hl)
  file hit hb hl := by
    obtain ⟨f, hf, hname⟩ := h.file hit hb hl
    exact ⟨f, mem_files.mpr (hsub (mem_files.mp hf)), hname⟩
  readable := h.readable

/-! ## One directive -/

/-- Noting a name keeps the state explored. -/
theorem Explored.note {f : Finding} (h : Explored space root seen s) (hf : space.Justifies root f)
    (hname : f.dependency? = none) : Explored space root seen (s.note f) := by
  have hfiles := files_note s hname
  unfold Survey.note at hfiles ⊢
  split
  · exact h
  next hnew =>
    rw [if_neg hnew] at hfiles
    exact {
      root_mem := h.root_mem
      reached := h.reached
      justified := List.forall_mem_append.mpr ⟨h.justified, List.forall_mem_singleton.mpr hf⟩
      listed := hfiles ▸ h.listed
      nodup := nodup_append_singleton h.nodup hnew
      distinct := hfiles ▸ h.distinct
      count := hfiles ▸ h.count }

/-- A file that is found is put on the stack unless it was found before. -/
theorem Explored.add {name : String} {hit : Resolution} (h : Explored space root seen s)
    (hp : space.Reaches root page) (hf : space.Finds page name hit.provider hit.content) :
    Explored space root seen (s.add page name hit) := by
  unfold Survey.add
  split
  · exact h
  next hnew =>
    have hnew' : ∀ f ∈ files s.findings, ¬ (f.name = name ∧ f.provider = hit.provider) := by
      intro f hf he
      exact hnew ((hasSeen_iff s _ _).mpr ⟨f, hf, he⟩)
    generalize hd : (⟨name, hit.provider, hit.content, some page.label⟩ : Dependency) = d
    have hpage : (⟨name, some hit.provider, hit.content⟩ : Page) = d.page := by
      rw [← hd]
      rfl
    have hfiles : files (s.findings ++ [.dependency d]) = files s.findings ++ [d] := by
      simp [files, Finding.dependency?]
    have hknown : ∀ p, p ∈ seen ++ d.page :: s.pending ↔ p = d.page ∨ p ∈ seen ++ s.pending := by
      intro p
      simp only [List.mem_append, List.mem_cons]
      exact or_left_comm
    rw [hpage]
    refine {
      root_mem := (hknown _).mpr (.inr h.root_mem)
      reached := fun p hmem => ?_
      justified := List.forall_mem_append.mpr ⟨h.justified, List.forall_mem_singleton.mpr ?_⟩
      listed := fun f hmem => (hknown _).mpr ?_
      nodup := ?_
      distinct := ?_
      count := ?_ }
    · rcases (hknown p).mp hmem with rfl | hmem
      · rw [← hpage]
        exact .follow hp hf
      · exact h.reached p hmem
    · rw [← hd]
      exact ⟨page, hp, hf⟩
    · rw [hfiles, List.mem_append, List.mem_singleton] at hmem
      rcases hmem with hmem | rfl
      · exact .inr (h.listed f hmem)
      · exact .inl rfl
    · refine nodup_append_singleton h.nodup fun hmem => ?_
      have hsame : d.name = name ∧ d.provider = hit.provider := by
        rw [← hd]
        exact ⟨rfl, rfl⟩
      exact hnew' d (mem_files.mpr hmem) hsame
    · rw [hfiles, List.map_append, List.map_singleton]
      refine nodup_append_singleton h.distinct fun hmem => ?_
      obtain ⟨f, hf, he⟩ := List.mem_map.mp hmem
      rw [← hd] at he
      exact hnew' f hf (Prod.mk.inj he)
    · have hcount := h.count
      rw [hfiles]
      simp only [List.length_append, List.length_cons, List.length_nil] at hcount ⊢
      omega

theorem Explored.follow (h : Explored space root seen s) (hp : space.Reaches root page)
    (hd : d ∈ Directive.ofBytes page.content) (hf : follow space page s d = .ok s') :
    Explored space root seen s' ∧ s.findings ⊆ s'.findings ∧ Notes space s'.findings page d := by
  have hmentions : space.Mentions root d.name := ⟨page, hp, d, hd, rfl⟩
  rcases follow_cases hf with ⟨hb, rfl⟩ | ⟨hb, hl, rfl⟩ | ⟨hit, hb, hl, rfl⟩
  · exact ⟨h.note ⟨hb, hmentions⟩ rfl, findings_subset_note _ _, {
      builtin := fun _ => mem_note _ _
      deferred := fun hb' => absurd hb hb'
      file := fun _ hb' => absurd hb hb'
      readable := fun hb' => absurd hb hb' }⟩
  · refine ⟨h.note ⟨hb, hmentions, look_eq_none_iff.mp hl⟩ rfl, findings_subset_note _ _, {
      builtin := fun hb' => absurd hb' hb
      deferred := fun _ _ => mem_note _ _
      file := fun hit _ hl' => nomatch hl.symm.trans hl'
      readable := fun _ u hl' => nomatch hl.symm.trans hl' }⟩
  · refine ⟨h.add hp (finds_of_look hd hb hl), findings_subset_add _ _ _ _, {
      builtin := fun hb' => absurd hb' hb
      deferred := fun _ hl' => nomatch hl.symm.trans hl'
      file := fun hit' _ hl' => ?_
      readable := fun _ u hl' => nomatch hl.symm.trans hl' }⟩
    obtain rfl := Option.some.inj (Except.ok.inj (hl.symm.trans hl'))
    unfold Survey.add
    split
    next hseen => exact (hasSeen_iff s _ _).mp hseen
    · exact ⟨_, mem_files.mpr (List.mem_append_right _ List.mem_cons_self), rfl, rfl⟩

theorem follow_eq_error {e : Interruption} (h : follow space page s d = .error e) :
    d.name ∉ space.builtins ∧ space.look page d = .error e.cause := by
  unfold follow at h
  by_cases hb : d.name ∈ space.builtins
  · rw [if_pos hb] at h
    exact nomatch h
  · rw [if_neg hb] at h
    refine ⟨hb, ?_⟩
    cases hl : space.look page d with
    | error cause =>
      rw [hl] at h
      rw [← Except.error.inj h]
    | ok found =>
      rw [hl] at h
      cases found <;> exact nomatch h

/-! ## One file -/

/-- Following some directives of a page accounts for them, or one of them asks for a file that
cannot be read. -/
theorem Explored.followAll {ds : List Directive} (h : Explored space root seen s)
    (hp : space.Reaches root page) (hds : ∀ d ∈ ds, d ∈ Directive.ofBytes page.content) :
    (∀ s', ds.foldlM (Survey.follow space page) s = .ok s' →
      Explored space root seen s' ∧ s.findings ⊆ s'.findings ∧
        ∀ d ∈ ds, Notes space s'.findings page d) ∧
    ∀ e, ds.foldlM (Survey.follow space page) s = .error e → space.Stumbles root e.cause := by
  induction ds generalizing s with
  | nil =>
    refine ⟨fun s' hs' => ?_, fun e he => nomatch he⟩
    obtain rfl := Except.ok.inj hs'
    exact ⟨h, List.Subset.refl _, fun d hd => absurd hd List.not_mem_nil⟩
  | cons d rest ih =>
    obtain ⟨hd, hrest⟩ := List.forall_mem_cons.mp hds
    rw [List.foldlM_cons]
    cases hf : Survey.follow space page s d with
    | error e =>
      obtain ⟨hb, hl⟩ := follow_eq_error hf
      refine ⟨fun s' hs' => (nomatch hs'), fun e' he => ?_⟩
      obtain rfl := Except.error.inj he
      exact stumbles_of_look hp hd hb hl
    | ok mid =>
      obtain ⟨hmid, hsub, hnotes⟩ := h.follow hp hd hf
      obtain ⟨hok, herror⟩ := ih hmid hrest
      refine ⟨fun s' hs' => ?_, herror⟩
      obtain ⟨hs, hmore, hothers⟩ := hok s' hs'
      exact ⟨hs, List.Subset.trans hsub hmore,
        List.forall_mem_cons.mpr ⟨hnotes.mono hmore, hothers⟩⟩

/-- Reading a file accounts for its directives, or one of them asks for a file that cannot be
read. -/
theorem Explored.read (h : Explored space root seen s) (hp : space.Reaches root page) :
    (∀ s', read space page s = .ok s' → Explored space root seen s' ∧ s.findings ⊆ s'.findings ∧
      ∀ d ∈ Directive.ofBytes page.content, Notes space s'.findings page d) ∧
    ∀ e, read space page s = .error e → space.Stumbles root e.cause :=
  h.followAll hp fun _ hd => hd

/-- The page on top of the stack is taken from it to be read. -/
theorem Explored.pop {rest : List Page} (h : Explored space root seen s)
    (hp : s.pending = page :: rest) :
    Explored space root (seen ++ [page]) { s with pending := rest } ∧
      space.Reaches root page := by
  have hsame : seen ++ [page] ++ rest = seen ++ s.pending := by
    rw [hp, List.append_assoc, List.singleton_append]
  refine ⟨⟨?_, ?_, h.justified, ?_, h.nodup, h.distinct, ?_⟩, ?_⟩
  · exact hsame ▸ h.root_mem
  · exact hsame ▸ h.reached
  · exact hsame ▸ h.listed
  · exact hsame ▸ h.count
  · exact h.reached page (List.mem_append_right _ (hp ▸ List.mem_cons_self))

/-! ## The whole scan -/

theorem explored_start (space : IncludeSpace) (root : Page) :
    Explored space root [] ⟨[], [root]⟩ where
  root_mem := List.mem_cons_self
  reached _ hp := List.mem_singleton.mp hp ▸ .root
  justified _ hf := absurd hf List.not_mem_nil
  listed _ hf := absurd hf List.not_mem_nil
  nodup := List.nodup_nil
  distinct := List.nodup_nil
  count := rfl

/-- No more pages are read than the first one and the files that can be found. -/
theorem Explored.length_seen_le (h : Explored space root seen s) :
    seen.length + s.pending.length ≤ space.fileBound root.content + 1 := by
  have hfiles := length_files_le (fun f hf => h.justified _ (mem_files.mp hf)) h.distinct
  rw [← List.length_append, h.count]
  exact Nat.succ_le_succ hfiles

/-- With enough fuel for the files that are left the stack is emptied. -/
theorem Explored.drains {fuel : Nat} (h : Explored space root seen s)
    (hfuel : space.fileBound root.content + 1 ≤ seen.length + fuel) :
    Drains space s (drain space fuel s) := by
  induction fuel generalizing seen s with
  | zero =>
    have hlength := h.length_seen_le
    exact .done (List.eq_nil_of_length_eq_zero (by omega))
  | succ fuel ih =>
    unfold drain
    cases hp : s.pending with
    | nil => exact .done hp
    | cons page rest =>
      simp only
      obtain ⟨hpop, hreach⟩ := h.pop hp
      cases hr : Survey.read space page { s with pending := rest } with
      | error e => exact .stop hp hr
      | ok next =>
        -- The page moved from the stack to those that were read, so the fuel still suffices.
        have hnext : Explored space root (seen ++ [page]) next := ((hpop.read hreach).1 next hr).1
        refine .next hp hr (ih hnext ?_)
        rw [List.length_append, List.length_singleton]
        omega

/-- A scan that ends has read every page that it found and noted all their directives, or it
stumbled. -/
theorem Drains.explored {result : Except Interruption Survey} (hr : Drains space s result)
    (h : Explored space root seen s)
    (hn : ∀ p ∈ seen, ∀ d ∈ Directive.ofBytes p.content, Notes space s.findings p d) :
    (∀ s', result = .ok s' → ∃ seen', Explored space root seen' s' ∧ s'.pending = [] ∧
      ∀ p ∈ seen', ∀ d ∈ Directive.ofBytes p.content, Notes space s'.findings p d) ∧
    ∀ e, result = .error e → space.Stumbles root e.cause := by
  induction hr generalizing seen with
  | done hp =>
    refine ⟨fun s' hs' => ?_, fun e he => nomatch he⟩
    obtain rfl := Except.ok.inj hs'
    exact ⟨seen, h, hp, hn⟩
  | stop hp hread =>
    obtain ⟨hpop, hreach⟩ := h.pop hp
    refine ⟨fun s' hs' => (nomatch hs'), fun e he => ?_⟩
    obtain rfl := Except.error.inj he
    exact (hpop.read hreach).2 _ hread
  | next hp hread _ ih =>
    obtain ⟨hpop, hreach⟩ := h.pop hp
    obtain ⟨hnext, hsub, hpage⟩ := (hpop.read hreach).1 _ hread
    refine ih hnext (List.forall_mem_append.mpr ⟨fun p hp d hd => (hn p hp d hd).mono hsub, ?_⟩)
    exact List.forall_mem_singleton.mpr hpage

/-! ## The closure -/

/-- With nothing on the stack every page that is reached was read. -/
theorem Explored.mem_of_reaches (hpath : space.path.Assembled) (h : Explored space root seen s)
    (hpending : s.pending = [])
    (hn : ∀ p ∈ seen, ∀ d ∈ Directive.ofBytes p.content, Notes space s.findings p d)
    {p : Page} (hp : space.Reaches root p) : p ∈ seen := by
  have hknown : seen ++ s.pending = seen := by rw [hpending, List.append_nil]
  induction hp with
  | root => exact hknown ▸ h.root_mem
  | follow _ hf ih =>
    obtain ⟨d, hd, rfl, hl⟩ := hf.exists_look
    obtain ⟨f, hmem, hname, hprovider⟩ := (hn _ ih d hd).file _ hf.notBuiltin hl
    -- The file that was found under this name is the same, as its provider serves one content.
    obtain ⟨page, -, hfinds⟩ := h.justified _ (mem_files.mp hmem)
    rw [hname, hprovider] at hfinds
    have hcontent := hfinds.content_eq hpath hf
    have hlisted := h.listed f hmem
    rw [hknown, Dependency.page, hname, hprovider, hcontent] at hlisted
    exact hlisted

theorem nodup_filterMap_findings {α : Type} {findings : List Finding} {kind : Finding → Option α}
    (hkind : ∀ f g a, kind f = some a → kind g = some a → f = g) (h : findings.Nodup) :
    (findings.filterMap kind).Nodup :=
  List.Nodup.filterMap (fun f g a hf hg => hkind f g a hf hg) h

theorem mem_filterMap_builtin? {findings : List Finding} {name : String} :
    name ∈ findings.filterMap Finding.builtin? ↔ .builtin name ∈ findings := by
  rw [List.mem_filterMap]
  constructor
  · rintro ⟨f, hf, he⟩
    cases f with
    | builtin n => exact Option.some.inj he ▸ hf
    | dependency d => exact nomatch he
    | deferred n => exact nomatch he
  · exact fun h => ⟨_, h, rfl⟩

theorem mem_filterMap_deferred? {findings : List Finding} {name : String} :
    name ∈ findings.filterMap Finding.deferred? ↔ .deferred name ∈ findings := by
  rw [List.mem_filterMap]
  constructor
  · rintro ⟨f, hf, he⟩
    cases f with
    | deferred n => exact Option.some.inj he ▸ hf
    | dependency d => exact nomatch he
    | builtin n => exact nomatch he
  · exact fun h => ⟨_, h, rfl⟩

/-- With nothing on the stack the findings are what the program reaches. -/
theorem Explored.isClosure (hpath : space.path.Assembled) (h : Explored space root seen s)
    (hpending : s.pending = [])
    (hn : ∀ p ∈ seen, ∀ d ∈ Directive.ofBytes p.content, Notes space s.findings p d)
    {source : ResolvedSource} (hdeps : source.dependencies = files s.findings)
    (hbuiltins : source.builtins = s.findings.filterMap Finding.builtin?)
    (hdeferred : source.deferred = s.findings.filterMap Finding.deferred?) :
    space.IsClosure root source := by
  have hread {p : Page} (hp : space.Reaches root p) := h.mem_of_reaches hpath hpending hn hp
  have hfile {d : Dependency} (hd : d ∈ source.dependencies) :
      ∃ page, space.Reaches root page ∧ space.Finds page d.name d.provider d.content :=
    h.justified _ (mem_files.mp (hdeps ▸ hd))
  have hbuiltin (name : String) :
      name ∈ source.builtins ↔ name ∈ space.builtins ∧ space.Mentions root name := by
    rw [hbuiltins, mem_filterMap_builtin?]
    refine ⟨fun hmem => h.justified _ hmem, ?_⟩
    rintro ⟨hb, p, hp, d, hd, rfl⟩
    exact (hn p (hread hp) d hd).builtin hb
  have hdefer (name : String) : name ∈ source.deferred ↔
      name ∉ space.builtins ∧ space.Mentions root name ∧
        ∀ r ∈ space.path.registrations, r.provider.lookup space.disk name = .ok none := by
    rw [hdeferred, mem_filterMap_deferred?]
    refine ⟨fun hmem => h.justified _ hmem, ?_⟩
    rintro ⟨hb, ⟨p, hp, d, hd, rfl⟩, hnone⟩
    exact (hn p (hread hp) d hd).deferred hb (look_eq_none_iff.mpr hnone)
  exact {
    dependencies := fun name provider content => by
      constructor
      · rintro ⟨d, hd, rfl, rfl, rfl⟩
        exact hfile hd
      · rintro ⟨p, hp, hf⟩
        obtain ⟨d, hd, rfl, hl⟩ := hf.exists_look
        obtain ⟨f, hmem, hname, hprovider⟩ := (hn p (hread hp) d hd).file _ hf.notBuiltin hl
        rw [← hdeps] at hmem
        obtain ⟨q, -, hfinds⟩ := hfile hmem
        rw [hname, hprovider] at hfinds
        exact ⟨f, hmem, hname, hprovider, hfinds.content_eq hpath hf⟩
    once := hdeps ▸ h.distinct
    served := fun d hd => by
      obtain ⟨p, -, hf⟩ := hfile hd
      exact hf.exists_lookup
    builtins := hbuiltin
    nodup_builtins := by
      rw [hbuiltins]
      refine nodup_filterMap_findings (fun f g a hf hg => ?_) h.nodup
      cases f <;> cases g <;> simp_all [Finding.builtin?]
    deferred := hdefer
    nodup_deferred := by
      rw [hdeferred]
      refine nodup_filterMap_findings (fun f g a hf hg => ?_) h.nodup
      cases f <;> cases g <;> simp_all [Finding.deferred?]
    disjoint := fun d hd => by
      obtain ⟨p, -, hf⟩ := hfile hd
      refine ⟨fun hmem => hf.notBuiltin ((hbuiltin _).mp hmem).1, fun hmem => ?_⟩
      -- A provider has the file, but a deferred name is one that none has.
      obtain ⟨r, hr, -, hlookup⟩ := hf.exists_lookup
      have hnone := ((hdefer _).mp hmem).2.2 r hr
      exact nomatch hnone.symm.trans hlookup
    disjoint_names := fun name hmem hmem' =>
      ((hdefer name).mp hmem').1 ((hbuiltin name).mp hmem).1 }

end Survey
end KernelDepot
