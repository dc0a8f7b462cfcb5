/-
What every scan keeps.

A scan follows one directive after the other, so whatever one directive keeps true of
the findings holds at the end of the scan: this is `Scan.findings_induct`.  The first
use of it is that a file is found once, `Scan.pairwise_dependencies`.
-/
import KernelDepot.Include.Closure

namespace KernelDepot
namespace Survey

def files (findings : List Finding) : List Dependency := findings.filterMap Finding.dependency?

def Distinct (findings : List Finding) : Prop :=
  (files findings).Pairwise fun a b => ¬ (a.name = b.name ∧ a.provider = b.provider)

/-- What following a directive adds to the findings. -/
theorem follow_cases {space : IncludeSpace} {page : Page} {s s' : Survey} {d : Directive}
    (h : follow space page s d = .ok s') :
    (d.name ∈ space.builtins ∧ s' = s.note (.builtin d.name)) ∨
    (d.name ∉ space.builtins ∧ space.look page d = .ok none ∧ s' = s.note (.deferred d.name)) ∨
    (∃ hit, d.name ∉ space.builtins ∧ space.look page d = .ok (some hit) ∧
      s' = s.add page d.name hit) := by
  unfold follow at h
  by_cases hb : d.name ∈ space.builtins
  · rw [if_pos hb] at h
    exact .inl ⟨hb, (Except.ok.inj h).symm⟩
  · rw [if_neg hb] at h
    cases hl : space.look page d with
    | error cause => rw [hl] at h; exact nomatch h
    | ok found =>
      rw [hl] at h
      cases found with
      | none => exact .inr (.inl ⟨hb, rfl, (Except.ok.inj h).symm⟩)
      | some hit => exact .inr (.inr ⟨hit, hb, rfl, (Except.ok.inj h).symm⟩)

theorem files_note (s : Survey) {f : Finding} (hf : f.dependency? = none) :
    files (s.note f).findings = files s.findings := by
  unfold note
  split
  · rfl
  · simp [files, hf]

/-- A file was seen if it is among the findings. -/
theorem hasSeen_iff (s : Survey) (name provider : String) :
    s.hasSeen name provider = true ↔
      ∃ d ∈ files s.findings, d.name = name ∧ d.provider = provider := by
  unfold hasSeen files
  rw [List.any_eq_true]
  constructor
  · rintro ⟨f, hf, h⟩
    cases hd : f.dependency? with
    | none => rw [hd] at h; exact nomatch h
    | some d =>
      rw [hd] at h
      exact ⟨d, List.mem_filterMap.mpr ⟨f, hf, hd⟩, of_decide_eq_true h⟩
  · rintro ⟨d, hd, h⟩
    obtain ⟨f, hf, hfd⟩ := List.mem_filterMap.mp hd
    refine ⟨f, hf, ?_⟩
    rw [hfd]
    exact decide_eq_true h

/-- What every directive keeps of the findings, reading a file keeps. -/
theorem read_induct {space : IncludeSpace} {page : Page} {P : List Finding → Prop}
    (hstep : ∀ s d s', follow space page s d = .ok s' → P s.findings → P s'.findings)
    {s s' : Survey} (h : read space page s = .ok s') (hs : P s.findings) : P s'.findings := by
  unfold read at h
  generalize Directive.ofBytes page.content = directives at h
  induction directives generalizing s with
  | nil => rw [← Except.ok.inj h]; exact hs
  | cons d rest ih =>
    rw [List.foldlM_cons] at h
    cases hd : follow space page s d with
    | error e => rw [hd] at h; exact nomatch h
    | ok next =>
      rw [hd] at h
      replace h : rest.foldlM (follow space page) next = .ok s' := h
      exact ih (hstep s d next hd hs) h

/-- What every directive keeps of the findings, emptying the stack keeps. -/
theorem drain_induct {space : IncludeSpace} {P : List Finding → Prop}
    (hstep : ∀ page s d s', follow space page s d = .ok s' → P s.findings → P s'.findings)
    {fuel : Nat} {s s' : Survey} (h : drain space fuel s = .ok s') (hs : P s.findings) :
    P s'.findings := by
  induction fuel generalizing s with
  | zero => rw [← Except.ok.inj h]; exact hs
  | succ fuel ih =>
    unfold drain at h
    cases hp : s.pending with
    | nil => simp only [hp] at h; rw [← Except.ok.inj h]; exact hs
    | cons page rest =>
      simp only [hp] at h
      cases hr : read space page { s with pending := rest } with
      | error e => simp only [hr] at h; exact nomatch h
      | ok next =>
        simp only [hr] at h
        exact ih h (read_induct (hstep page) hr hs)

end Survey

namespace Scan

/-- A scan that succeeded emptied its stack, and its source is made of its findings. -/
theorem ofPage_eq_ok {space : IncludeSpace} {origin : String} {page : Page}
    {source : ResolvedSource} (h : (ofPage space origin page).outcome = .ok source) :
    ∃ s, Survey.drain space (fuel space page.content) ⟨[], [page]⟩ = .ok s ∧
      source.origin = origin ∧ source.text = page.content ∧
      source.dependencies = Survey.files s.findings := by
  unfold ofPage at h
  cases hd : Survey.drain space (fuel space page.content) ⟨[], [page]⟩ with
  | error e => rw [hd] at h; exact nomatch h
  | ok s =>
    rw [hd] at h
    obtain rfl := Except.ok.inj h
    exact ⟨s, rfl, rfl, rfl, rfl⟩

/-- Where the text of a program came from, and the page that its scan started from. -/
theorem ofSource_eq_ok {space : IncludeSpace} {program : ProgramSource} {source : ResolvedSource}
    (h : (ofSource space program).outcome = .ok source) :
    (∃ text, program = .inline text ∧
      (ofPage space "text" ⟨mainProgramName, none, Text.bytes text⟩).outcome = .ok source) ∨
    (∃ name hit, program = .named name ∧ space.path.resolve space.disk name = .ok (some hit) ∧
      (ofPage space (hit.provider ++ ":" ++ name) ⟨name, some hit.provider, hit.content⟩).outcome =
        .ok source) := by
  cases program with
  | inline text => exact .inl ⟨text, rfl, h⟩
  | named name =>
    unfold ofSource at h
    cases hr : space.path.resolve space.disk name with
    | error cause => simp only [hr] at h; exact nomatch h
    | ok found =>
      cases found with
      | none => simp only [hr] at h; exact nomatch h
      | some hit => simp only [hr] at h; exact .inr ⟨name, hit, rfl, hr, h⟩

/-- What every directive keeps of the findings holds when a scan has succeeded. -/
theorem files_induct {space : IncludeSpace} {program : ProgramSource} {source : ResolvedSource}
    {P : List Finding → Prop}
    (hstep : ∀ page s d s', Survey.follow space page s d = .ok s' → P s.findings → P s'.findings)
    (hnil : P []) (h : (ofSource space program).outcome = .ok source) :
    ∃ findings, source.dependencies = Survey.files findings ∧ P findings := by
  have hpage (origin : String) (page : Page)
      (h : (ofPage space origin page).outcome = .ok source) :
      ∃ findings, source.dependencies = Survey.files findings ∧ P findings := by
    obtain ⟨s, hd, -, -, hdeps⟩ := ofPage_eq_ok h
    exact ⟨s.findings, hdeps, Survey.drain_induct hstep hd hnil⟩
  rcases ofSource_eq_ok h with ⟨_, _, h⟩ | ⟨_, _, _, _, h⟩
  · exact hpage _ _ h
  · exact hpage _ _ h

/-- No two dependencies of a scan have the same name and the same provider. -/
theorem pairwise_dependencies {space : IncludeSpace} {program : ProgramSource}
    {source : ResolvedSource} (h : (ofSource space program).outcome = .ok source) :
    source.dependencies.Pairwise fun a b => ¬ (a.name = b.name ∧ a.provider = b.provider) := by
  have hstep : ∀ page s d s', Survey.follow space page s d = .ok s' →
      Survey.Distinct s.findings → Survey.Distinct s'.findings := by
    intro page s d s' hf hs
    unfold Survey.Distinct at hs ⊢
    rcases Survey.follow_cases hf with ⟨-, rfl⟩ | ⟨-, -, rfl⟩ | ⟨hit, -, -, rfl⟩
    · rw [Survey.files_note s rfl]; exact hs
    · rw [Survey.files_note s rfl]; exact hs
    · unfold Survey.add
      by_cases hseen : s.hasSeen d.name hit.provider = true
      · rw [if_pos hseen]; exact hs
      · rw [if_neg hseen]
        -- The file is new: none of those found before has its name and its provider.
        have hnew : ∀ a ∈ Survey.files s.findings,
            ¬ (a.name = d.name ∧ a.provider = hit.provider) :=
          fun a ha he => hseen ((Survey.hasSeen_iff s _ _).mpr ⟨a, ha, he⟩)
        simp only [Survey.files, List.filterMap_append, List.filterMap_cons, List.filterMap_nil,
          Finding.dependency?] at hs hnew ⊢
        refine List.pairwise_append.mpr ⟨hs, List.pairwise_singleton _ _, fun a ha b hb => ?_⟩
        rw [List.mem_singleton.mp hb]
        exact hnew a ha
  obtain ⟨findings, hdeps, hdistinct⟩ := files_induct hstep List.Pairwise.nil h
  rw [hdeps]
  exact hdistinct

/-- A dependency of a scan is known by its name and its provider. -/
theorem eq_of_mem_dependencies {space : IncludeSpace} {program : ProgramSource}
    {source : ResolvedSource} (h : (ofSource space program).outcome = .ok source) {a b : Dependency}
    (ha : a ∈ source.dependencies) (hb : b ∈ source.dependencies) (hname : a.name = b.name)
    (hprovider : a.provider = b.provider) : a = b := by
  have hp := pairwise_dependencies h
  generalize source.dependencies = ds at hp ha hb
  induction hp with
  | nil => exact absurd ha List.not_mem_nil
  | cons hd _ ih =>
    rcases List.mem_cons.mp ha with rfl | ha' <;> rcases List.mem_cons.mp hb with rfl | hb'
    · rfl
    · exact absurd ⟨hname, hprovider⟩ (hd b hb')
    · exact absurd ⟨hname.symm, hprovider.symm⟩ (hd a ha')
    · exact ih ha' hb'

end Scan
end KernelDepot
