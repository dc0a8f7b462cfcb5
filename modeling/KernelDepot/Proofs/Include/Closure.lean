/-
A scan computes the include closure.

For every program, every search path that can be put together and every list of built-in
names the scan ends, it succeeds if the program can be found and nothing that it reaches
stumbles over a file that cannot be read, and what it returns is the closure of the program:
this is `ofSource_isClosure`.  The files may include each other and themselves.
-/
import KernelDepot.Proofs.Include.Exploration
import KernelDepot.Provider.Table

namespace KernelDepot

open SearchPath IncludeSpace

namespace IncludeSpace

/-- A program starts in one place only. -/
theorem Starts.unique {space : IncludeSpace} {program : ProgramSource} {origin origin' : String}
    {root root' : Page} (h : space.Starts program origin root)
    (h' : space.Starts program origin' root') : origin = origin' ∧ root = root' := by
  cases h with
  | inline text => cases h' with | inline => exact ⟨rfl, rfl⟩
  | named ha =>
    cases h' with
    | named hb =>
      obtain ⟨rfl, hcontent⟩ := ha.unique hb
      exact ⟨rfl, by rw [Except.ok.inj hcontent]⟩

end IncludeSpace

namespace Scan

variable {space : IncludeSpace}

/-- The stack of a scan is emptied, whatever includes what. -/
theorem drains_start (space : IncludeSpace) (root : Page) :
    Survey.Drains space ⟨[], [root]⟩
      (Survey.drain space (fuel space root.content) ⟨[], [root]⟩) := by
  have hfuel : space.fileBound root.content + 1 =
      ([] : List Page).length + fuel space root.content := by
    rw [fuel_eq, List.length_nil, Nat.zero_add]
  exact (Survey.explored_start space root).drains (Nat.le_of_eq hfuel)

/-- A scan from a page returns the closure of the page, or it stumbled. -/
theorem outcome_ofPage (hpath : space.path.Assembled) (origin : String) (root : Page) :
    (∃ source, (ofPage space origin root).outcome = .ok source ∧ source.origin = origin ∧
      source.text = root.content ∧ space.IsClosure root source ∧ ∀ u, ¬ space.Stumbles root u) ∨
    ∃ u, (ofPage space origin root).outcome = .error (.unreadable u) ∧ space.Stumbles root u := by
  obtain ⟨hok, herror⟩ := (drains_start space root).explored (Survey.explored_start space root)
    fun p hp => absurd hp List.not_mem_nil
  unfold ofPage
  cases hd : Survey.drain space (fuel space root.content) ⟨[], [root]⟩ with
  | error e => exact .inr ⟨e.cause, rfl, herror e hd⟩
  | ok s =>
    obtain ⟨seen, hs, hpending, hn⟩ := hok s hd
    refine .inl ⟨_, rfl, rfl, rfl, hs.isClosure hpath hpending hn rfl rfl rfl, fun u hu => ?_⟩
    obtain ⟨p, hp, d, hd, hb, hl⟩ := hu.exists_look
    exact (hn p (hs.mem_of_reaches hpath hpending hn hp) d hd).readable hb u hl

/-- A scan scans the page that the program starts from. -/
theorem ofSource_of_starts {program : ProgramSource} {origin : String} {root : Page}
    (h : space.Starts program origin root) : ofSource space program = ofPage space origin root := by
  cases h with
  | inline text => rfl
  | @named name r content ha =>
    have hr : space.path.resolve space.disk name = .ok (some ⟨r.provider.id, content⟩) :=
      resolveAmong_eq_some_iff.mpr ⟨r, ha, rfl⟩
    unfold ofSource
    simp only [hr]

/-- A scan that succeeds has found the program. -/
theorem exists_starts_of_ok {program : ProgramSource} {source : ResolvedSource}
    (h : (ofSource space program).outcome = .ok source) :
    ∃ origin root, space.Starts program origin root := by
  rcases ofSource_eq_ok h with ⟨text, rfl, -⟩ | ⟨name, hit, rfl, hr, -⟩
  · exact ⟨_, _, .inline text⟩
  · obtain ⟨r, ha, -⟩ := resolveAmong_eq_some_iff.mp hr
    exact ⟨_, _, .named ha⟩

/-- A scan ends, it succeeds exactly if the program is found and nothing that it reaches asks
for a file that cannot be read, and then its result is the closure of the program. -/
theorem ofSource_isClosure (hpath : space.path.Assembled) (program : ProgramSource) :
    (∀ origin root, space.Starts program origin root →
      Survey.Drains space ⟨[], [root]⟩
        (Survey.drain space (fuel space root.content) ⟨[], [root]⟩)) ∧
    ((∃ source, (ofSource space program).outcome = .ok source) ↔
      ∃ origin root, space.Starts program origin root ∧ ∀ u, ¬ space.Stumbles root u) ∧
    ∀ source, (ofSource space program).outcome = .ok source →
      ∃ origin root, space.Starts program origin root ∧ source.origin = origin ∧
        source.text = root.content ∧ space.IsClosure root source := by
  refine ⟨fun _ root _ => drains_start space root, ⟨?_, ?_⟩, ?_⟩
  · rintro ⟨source, h⟩
    obtain ⟨origin, root, hs⟩ := exists_starts_of_ok h
    refine ⟨origin, root, hs, ?_⟩
    rw [ofSource_of_starts hs] at h
    rcases outcome_ofPage hpath origin root with ⟨_, -, -, -, -, hno⟩ | ⟨u, hu, -⟩
    · exact hno
    · exact nomatch h.symm.trans hu
  · rintro ⟨origin, root, hs, hno⟩
    rw [ofSource_of_starts hs]
    rcases outcome_ofPage hpath origin root with ⟨source, hok, -⟩ | ⟨u, -, hu⟩
    · exact ⟨source, hok⟩
    · exact absurd hu (hno u)
  · intro source h
    obtain ⟨origin, root, hs⟩ := exists_starts_of_ok h
    rw [ofSource_of_starts hs] at h
    rcases outcome_ofPage hpath origin root with ⟨found, hok, ho, ht, hc, -⟩ | ⟨u, hu, -⟩
    · obtain rfl := Except.ok.inj (h.symm.trans hok)
      exact ⟨origin, root, hs, ho, ht, hc⟩
    · exact nomatch h.symm.trans hu

end Scan

/-! ## A ring of headers with two files of one name -/

namespace Ring

def provider (id : String) (files : List (String × String)) : Provider :=
  { id
    kind := .other
    files := files.map fun file => (file.1, Text.bytes file.2)
    failures := [] : AnswerTable }.provider

def near : Provider :=
  provider "near" [("ring.h", "#include \"ring.h\"\n#include <deep.h>\n#include <none.h>\n")]

def far : Provider :=
  provider "far" [("ring.h", "#include <deep.h>\n"),
    ("deep.h", "#include \"ring.h\"\n#include <cuda.h>\n")]

def path : SearchPath := (({} : SearchPath).register near 0).register far (-1)

theorem assembled_path : path.Assembled := .register far (-1) (.register near 0 .empty)

/-- The providers stand in the order of their priority. -/
theorem path_eq : path = ⟨[⟨near, 0, false, 0⟩, ⟨far, -1, false, 1⟩], 2⟩ := by
  have hne : near.id ≠ far.id := by decide
  have hbefore : Registration.before ⟨near, 0, false, 0⟩ ⟨far, -1, false, 1⟩ = true := by decide
  simp [path, SearchPath.register, SearchPath.insert, SearchPath.unregister, List.mergeSort,
    List.MergeSort.Internal.splitInTwo, hne, hbefore]

def space : IncludeSpace := ⟨path, {}, ["cuda.h"]⟩

def program : ProgramSource := .inline "#include <ring.h>\n"

theorem outcome_program : (Scan.ofSource space program).outcome.toOption.map (fun source =>
    (source.dependencies.map (fun d => (d.name, d.provider)), source.builtins, source.deferred)) =
    some ([("ring.h", "near"), ("deep.h", "far"), ("ring.h", "far")], ["cuda.h"], ["none.h"]) := by
  rw [space, path_eq]
  decide +kernel

/-- The scan finds both files of the name, and its result is the closure. -/
theorem isClosure_ring : space.path.Assembled ∧ ∃ source root,
    (Scan.ofSource space program).outcome = .ok source ∧
    source.dependencies.map (fun d => (d.name, d.provider)) =
      [("ring.h", "near"), ("deep.h", "far"), ("ring.h", "far")] ∧
    source.builtins = ["cuda.h"] ∧ source.deferred = ["none.h"] ∧
    space.Starts program "text" root ∧ space.IsClosure root source := by
  refine ⟨assembled_path, ?_⟩
  obtain ⟨source, hsource, hparts⟩ := Option.map_eq_some_iff.mp outcome_program
  have hok : (Scan.ofSource space program).outcome = .ok source := by
    cases h : (Scan.ofSource space program).outcome with
    | error e =>
      rw [h] at hsource
      exact nomatch hsource
    | ok found =>
      rw [h] at hsource
      rw [Option.some.inj hsource]
  obtain ⟨origin, root, hs, -, -, hc⟩ :=
    (Scan.ofSource_isClosure assembled_path program).2.2 source hok
  obtain ⟨rfl, rfl⟩ := hs.unique (.inline "#include <ring.h>\n")
  simp only [Prod.mk.injEq] at hparts
  exact ⟨source, _, hok, hparts.1, hparts.2.1, hparts.2.2, hs, hc⟩

end Ring
end KernelDepot
