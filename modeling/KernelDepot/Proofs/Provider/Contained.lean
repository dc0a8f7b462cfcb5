/-
What a directory serves.

The path of a found file is compared with that of the root component by component, and both are
canonical, so the file is below the root whatever links there are on the way to it.  A name that
is refused is refused for its text alone.  And the way of a plain name goes straight down from the
root, so the file that is there is found.
-/
import KernelDepot.Proofs.Disk.Walk
import KernelDepot.Proofs.SearchPath.Roots

namespace KernelDepot

open Disk

namespace IncludeRoot

/-- A name that is no way down from a directory, whatever there is in it. -/
def LeadsAway (name : String) : Prop :=
  name = "" ∨ Path.isAbsolute name = true ∨ ".." ∈ Path.segments name

/-- The extension of the name is one of those that are served, if not all are. -/
def Allows (extensions : Option (List String)) (name : String) : Prop :=
  ∀ allowed, extensions = some allowed → ∃ e ∈ allowed, Path.extension? name = some e

variable {r : IncludeRoot} {disk created : Disk} {name path p root : String} {place : Place}
  {content : Bytes} {extensions : Option (List String)}

/-! ## Names -/

theorem isDescending_iff : isDescending name = true ↔ ¬LeadsAway name := by
  unfold isDescending LeadsAway
  cases habsolute : Path.isAbsolute name with
  | true => simp
  | false =>
    rw [Bool.and_eq_true, List.all_eq_true, not_or, not_or, ← Path.parts_go_down_iff habsolute]
    refine and_congr (by simp) ⟨fun hall => ⟨Bool.false_ne_true, ?_⟩, fun hall part hpart => ?_⟩
    · intro part hpart
      have hdown := hall part hpart
      cases part <;> first | exact absurd hdown Bool.false_ne_true | exact ⟨nofun, nofun⟩
    · obtain ⟨hroot, hparent⟩ := hall.2 part hpart
      cases part with
      | root => exact absurd rfl hroot
      | parent => exact absurd rfl hparent
      | _ => rfl

theorem slashed_eq_self (h : '\\' ∉ name.toList) : slashed name = name := by
  have hreplace : Text.replaceChar '\\' '/' name.toList = name.toList :=
    (List.map_congr_left fun c hc => if_neg (ne_of_mem_of_not_mem hc h)).trans (List.map_id _)
  unfold slashed
  rw [hreplace, String.ofList_toList]

theorem servesExtension_iff : r.servesExtension name = true ↔ Allows r.extensions name := by
  unfold servesExtension Allows
  cases r.extensions with
  | none => simp
  | some allowed => cases Path.extension? name <;> simp

/-! ## What is found -/

theorem locate_eq_some_iff : r.locate disk name = some p ↔
    ¬LeadsAway (slashed name) ∧ Allows r.extensions (slashed name) ∧
      disk.canonical (Path.join r.root (slashed name)) = .ok p ∧
        Path.startsWith p r.root = true ∧ disk.isFile p = true := by
  rw [← isDescending_iff, ← servesExtension_iff]
  unfold locate
  simp only
  cases isDescending (slashed name) with
  | false => simp
  | true =>
    cases r.servesExtension (slashed name) with
    | false => simp
    | true =>
      cases disk.canonical (Path.join r.root (slashed name)) with
      | error e => simp
      | ok found =>
        simp only [Bool.not_true, Bool.or_self, Bool.false_eq_true, if_false, Bool.and_eq_true,
          Option.ite_none_right_eq_some, Option.some.injEq, Except.ok.injEq, true_and]
        constructor
        · rintro ⟨hfound, rfl⟩
          exact ⟨rfl, hfound⟩
        · rintro ⟨rfl, hfound⟩
          exact ⟨hfound, rfl⟩

theorem lookup_eq_some_iff : r.lookup disk name = .ok (some content) ↔
    ∃ p, r.locate disk name = some p ∧ disk.read p = .ok content := by
  rw [lookup_eq, content?]
  cases r.locate disk name with
  | none => simp
  | some p => cases hread : disk.read p <;> simp [hread, Except.toOption]

theorem lookup_of_leadsAway (h : LeadsAway (slashed name)) : r.lookup disk name = .ok none := by
  have hlocate : r.locate disk name = none := by
    by_contra hsome
    obtain ⟨p, hp⟩ := Option.ne_none_iff_exists'.mp hsome
    exact (locate_eq_some_iff.mp hp).1 h
  unfold lookup
  rw [hlocate]

section Root

variable (hroot : r.root = pathOf place) (hplace : disk.IsCanonical place)
include hroot hplace

/-- What is served is a file below the root. -/
theorem exists_below_of_lookup (h : r.lookup disk name = .ok (some content)) :
    ∃ below, below ≠ [] ∧
      disk.canonical (Path.join r.root (slashed name)) = .ok (pathOf (place ++ below)) ∧
      disk.IsCanonical (place ++ below) ∧
      disk.entryAt (place ++ below) = some (.file content) ∧
      Allows r.extensions (slashed name) := by
  obtain ⟨p, hlocate, hread⟩ := lookup_eq_some_iff.mp h
  obtain ⟨haway, hallows, hcanonical, hstarts, -⟩ := locate_eq_some_iff.mp hlocate
  have habsolute := Path.isAbsolute_join (hroot ▸ isAbsolute_pathOf place) (slashed name)
  obtain ⟨-, found, entry, hwalk, rfl⟩ := (canonical_eq_ok_iff habsolute).mp hcanonical
  have hfound : disk.IsCanonical found := isCanonical_of_walk_segments hwalk
  have hentry : disk.entryAt found = some entry := (entry_of_walk hwalk).symm
  obtain ⟨-, -, rfl⟩ := (read_pathOf_eq_ok_iff hfound hentry).mp hread
  rw [hroot, startsWith_pathOf_iff hfound.isName hplace.isName] at hstarts
  obtain ⟨below, rfl⟩ := hstarts
  refine ⟨below, ?_, hcanonical, hfound, hentry, hallows⟩
  -- The way leads through the root, so there is a directory and no file.
  rintro rfl
  have hrelative : Path.isAbsolute (slashed name) = false :=
    Bool.eq_false_iff.mpr fun habsolute => haway (.inr (.inl habsolute))
  obtain ⟨segment, more, hsegments⟩ :=
    List.exists_cons_of_ne_nil (Path.segments_ne_nil (slashed name))
  rw [hroot, segments_join_pathOf hplace.isName hrelative, walk_stay rfl (by decide)] at hwalk
  have hrest : disk.walk true true linkLimit place (Path.segments (slashed name)) =
      .ok ⟨place ++ [], some (.file content)⟩ := walk_of_walk_append hplace hwalk (by simp)
  rw [hsegments] at hrest
  have hdirectory := directory_of_walk hrest
  rw [List.append_nil] at hentry
  exact nomatch hentry.symm.trans hdirectory

/-- A file that a plain name leads straight down to is served. -/
theorem lookup_of_read (hslash : '\\' ∉ name.toList) (hdown : ¬LeadsAway name)
    (hallows : Allows r.extensions name)
    (hlinks : ∀ front target, front <+: Path.names name →
      disk.entryAt (place ++ front) ≠ some (.link target))
    (hread : disk.read (Path.join r.root name) = .ok content) :
    r.lookup disk name = .ok (some content) := by
  have habsolute := Path.isAbsolute_join (hroot ▸ isAbsolute_pathOf place) name
  have hrelative : Path.isAbsolute name = false :=
    Bool.eq_false_iff.mpr fun habsolute => hdown (.inr (.inl habsolute))
  have hsegments : Path.segments (Path.join r.root name) = "" :: (place ++ Path.segments name) := by
    rw [hroot, segments_join_pathOf hplace.isName hrelative]
  have hnames : Path.names (Path.join r.root name) = place ++ Path.names name := by
    unfold Path.names
    rw [hsegments, List.filter_cons_of_neg (by decide), List.filter_append,
      filter_isStep hplace.isName]
  have hup : ".." ∉ Path.segments (Path.join r.root name) := by
    rw [hsegments, List.mem_cons, List.mem_append]
    rintro (heq | hmem | hmem)
    · exact absurd heq (by decide)
    · exact (hplace.isName _ hmem).ne_points rfl
    · exact hdown (.inr (.inr hmem))
  have hstraight : ∀ front target, front <+: Path.names (Path.join r.root name) →
      disk.entryAt front ≠ some (.link target) := by
    intro front target hfront
    rw [hnames] at hfront
    rcases List.prefix_or_prefix_of_prefix hfront (List.prefix_append place _) with hin | ⟨t, rfl⟩
    · exact (hplace.above hin).not_link target
    · exact hlinks t target ((List.prefix_append_right_inj place).mp hfront)
  obtain ⟨hfound, hcanonical, hsame⟩ := canonical_of_read habsolute hup hstraight hread
  have hstarts : Path.startsWith (pathOf (Path.names (Path.join r.root name))) r.root = true := by
    rw [hroot, startsWith_pathOf_iff (hroot ▸ hfound.isName) hplace.isName, ← hroot, hnames]
    exact List.prefix_append _ _
  have hlocate : r.locate disk name = some (pathOf (Path.names (Path.join r.root name))) := by
    rw [locate_eq_some_iff, slashed_eq_self hslash]
    exact ⟨hdown, hallows, hcanonical, hstarts, isFile_of_read hsame⟩
  exact lookup_eq_some_iff.mpr ⟨_, hlocate, hsame⟩

end Root

/-- A root that existed when it was named, and is still at its canonical path, serves only files
that are below it.  No name that leads away is served, even if it leads back, and every file that
a plain name leads straight down to is. -/
theorem lookup_below (hcreated : created.canonical path = .ok root)
    (hstill : disk.canonical root = .ok root) (extensions : Option (List String)) (name : String) :
    let r : IncludeRoot := { atPath created path with extensions := extensions }
    root = pathOf (Path.names root) ∧
    (∀ content, r.lookup disk name = .ok (some content) →
      ∃ below, below ≠ [] ∧
        disk.canonical (Path.join root (slashed name)) =
          .ok (pathOf (Path.names root ++ below)) ∧
        disk.IsCanonical (Path.names root ++ below) ∧
        disk.entryAt (Path.names root ++ below) = some (.file content) ∧
        Allows extensions (slashed name)) ∧
    (LeadsAway (slashed name) → r.lookup disk name = .ok none) ∧
    ∀ content, '\\' ∉ name.toList → ¬LeadsAway name → Allows extensions name →
      (∀ front target, front <+: Path.names name →
        disk.entryAt (Path.names root ++ front) ≠ some (.link target)) →
      disk.read (Path.join root name) = .ok content → r.lookup disk name = .ok (some content) := by
  obtain ⟨place, hroot, hplace⟩ := exists_place_of_canonical hstill
  have hnames : Path.names root = place := hroot ▸ names_pathOf hplace.isName
  intro r
  have hr : r.root = root := by
    show (atPath created path).root = root
    unfold atPath
    rw [hcreated]
  have hrplace : r.root = pathOf place := hr.trans hroot
  rw [hnames]
  refine ⟨hroot, fun content h => ?_, lookup_of_leadsAway, ?_⟩
  · obtain ⟨below, hne, hcanonical, hbelow, hentry, hallows⟩ :=
      exists_below_of_lookup hrplace hplace h
    exact ⟨below, hne, hr ▸ hcanonical, hbelow, hentry, hallows⟩
  · intro content hslash hdown hallows hlinks hread
    exact lookup_of_read hrplace hplace hslash hdown hallows hlinks (hr.symm ▸ hread)

end IncludeRoot

/-! ## A link out of the root and back into it -/

namespace Linked

/-- A directory and its sibling, whose path starts with the same text, with links from each to
the other. -/
def disk : Disk where
  entries := [(["a"], .directory), (["a", "x.h"], .file [1]), (["a", "out"], .link "../ab"),
    (["ab"], .directory), (["ab", "y.h"], .file [2]), (["ab", "back"], .link "/a")]

def root : IncludeRoot := ⟨"/a", some ["h"]⟩

theorem entryAt_disk : disk.entryAt [] = some .directory ∧ disk.entryAt ["a"] = some .directory ∧
    disk.entryAt ["a", "x.h"] = some (.file [1]) ∧
    disk.entryAt ["a", "out"] = some (.link "../ab") ∧ disk.entryAt ["ab"] = some .directory ∧
    disk.entryAt ["ab", "y.h"] = some (.file [2]) ∧
    disk.entryAt ["ab", "back"] = some (.link "/a") :=
  ⟨rfl, rfl, rfl, rfl, rfl, rfl, rfl⟩

theorem isShort : ∀ name ∈ ["a", "ab", "back", "out", "y.h"],
    ¬nameLimit < (Text.bytes name).length := by
  decide

theorem canonical_back : disk.canonical "/ab/back" = .ok "/a" := by
  have hreach : isWithinReach ["ab"] .directory ["back"] = true ∧
      isWithinReach ["ab", "back"] (.link "/a") [] = true ∧
      isWithinReach ["a"] .directory [] = true := by
    decide
  have hsegments : Path.segments "/ab/back" = ["", "ab", "back"] ∧
      Path.segments "/a" = ["", "a"] ∧ Path.isAbsolute "/a" = true := by
    decide
  have hwalk : disk.walk true true linkLimit [] (Path.segments "/ab/back") =
      .ok ⟨["a"], some .directory⟩ := by
    simp [walk, entryAt_disk, isShort, hreach, linkLimit, origin, hsegments]
  exact (canonical_eq_ok_iff (by decide)).mpr ⟨by decide, _, _, hwalk, by decide⟩

theorem canonical_out : disk.canonical "/a/out/y.h" = .ok "/ab/y.h" := by
  have hreach : isWithinReach ["a"] .directory ["out", "y.h"] = true ∧
      isWithinReach ["a", "out"] (.link "../ab") ["y.h"] = true ∧
      isWithinReach ["ab"] .directory ["y.h"] = true ∧
      isWithinReach ["ab", "y.h"] (.file [2]) [] = true := by
    decide
  have hsegments : Path.segments "/a/out/y.h" = ["", "a", "out", "y.h"] ∧
      Path.segments "../ab" = ["..", "ab"] ∧ Path.isAbsolute "../ab" = false := by
    decide
  have hwalk : disk.walk true true linkLimit [] (Path.segments "/a/out/y.h") =
      .ok ⟨["ab", "y.h"], some (.file [2])⟩ := by
    simp [walk, entryAt_disk, isShort, hreach, linkLimit, origin, hsegments]
  exact (canonical_eq_ok_iff (by decide)).mpr ⟨by decide, _, _, hwalk, by decide⟩

theorem isCanonical_header : disk.IsCanonical ["a"] ∧ disk.IsCanonical ["a", "x.h"] := by
  have hname {name : String} (h : name ∈ ["a", "x.h"]) : IsName name := by
    have hall : ∀ name ∈ ["a", "x.h"], Path.IsPlain name ∧
        (Text.bytes name).length ≤ nameLimit := by
      decide
    obtain ⟨hplain, hshort⟩ := hall name h
    exact ⟨hplain, hshort⟩
  have ha : disk.IsCanonical ["a"] :=
    IsCanonical.concat (.root disk) rfl (hname (by decide)) fun _ => nofun
  exact ⟨ha, ha.concat rfl (hname (by decide)) fun _ => nofun⟩

theorem canonical_root : disk.canonical "/a" = .ok "/a" :=
  canonical_pathOf isCanonical_header.1 rfl (by decide) (by decide)

theorem read_header : disk.read "/a/x.h" = .ok [1] :=
  (read_pathOf_eq_ok_iff isCanonical_header.2 rfl).mpr
    ⟨by decide, by decide, rfl⟩

/-- The header is served.  It is not served under a name that leads up, and what the link leads to
is not below the root, although its path starts with that of the root. -/
theorem lookup_root : disk.canonical "/ab/back" = .ok "/a" ∧ disk.canonical "/a" = .ok "/a" ∧
    root.lookup disk "x.h" = .ok (some [1]) ∧ root.lookup disk "..\\a/x.h" = .ok none ∧
    ∀ content, root.lookup disk "out/y.h" ≠ .ok (some content) := by
  have hroot : { IncludeRoot.atPath disk "/ab/back" with extensions := some ["h"] } = root := by
    unfold IncludeRoot.atPath
    rw [canonical_back]
    rfl
  have hbelow := IncludeRoot.lookup_below canonical_back canonical_root (some ["h"])
  have hnames : Path.names "/a" = ["a"] := by decide
  simp only [hroot, hnames] at hbelow
  obtain ⟨-, -, -, hplain⟩ := hbelow "x.h"
  obtain ⟨-, -, hup, -⟩ := hbelow "..\\a/x.h"
  obtain ⟨-, hinside, -, -⟩ := hbelow "out/y.h"
  refine ⟨canonical_back, canonical_root, ?_, hup ?_, fun content hserved => ?_⟩
  · have hheader : Path.names "x.h" = ["x.h"] ∧ Path.join "/a" "x.h" = "/a/x.h" := by
      decide
    rw [hheader.1, hheader.2] at hplain
    refine hplain [1] (by decide) ?_ ?_ (fun front target hfront => ?_) read_header
    · unfold IncludeRoot.LeadsAway
      decide
    · intro allowed hallowed
      exact ⟨"h", Option.some.inj hallowed ▸ List.mem_singleton_self _, by decide⟩
    · have hdown : ["a"] ++ front <+: ["a", "x.h"] :=
        (List.prefix_append_right_inj ["a"]).mpr hfront
      exact (isCanonical_header.2.above hdown).not_link target
  · unfold IncludeRoot.LeadsAway
    decide
  · have hout : Path.join "/a" (IncludeRoot.slashed "out/y.h") = "/a/out/y.h" ∧
        Path.segments "/ab/y.h" = ["", "ab", "y.h"] := by
      decide
    rw [hout.1, canonical_out] at hinside
    obtain ⟨below, -, hpath, hplace, -⟩ := hinside content hserved
    have hsegments : Path.segments (pathOf (["a"] ++ below)) = "" :: (["a"] ++ below) :=
      segments_pathOf (List.cons_ne_nil _ _) hplace.isName
    rw [← Except.ok.inj hpath, hout.2] at hsegments
    exact absurd (List.cons.inj (List.cons.inj hsegments).2).1 (by decide)

end Linked
end KernelDepot
