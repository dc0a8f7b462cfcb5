/-
Changes elsewhere on a disk.

A root looks at what is on the way down to it and at what is below it.  Where no link leads away
from there it looks at nothing else, so what is done in a directory apart from it does not show in
what it serves.
-/
import KernelDepot.Proofs.Disk.Folder
import KernelDepot.Proofs.Include.Served
import KernelDepot.Proofs.Provider.Contained

namespace KernelDepot

namespace Disk

variable {d d' : Disk} {base folder here place : Place} {names : List String} {path p : String}

/-! ## What a walk looks at -/

/-- Two disks have the same entry in a place, and it is no link. -/
structure AgreesOn (d d' : Disk) (place : Place) : Prop where
  entryAt_eq : d'.entryAt place = d.entryAt place
  not_link : ∀ target, d.entryAt place ≠ some (.link target)

/-- A walk that goes down looks at the places on its way only. -/
theorem walk_congr {follow single : Bool} {links : Nat} (hup : ".." ∉ names)
    (h : ∀ front, front <+: names.filter Path.isStep → d.AgreesOn d' (here ++ front)) :
    d'.walk follow single links here names = d.walk follow single links here names := by
  induction names generalizing here with
  | nil =>
    have hhere := (h [] (List.nil_prefix)).entryAt_eq
    rw [List.append_nil] at hhere
    rw [walk_nil, walk_nil, hhere]
  | cons name rest ih =>
    have hupRest : ".." ∉ rest := fun hmem => hup (List.mem_cons_of_mem _ hmem)
    have hhere := (h [] (List.nil_prefix)).entryAt_eq
    rw [List.append_nil] at hhere
    rw [walk, walk, hhere]
    cases hname : Path.isStep name with
    | false =>
      have hstay : name = "" ∨ name = "." := by
        by_contra hstep
        exact absurd (decide_eq_true (not_or.mp hstep)) (Bool.eq_false_iff.mp hname)
      rw [List.filter_cons_of_neg (by simp [hname])] at h
      simp only [if_pos hstay, ih hupRest h]
    | true =>
      have hne : name ≠ ".." := fun heq => hup (heq ▸ List.mem_cons_self)
      rw [List.filter_cons_of_pos hname] at h
      obtain ⟨hentry, hlink⟩ := h [name] (List.prefix_append [name] _)
      have hrest : d'.walk follow single links (here ++ [name]) rest =
          d.walk follow single links (here ++ [name]) rest := by
        refine ih hupRest fun front hfront => ?_
        rw [← List.append_cons]
        exact h (name :: front) ((List.prefix_cons_inj name).mpr hfront)
      simp only [if_neg (not_stay_of_isStep hname), if_neg hne, hentry]
      cases hfound : d.entryAt (here ++ [name]) with
      | none => rfl
      | some entry =>
        cases entry with
        | link target => exact absurd hfound (hlink target)
        | _ => simp only [hrest]

/-- Two disks agree on the way down to a place and below it. -/
def AgreesAt (d d' : Disk) (base : Place) : Prop :=
  ∀ place, place <+: base ∨ base <+: place → d.AgreesOn d' place

namespace AgreesAt

theorem locate_eq (h : d.AgreesAt d' base) (habsolute : Path.isAbsolute path = true)
    (hup : ".." ∉ Path.segments path) (hbase : base <+: Path.names path) (follow single : Bool) :
    d'.locate follow single path = d.locate follow single path := by
  unfold locate origin
  rw [if_pos habsolute, if_pos habsolute]
  split
  · rfl
  · split
    · rfl
    · exact walk_congr hup fun front hfront =>
        h front (List.prefix_or_prefix_of_prefix hfront hbase)

theorem canonical_eq (h : d.AgreesAt d' base) (habsolute : Path.isAbsolute path = true)
    (hup : ".." ∉ Path.segments path) (hbase : base <+: Path.names path) :
    d'.canonical path = d.canonical path := by
  unfold canonical
  rw [h.locate_eq habsolute hup hbase]

theorem stat_eq (h : d.AgreesAt d' base) (habsolute : Path.isAbsolute path = true)
    (hup : ".." ∉ Path.segments path) (hbase : base <+: Path.names path) :
    d'.stat path = d.stat path := by
  unfold stat resolve
  rw [h.locate_eq habsolute hup hbase]

end AgreesAt

theorem points_not_mem_segments_pathOf (hplace : d.IsCanonical place) :
    ".." ∉ Path.segments (pathOf place) := by
  by_cases hne : place = []
  · subst hne
    decide
  · rw [segments_pathOf hne hplace.isName, List.mem_cons, not_or]
    exact ⟨by decide, fun hmem => (hplace.isName _ hmem).ne_points rfl⟩

/-- What is done in a directory does not show elsewhere on a disk without links. -/
theorem IsAround.agreesAt (h : d.IsAround d' folder)
    (hlinks : ∀ place target, d.entryAt place ≠ some (.link target))
    (habove : ¬ base <+: folder) (hbelow : ¬ folder <+: base) : d.AgreesAt d' base := by
  refine fun place hplace => ⟨h.entryAt_eq place fun ⟨hin, _⟩ => ?_, hlinks place⟩
  rcases hplace with hplace | hplace
  · exact hbelow (hin.trans hplace)
  · exact (List.prefix_or_prefix_of_prefix hplace hin).elim habove hbelow

end Disk

open Disk

variable {d d' : Disk} {folder : Place}

namespace IncludeRoot

variable {r : IncludeRoot} {base : Place} {name p : String}

/-- What a root serves is the same on two disks that agree on it. -/
theorem lookup_congr (hroot : r.root = pathOf base) (hbase : d.IsCanonical base)
    (h : d.AgreesAt d' base) (name : String) : r.lookup d' name = r.lookup d name := by
  by_cases haway : LeadsAway (slashed name)
  · rw [lookup_of_leadsAway haway, lookup_of_leadsAway haway]
  have hrelative : Path.isAbsolute (slashed name) = false :=
    Bool.eq_false_iff.mpr fun habsolute => haway (.inr (.inl habsolute))
  have hsegments : Path.segments (Path.join r.root (slashed name)) =
      "" :: (base ++ Path.segments (slashed name)) := by
    rw [hroot, segments_join_pathOf hbase.isName hrelative]
  have hup : ".." ∉ Path.segments (Path.join r.root (slashed name)) := by
    rw [hsegments, List.mem_cons, List.mem_append]
    rintro (heq | hmem | hmem)
    · exact absurd heq (by decide)
    · exact (hbase.isName _ hmem).ne_points rfl
    · exact haway (.inr (.inr hmem))
  have hnames : base <+: Path.names (Path.join r.root (slashed name)) := by
    unfold Path.names
    rw [hsegments, List.filter_cons_of_neg (by decide), List.filter_append,
      filter_isStep hbase.isName]
    exact List.prefix_append _ _
  have habsolute := Path.isAbsolute_join (hroot ▸ isAbsolute_pathOf base) (slashed name)
  have hcanonical := h.canonical_eq habsolute hup hnames
  -- The path that is found is the straight way to something below the root.
  have hstat (p : String) (hp : d.canonical (Path.join r.root (slashed name)) = .ok p)
      (hstarts : Path.startsWith p r.root = true) : d'.stat p = d.stat p := by
    obtain ⟨-, place, entry, hwalk, rfl⟩ := (canonical_eq_ok_iff habsolute).mp hp
    have hplace : d.IsCanonical place := isCanonical_of_walk_segments hwalk
    rw [hroot, startsWith_pathOf_iff hplace.isName hbase.isName] at hstarts
    exact h.stat_eq (isAbsolute_pathOf place) (points_not_mem_segments_pathOf hplace)
      (by rwa [names_pathOf hplace.isName])
  have hlocate : r.locate d' name = r.locate d name := by
    refine Option.ext fun p => ?_
    rw [locate_eq_some_iff, locate_eq_some_iff, hcanonical]
    refine and_congr_right fun _ => and_congr_right fun _ => and_congr_right fun hp =>
      and_congr_right fun hstarts => ?_
    unfold isFile
    rw [hstat p hp hstarts]
  rw [lookup_eq, lookup_eq, content?, content?, hlocate]
  cases hfound : r.locate d name with
  | none => rfl
  | some p =>
    obtain ⟨-, -, hp, hstarts, -⟩ := locate_eq_some_iff.mp hfound
    rw [Option.bind_some, Option.bind_some, Disk.read, Disk.read, hstat p hp hstarts]

end IncludeRoot

/-! ## Search paths -/

/-- A provider that serves the same whatever is done in a directory. -/
def Provider.IsApart (provider : Provider) (d : Disk) (folder : Place) : Prop :=
  ∀ d', d.IsAround d' folder → ∀ name, provider.lookup d' name = provider.lookup d name

/-- A root is at its canonical path, and neither it nor a directory is below the other. -/
structure IncludeRoot.IsBeside (root : String) (d : Disk) (folder : Place) : Prop where
  canonical : d.canonical root = .ok root
  above : ¬ Path.names root <+: folder
  below : ¬ folder <+: Path.names root

theorem EmbeddedFiles.isApart_provider (e : EmbeddedFiles) (d : Disk) (folder : Place) :
    e.provider.IsApart d folder :=
  fun _ _ _ => rfl

section
variable (hlinks : ∀ place target, d.entryAt place ≠ some (.link target))
include hlinks

theorem IncludeRoot.isApart_provider {r : IncludeRoot} (h : IsBeside r.root d folder) :
    r.provider.IsApart d folder := by
  obtain ⟨base, hroot, hbase⟩ := exists_place_of_canonical h.canonical
  have hnames : Path.names r.root = base := hroot ▸ names_pathOf hbase.isName
  intro d' hd' name
  rw [IncludeRoot.lookup_provider]
  exact lookup_congr hroot hbase (hd'.agreesAt hlinks (hnames ▸ h.above) (hnames ▸ h.below)) name

theorem IncludeRoot.atPath_congr {root : String} (h : IsBeside root d folder)
    (hd' : d.IsAround d' folder) :
    atPath d' root = ⟨root, none⟩ ∧ atPath d root = ⟨root, none⟩ := by
  obtain ⟨base, rfl, hbase⟩ := exists_place_of_canonical h.canonical
  have hnames := names_pathOf hbase.isName
  have hagrees := hd'.agreesAt hlinks (hnames ▸ h.above) (hnames ▸ h.below)
  have hbelow : base <+: Path.names (pathOf base) := ⟨[], by rw [hnames, List.append_nil]⟩
  have hcanonical : d'.canonical (pathOf base) = .ok (pathOf base) :=
    (hagrees.canonical_eq (isAbsolute_pathOf base) (points_not_mem_segments_pathOf hbase)
      hbelow).trans h.canonical
  unfold atPath
  rw [hcanonical, h.canonical]
  exact ⟨rfl, rfl⟩

/-- A search path of providers and roots that are apart from a directory serves the same whatever
is done there. -/
theorem SearchPath.servesAlike_of_isApart {path : SearchPath} {dirs : List String}
    (hpath : ∀ r ∈ path.registrations, r.provider.IsApart d folder)
    (hdirs : ∀ root ∈ dirs, IncludeRoot.IsBeside root d folder) (hd' : d.IsAround d' folder) :
    path.ServesAlike dirs d d' := by
  induction dirs generalizing path with
  | nil =>
    have hnone (disk : Disk) : path.withRoots disk [] = path := rfl
    refine ⟨(hnone d').trans (hnone d).symm, fun r hr => ?_⟩
    rw [hnone d] at hr
    exact hpath r hr d' hd'
  | cons root rest ih =>
    obtain ⟨hroot, hrest⟩ := List.forall_mem_cons.mp hdirs
    obtain ⟨hatPath', hatPath⟩ := IncludeRoot.atPath_congr hlinks hroot hd'
    have hinserted : ∀ r ∈ (path.insert (IncludeRoot.atPath d root).provider 0 true).registrations,
        r.provider.IsApart d folder := by
      intro r hr
      rcases mem_insert.mp hr with hr | rfl
      · exact hpath r (List.mem_of_mem_filter hr)
      · rw [hatPath]
        exact IncludeRoot.isApart_provider hlinks hroot
    have hat : IncludeRoot.atPath d' root = IncludeRoot.atPath d root := hatPath'.trans hatPath.symm
    obtain ⟨hsame, hlookup⟩ := ih hinserted hrest
    refine ⟨?_, hlookup⟩
    unfold withRoots at hsame ⊢
    simp only [List.foldl_cons, hat]
    exact hsame

end

end KernelDepot
