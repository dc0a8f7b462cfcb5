/-
Paths by their names.

A path is its segments with a separator between them, and the segments of two paths with a
separator between them are those of the one and then those of the other.  So a place is read off
the path that is written for it, and what is joined to the path is behind the names of the place.
-/
import KernelDepot.Disk.Tree
import KernelDepot.Proofs.Text.Utf8
import Mathlib.Data.List.Basic

namespace KernelDepot
namespace Path

variable {path a b : String}

/-- Whether a segment leads away from where it stands. -/
def isStep (segment : String) : Bool := decide (segment ≠ "" ∧ segment ≠ ".")

/-- The segments of a path without those that stay where they are. -/
def names (path : String) : List String := (segments path).filter isStep

/-- Whether a name in a directory leads to an entry of the directory and nowhere else. -/
structure IsPlain (name : String) : Prop where
  ne_empty : name ≠ ""
  ne_point : name ≠ "."
  ne_points : name ≠ ".."
  slash_not_mem : '/' ∉ name.toList

instance (name : String) : Decidable (IsPlain name) :=
  decidable_of_iff (name ≠ "" ∧ name ≠ "." ∧ name ≠ ".." ∧ '/' ∉ name.toList)
    ⟨fun ⟨he, hp, hpp, hs⟩ => ⟨he, hp, hpp, hs⟩, fun ⟨he, hp, hpp, hs⟩ => ⟨he, hp, hpp, hs⟩⟩

theorem isPlain_of_length {name : String} (h : 2 < name.length) (hslash : '/' ∉ name.toList) :
    IsPlain name := by
  have hne {short : String} (hshort : short.length ≤ 2) : name ≠ short := by
    rintro rfl
    omega
  exact ⟨hne (by decide), hne (by decide), hne (by decide), hslash⟩

theorem isAbsolute_of_not_mem (h : '/' ∉ path.toList) : isAbsolute path = false := by
  refine Bool.eq_false_iff.mpr fun habsolute => h ?_
  exact (List.isPrefixOf_iff_prefix.mp habsolute).subset List.mem_cons_self

theorem segments_slash (a b : String) : segments (a ++ "/" ++ b) = segments a ++ segments b := by
  have hlist : (a ++ "/" ++ b).toList = a.toList ++ '/' :: b.toList := by
    rw [String.toList_append, String.toList_append, List.append_assoc]
    rfl
  unfold segments
  rw [hlist, List.splitOn_append_cons_self, List.map_append]

theorem not_mem_of_mem_splitOn {c : Char} {cs part : List Char} (h : part ∈ cs.splitOn c) :
    c ∉ part := by
  induction cs generalizing part with
  | nil =>
    rw [List.splitOn_nil, List.mem_singleton] at h
    exact h ▸ List.not_mem_nil
  | cons d cs ih =>
    rw [List.splitOn_cons_eq_if_modifyHead] at h
    split at h
    · rcases List.mem_cons.mp h with rfl | h
      · exact List.not_mem_nil
      · exact ih h
    · next hd =>
      obtain ⟨first, more, hsplit⟩ := List.exists_cons_of_ne_nil (List.splitOn_ne_nil c cs)
      rw [hsplit] at h ih
      rcases List.mem_cons.mp h with rfl | h
      · intro hmem
        rcases List.mem_cons.mp hmem with rfl | hmem
        · exact hd (beq_self_eq_true _)
        · exact ih List.mem_cons_self hmem
      · exact ih (List.mem_cons_of_mem _ h)

theorem slash_not_mem_of_mem_segments {segment : String} (h : segment ∈ segments path) :
    '/' ∉ segment.toList := by
  obtain ⟨part, hpart, rfl⟩ := List.mem_map.mp h
  rw [String.toList_ofList]
  exact not_mem_of_mem_splitOn hpart

theorem intercalate_segments (path : String) : "/".intercalate (segments path) = path := by
  rw [← String.toList_inj, String.toList_intercalate]
  unfold segments
  rw [List.map_map]
  simp only [Function.comp_def, String.toList_ofList, List.map_id']
  exact List.intercalate_splitOn '/'

theorem segments_intercalate {ss : List String} (hne : ss ≠ [])
    (hslash : ∀ s ∈ ss, '/' ∉ s.toList) : segments ("/".intercalate ss) = ss := by
  have hlists : ∀ l ∈ ss.map String.toList, '/' ∉ l := by
    intro l hl
    obtain ⟨s, hs, rfl⟩ := List.mem_map.mp hl
    exact hslash s hs
  have hsplit := List.splitOn_intercalate '/' hlists (by simpa using hne)
  unfold segments
  rw [String.toList_intercalate, show "/".toList = ['/'] from rfl, hsplit, List.map_map]
  simp only [Function.comp_def, String.ofList_toList, List.map_id']

theorem ne_empty_of_isAbsolute (h : isAbsolute path = true) : path ≠ "" := by
  rintro rfl
  exact absurd h (by decide)

theorem isAbsolute_append (h : isAbsolute a = true) (b : String) : isAbsolute (a ++ b) = true := by
  unfold isAbsolute at h ⊢
  rw [String.toList_append, List.isPrefixOf_iff_prefix]
  exact (List.isPrefixOf_iff_prefix.mp h).trans (List.prefix_append _ _)

theorem isAbsolute_join (h : isAbsolute a = true) (b : String) : isAbsolute (join a b) = true := by
  unfold join
  by_cases hb : isAbsolute b = true
  · rwa [if_pos (.inl hb)]
  · rw [if_neg (not_or.mpr ⟨hb, ne_empty_of_isAbsolute h⟩)]
    split
    · exact isAbsolute_append h b
    · exact isAbsolute_append (isAbsolute_append h "/") b

theorem join_cases {name : String} (dir : String) (h : '/' ∉ name.toList) :
    join dir name = dir ++ name ∨ join dir name = dir ++ "/" ++ name := by
  have hrelative : ¬ isAbsolute name = true := by
    rw [isAbsolute_of_not_mem h]
    exact Bool.false_ne_true
  unfold join
  by_cases hdir : dir = ""
  · rw [if_pos (.inr hdir), hdir]
    exact .inl (String.empty_append).symm
  · rw [if_neg (not_or.mpr ⟨hrelative, hdir⟩)]
    split
    · exact .inl rfl
    · exact .inr rfl

theorem segments_ne_nil (path : String) : segments path ≠ [] := by
  unfold segments
  rw [ne_eq, List.map_eq_nil_iff]
  exact List.splitOn_ne_nil '/' path.toList

theorem segments_of_isAbsolute (h : isAbsolute path = true) :
    ∃ rest, segments path = "" :: segments rest := by
  obtain ⟨rest, hrest⟩ := List.isPrefixOf_iff_prefix.mp h
  have hpath : path = "" ++ "/" ++ String.ofList rest := by
    rw [← String.toList_inj, String.toList_append, String.toList_ofList, ← hrest]
    rfl
  refine ⟨String.ofList rest, ?_⟩
  rw [hpath, segments_slash]
  rfl

theorem segments_of_not_mem (h : '/' ∉ path.toList) : segments path = [path] := by
  have hone : ∀ s ∈ [path], '/' ∉ s.toList := fun s hs => List.mem_singleton.mp hs ▸ h
  have hsegments := segments_intercalate (List.cons_ne_nil path []) hone
  rwa [String.intercalate_singleton] at hsegments

/-- A name stays a segment of its own when it is joined to a directory. -/
theorem exists_segments_join {name : String} (dir : String) (h : '/' ∉ name.toList) :
    ∃ front, segments (join dir name) = front ++ [name] := by
  have hrelative := isAbsolute_of_not_mem h
  have hname := segments_of_not_mem h
  unfold join
  by_cases hdir : dir = ""
  · rw [if_pos (.inr hdir)]
    exact ⟨[], hname⟩
  rw [if_neg (not_or.mpr ⟨by rw [hrelative]; exact Bool.false_ne_true, hdir⟩)]
  split
  · next hend =>
    obtain ⟨rest, hrest⟩ := List.isSuffixOf_iff_suffix.mp hend
    have hjoined : dir ++ name = String.ofList rest ++ "/" ++ name := by
      rw [← String.toList_inj, String.toList_append, ← hrest, String.toList_append,
        String.toList_append, String.toList_ofList]
      rfl
    exact ⟨segments (String.ofList rest), by rw [hjoined, segments_slash, hname]⟩
  · exact ⟨segments dir, by rw [segments_slash, hname]⟩

/-! ## Parts -/

theorem IsPlain.part?_eq {name : String} (h : IsPlain name) : part? name = some (.normal name) := by
  unfold part?
  rw [if_neg (not_or.mpr ⟨h.ne_empty, h.ne_point⟩), if_neg h.ne_points]

/-- A name that is joined to a directory is the name of the file there. -/
theorem fileName?_join {name : String} (dir : String) (h : IsPlain name) :
    fileName? (join dir name) = some name := by
  obtain ⟨front, hfront⟩ := exists_segments_join dir h.slash_not_mem
  have hlast : (parts (join dir name)).getLast? = some (.normal name) := by
    simp only [parts, hfront, List.filterMap_append, List.filterMap_cons_some h.part?_eq,
      List.filterMap_nil, ← List.append_assoc, List.getLast?_concat]
  unfold fileName?
  rw [hlast]

theorem part?_eq_parent_iff {segment : String} :
    part? segment = some .parent ↔ segment = ".." := by
  unfold part?
  constructor
  · intro h
    split at h
    · cases h
    · split at h
      · assumption
      · cases h
  · rintro rfl
    decide

theorem part?_ne_root (segment : String) : part? segment ≠ some .root := by
  unfold part?
  split
  · nofun
  · split <;> nofun

/-- No part of a relative path is the root, and one leads up only if it is written so. -/
theorem parts_go_down_iff (habsolute : isAbsolute path = false) :
    (∀ part ∈ parts path, part ≠ .root ∧ part ≠ .parent) ↔ ".." ∉ segments path := by
  constructor
  · intro hall hmem
    have hparent : PathPart.parent ∈ parts path :=
      List.mem_append_right _ (List.mem_filterMap.mpr ⟨"..", hmem, part?_eq_parent_iff.mpr rfl⟩)
    exact (hall _ hparent).2 rfl
  · intro hup part hpart
    rcases List.mem_append.mp hpart with hfront | hpart
    · rw [habsolute, if_neg Bool.false_ne_true] at hfront
      split at hfront
      · rw [List.mem_singleton.mp hfront]
        decide
      · exact absurd hfront List.not_mem_nil
    · obtain ⟨segment, hsegment, hpart⟩ := List.mem_filterMap.mp hpart
      refine ⟨fun heq => part?_ne_root segment (heq ▸ hpart), fun heq => hup ?_⟩
      exact part?_eq_parent_iff.mp (heq ▸ hpart) ▸ hsegment

end Path

namespace Disk

open Text

/-- A name that an entry can have. -/
structure IsName (name : String) : Prop extends Path.IsPlain name where
  isShort : (bytes name).length ≤ nameLimit

variable {name path : String} {place front : Place}

theorem IsName.isStep (h : IsName name) : Path.isStep name = true :=
  decide_eq_true ⟨h.ne_empty, h.ne_point⟩

theorem isAbsolute_pathOf (place : Place) : Path.isAbsolute (pathOf place) = true :=
  Path.isAbsolute_append (by decide) _

theorem segments_pathOf (hne : place ≠ []) (hnames : ∀ name ∈ place, IsName name) :
    Path.segments (pathOf place) = "" :: place := by
  have hpath : pathOf place = "" ++ "/" ++ "/".intercalate place := by
    rw [String.empty_append]
    rfl
  rw [hpath, Path.segments_slash,
    Path.segments_intercalate hne fun name hname => (hnames name hname).slash_not_mem]
  rfl

/-- The names of a place do not end in an empty one, so its path ends in a separator only if it
is that of the root. -/
theorem segments_join_pathOf (hnames : ∀ name ∈ place, IsName name)
    (hname : Path.isAbsolute name = false) :
    Path.segments (Path.join (pathOf place) name) = "" :: (place ++ Path.segments name) := by
  have hdir : pathOf place ≠ "" := Path.ne_empty_of_isAbsolute (isAbsolute_pathOf place)
  unfold Path.join
  rw [if_neg (by simp [hname, hdir])]
  by_cases hne : place = []
  · subst hne
    rw [if_pos (by decide)]
    have hroot : pathOf [] ++ name = "" ++ "/" ++ name := rfl
    rw [hroot, Path.segments_slash]
    rfl
  · have hend : ¬ ['/'].isSuffixOf (pathOf place).toList = true := by
      intro hsuffix
      obtain ⟨rest, hrest⟩ := List.isSuffixOf_iff_suffix.mp hsuffix
      have hpath : pathOf place = String.ofList rest ++ "/" ++ "" := by
        rw [← String.toList_inj, String.toList_append, String.toList_append, String.toList_ofList,
          ← hrest]
        exact (List.append_nil _).symm
      have hlast := congrArg List.getLast? (segments_pathOf hne hnames)
      rw [hpath, Path.segments_slash, show Path.segments "" = [""] from rfl,
        List.getLast?_concat, List.getLast?_cons_of_ne_nil hne] at hlast
      exact (hnames "" (List.mem_of_getLast? hlast.symm)).ne_empty rfl
    rw [if_neg hend, Path.segments_slash, segments_pathOf hne hnames, List.cons_append]

theorem filter_isStep (hnames : ∀ name ∈ place, IsName name) : place.filter Path.isStep = place :=
  List.filter_eq_self.mpr fun name hname => (hnames name hname).isStep

theorem names_pathOf (hnames : ∀ name ∈ place, IsName name) :
    Path.names (pathOf place) = place := by
  unfold Path.names
  by_cases hne : place = []
  · subst hne
    decide
  · rw [segments_pathOf hne hnames, List.filter_cons_of_neg (by decide), filter_isStep hnames]

theorem parts_pathOf (hnames : ∀ name ∈ place, IsName name) :
    Path.parts (pathOf place) = .root :: place.map .normal := by
  have hpart : place.filterMap Path.part? = place.map .normal := by
    rw [← List.filterMap_eq_map]
    refine List.filterMap_congr fun name hname => ?_
    obtain ⟨⟨hempty, hpoint, hpoints, -⟩, -⟩ := hnames name hname
    unfold Path.part?
    rw [if_neg (by simp [hempty, hpoint]), if_neg hpoints]
    rfl
  unfold Path.parts
  simp only [isAbsolute_pathOf, if_true, List.singleton_append]
  by_cases hne : place = []
  · subst hne
    decide
  · rw [segments_pathOf hne hnames, List.filterMap_cons_none (by decide), hpart]

/-- One path is below another exactly if its place is. -/
theorem startsWith_pathOf_iff (hplace : ∀ name ∈ place, IsName name)
    (hfront : ∀ name ∈ front, IsName name) :
    Path.startsWith (pathOf place) (pathOf front) = true ↔ front <+: place := by
  have hinjective : Function.Injective PathPart.normal := fun _ _ => PathPart.normal.inj
  unfold Path.startsWith
  rw [List.isPrefixOf_iff_prefix, parts_pathOf hplace, parts_pathOf hfront,
    List.prefix_cons_inj]
  constructor
  · intro h
    obtain ⟨l, hl, heq⟩ := List.prefix_map_iff.mp h
    rwa [hinjective.list_map heq]
  · exact fun h => h.map _

/-! ## The length of a path -/

/-- The length of some names with a separator in front of each. -/
def extent : List String → Nat
  | [] => 0
  | s :: ss => (bytes s).length + 1 + extent ss

theorem extent_pos {ss : List String} (hne : ss ≠ []) : 1 ≤ extent ss := by
  obtain ⟨s, more, rfl⟩ := List.exists_cons_of_ne_nil hne
  rw [extent]
  omega

theorem extent_le_of_sublist {ss ts : List String} (h : List.Sublist ss ts) :
    extent ss ≤ extent ts := by
  induction h with
  | slnil => exact Nat.le_refl _
  | cons s _ ih =>
    rw [extent]
    omega
  | cons_cons s _ ih =>
    rw [extent, extent]
    omega

theorem length_bytes_intercalate {ss : List String} (hne : ss ≠ []) :
    (bytes ("/".intercalate ss)).length + 1 = extent ss := by
  match ss with
  | [] => exact absurd rfl hne
  | [s] =>
    rw [String.intercalate_singleton]
    rfl
  | s :: t :: more =>
    have ih := length_bytes_intercalate (List.cons_ne_nil t more)
    have hslash : (bytes "/").length = 1 := by decide
    rw [extent, ← ih, String.intercalate_cons_cons, length_bytes_append, length_bytes_append,
      hslash]
    omega

theorem length_bytes_pathOf (hne : place ≠ []) : (bytes (pathOf place)).length = extent place := by
  have hslash : (bytes "/").length = 1 := by decide
  rw [pathOf, length_bytes_append, hslash, ← length_bytes_intercalate hne, Nat.add_comm]

/-- The root keeps its separator, so its path is longer than its names. -/
theorem length_bytes_pathOf_le {ss : List String} (hsub : List.Sublist place ss) (hne : ss ≠ []) :
    (bytes (pathOf place)).length ≤ extent ss := by
  by_cases hplace : place = []
  · subst hplace
    exact extent_pos hne
  · rw [length_bytes_pathOf hplace]
    exact extent_le_of_sublist hsub

theorem length_bytes_pathOf_mono (h : front <+: place) :
    (bytes (pathOf front)).length ≤ (bytes (pathOf place)).length := by
  by_cases hne : place = []
  · subst hne
    exact List.prefix_nil.mp h ▸ Nat.le_refl _
  · rw [length_bytes_pathOf hne]
    exact length_bytes_pathOf_le h.sublist hne

theorem length_bytes_pathOf_names_le (h : Path.isAbsolute path = true) :
    (bytes (pathOf (Path.names path))).length ≤ (bytes path).length := by
  obtain ⟨rest, hrest⟩ := Path.segments_of_isAbsolute h
  have hlength : (bytes path).length = extent (Path.segments rest) := by
    have hpath := length_bytes_intercalate (Path.segments_ne_nil path)
    have hempty : (bytes "").length = 0 := by decide
    rw [Path.intercalate_segments, hrest, extent] at hpath
    omega
  rw [hlength, Path.names, hrest, List.filter_cons_of_neg (by decide)]
  exact length_bytes_pathOf_le List.filter_sublist (Path.segments_ne_nil rest)

/-! ## What is in a path -/

theorem hasNul_append (a b : String) : hasNul (a ++ b) = (hasNul a || hasNul b) := by
  unfold hasNul
  rw [String.toList_append, List.any_append]

theorem hasNul_intercalate (ss : List String) : hasNul ("/".intercalate ss) = ss.any hasNul := by
  match ss with
  | [] => rfl
  | [s] => rw [String.intercalate_singleton, List.any_cons, List.any_nil, Bool.or_false]
  | s :: t :: more =>
    rw [String.intercalate_cons_cons, hasNul_append, hasNul_append, hasNul_intercalate,
      show hasNul "/" = false from rfl, Bool.or_false]
    rfl

theorem hasNul_pathOf_names (h : hasNul path = false) :
    hasNul (pathOf (Path.names path)) = false := by
  rw [← Path.intercalate_segments path, hasNul_intercalate, List.any_eq_false] at h
  rw [pathOf, hasNul_append, hasNul_intercalate, show hasNul "/" = false from rfl, Bool.false_or,
    List.any_eq_false]
  exact fun name hname => h name (List.mem_filter.mp hname).1

end Disk
end KernelDepot
