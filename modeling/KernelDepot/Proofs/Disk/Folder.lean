/-
Directories of plain files.

In a directory that holds files and nothing else a plain name leads to a place of its own, so what
is done under one name is no concern of the others.  Whether a name is too long or cannot be
written down at all is the same at all times (`nameFault?`), and every other operation does what
it is asked to if there is a file of that name.
-/
import KernelDepot.Proofs.Disk.Walk
import KernelDepot.Proofs.NameTable
import Mathlib.Data.List.Nodup

namespace KernelDepot
namespace Disk

open Text

variable {d : Disk} {place other : Place} {name source target : String} {content : Bytes}

/-! ## Entries after a change -/

theorem entryAt_put (hne : place ≠ []) (entry : Entry) :
    (d.put place entry).entryAt other = if other = place then some entry else d.entryAt other := by
  by_cases hroot : other = []
  · subst hroot
    rw [if_neg hne.symm]
    rfl
  · unfold entryAt put
    simp only [if_neg hroot]
    by_cases hother : other = place
    · rw [if_pos hother, hother, List.lookup_cons_self]
    · rw [if_neg hother, List.lookup_cons, beq_false_of_ne hother, lookup_filter (· != place),
        if_pos (bne_iff_ne.mpr hother)]

theorem entryAt_erase (hne : place ≠ []) :
    (d.erase place).entryAt other = if place <+: other then none else d.entryAt other := by
  by_cases hroot : other = []
  · subst hroot
    rw [if_neg fun h => hne (List.prefix_nil.mp h)]
    rfl
  · unfold entryAt erase
    simp only [if_neg hroot]
    rw [lookup_filter fun p => !place.isPrefixOf p]
    by_cases hbelow : place <+: other
    · rw [if_pos hbelow, List.isPrefixOf_iff_prefix.mpr hbelow]
      rfl
    · rw [if_neg hbelow, Bool.eq_false_iff.mpr (mt List.isPrefixOf_iff_prefix.mp hbelow)]
      rfl

/-! ## Folders -/

/-- The file of a name in a directory. -/
def fileIn? (d : Disk) (place : Place) (name : String) : Option Bytes :=
  match d.entryAt (place ++ [name]) with
  | some (.file content) => some content
  | _ => none

/-- Why no entry of a directory can have a name, or none can be reached by it. -/
def nameFault? (place : Place) (name : String) : Option FileFault :=
  let path := Path.join (pathOf place) name
  if isTooLong path then some .nameTooLong
  else if hasNul path then some .nulInName
  else if nameLimit < (bytes name).length then some .nameTooLong
  else none

/-- A canonical directory that holds files only, under names that lead to them. -/
structure IsFolder (d : Disk) (place : Place) : Prop where
  isCanonical : d.IsCanonical place
  isDirectory : d.entryAt place = some .directory
  flat : ∀ below entry, below ≠ [] → d.entryAt (place ++ below) = some entry →
    ∃ name content, below = [name] ∧ entry = .file content
  named : ∀ name content, d.fileIn? place name = some content →
    Path.IsPlain name ∧ nameFault? place name = none
  nodup : (d.entries.map Prod.fst).Nodup

theorem IsFolder.entryAt_eq (h : d.IsFolder place) (name : String) :
    d.entryAt (place ++ [name]) = (d.fileIn? place name).map .file := by
  unfold fileIn?
  cases hentry : d.entryAt (place ++ [name]) with
  | none => rfl
  | some entry =>
    obtain ⟨_, content, -, rfl⟩ := h.flat [name] entry (List.cons_ne_nil _ _) hentry
    rfl

/-- The walk to a name in a directory whose entry is no link. -/
theorem walk_singleton (hplace : d.entryAt place = some .directory) (hname : Path.IsPlain name)
    (hlink : ∀ target, d.entryAt (place ++ [name]) ≠ some (.link target)) (follow : Bool)
    (links : Nat) : d.walk follow false links place [name] =
      if nameLimit < (bytes name).length then .error .nameTooLong
      else .ok ⟨place ++ [name], d.entryAt (place ++ [name])⟩ := by
  rw [walk, hplace]
  simp only [if_neg (not_or.mpr ⟨hname.ne_empty, hname.ne_point⟩), if_neg hname.ne_points]
  split
  · rfl
  · cases hentry : d.entryAt (place ++ [name]) with
    | none => rfl
    | some entry =>
      cases entry with
      | link target => exact absurd hentry (hlink target)
      | _ => simp [walk_nil, hentry]

/-- What a plain name leads to. -/
theorem IsFolder.resolve_join (h : d.IsFolder place) (hname : Path.IsPlain name) (follow : Bool) :
    d.resolve follow (Path.join (pathOf place) name) =
      match nameFault? place name with
      | some e => .error e
      | none => .ok ⟨place ++ [name], (d.fileIn? place name).map .file⟩ := by
  have habsolute := Path.isAbsolute_join (isAbsolute_pathOf place) name
  have hsegments : Path.segments (Path.join (pathOf place) name) = "" :: (place ++ [name]) := by
    rw [segments_join_pathOf h.isCanonical.isName (Path.isAbsolute_of_not_mem hname.slash_not_mem),
      Path.segments_of_not_mem hname.slash_not_mem]
  have hlink (target : String) : d.entryAt (place ++ [name]) ≠ some (.link target) := by
    rw [h.entryAt_eq]
    cases d.fileIn? place name <;> exact nofun
  -- The walk goes straight down to the directory and then one name further.
  have hwalk : d.walk follow false linkLimit [] ("" :: (place ++ [name])) =
      d.walk follow false linkLimit place [name] := by
    rw [walk_stay rfl (by decide)]
    exact walk_append_of_isCanonical h.isCanonical h.isDirectory nofun nofun
  unfold resolve locate nameFault? origin
  simp only [hsegments, hwalk, habsolute, if_true,
    if_neg (Path.ne_empty_of_isAbsolute habsolute),
    walk_singleton h.isDirectory hname hlink, h.entryAt_eq]
  split
  · rfl
  · split
    · rfl
    · split <;> rfl

/-! ## Files of a folder -/

theorem concat_ne_nil (place : Place) (name : String) : place ++ [name] ≠ [] := by simp

theorem fileIn?_put (place : Place) (name other : String) (content : Bytes) :
    (d.put (place ++ [name]) (.file content)).fileIn? place other =
      if other = name then some content else d.fileIn? place other := by
  unfold fileIn?
  rw [entryAt_put (concat_ne_nil place name)]
  by_cases hother : other = name
  · rw [if_pos hother, hother, if_pos rfl]
  · rw [if_neg hother, if_neg (by simpa using hother)]

theorem fileIn?_erase (place : Place) (name other : String) :
    (d.erase (place ++ [name])).fileIn? place other =
      if other = name then none else d.fileIn? place other := by
  have hbelow : place ++ [name] <+: place ++ [other] ↔ other = name := by
    simp [List.prefix_append_right_inj, eq_comm]
  unfold fileIn?
  rw [entryAt_erase (concat_ne_nil place name)]
  by_cases hother : other = name
  · rw [if_pos hother, if_pos (hbelow.mpr hother)]
  · rw [if_neg hother, if_neg (mt hbelow.mp hother)]

namespace IsFolder

variable (h : d.IsFolder place) (hname : Path.IsPlain name)
include h hname

theorem stat_join : d.stat (Path.join (pathOf place) name) =
    match d.fileIn? place name with
    | some content => .ok (.file content)
    | none => .error ((nameFault? place name).getD .notFound) := by
  unfold stat
  rw [h.resolve_join hname]
  cases hcontent : d.fileIn? place name with
  | some content =>
    rw [(h.named name content hcontent).2]
    rfl
  | none => cases nameFault? place name <;> rfl

theorem read_join : d.read (Path.join (pathOf place) name) =
    match d.fileIn? place name with
    | some content => .ok content
    | none => .error ((nameFault? place name).getD .notFound) := by
  unfold read
  rw [h.stat_join hname]
  cases d.fileIn? place name <;> rfl

theorem size_join (content : Bytes) (hcontent : d.fileIn? place name = some content) :
    d.size (Path.join (pathOf place) name) = .ok content.length := by
  unfold size
  rw [h.stat_join hname, hcontent]
  rfl

theorem isFile_join :
    d.isFile (Path.join (pathOf place) name) = (d.fileIn? place name).isSome := by
  unfold isFile
  rw [h.stat_join hname]
  cases d.fileIn? place name <;> rfl

theorem write_join (content : Bytes) : d.write (Path.join (pathOf place) name) content =
    match nameFault? place name with
    | some e => .error e
    | none => .ok (d.put (place ++ [name]) (.file content)) := by
  unfold write
  rw [h.resolve_join hname]
  cases nameFault? place name with
  | some e => rfl
  | none => cases d.fileIn? place name <;> rfl

theorem delete_join : d.delete (Path.join (pathOf place) name) =
    match d.fileIn? place name with
    | some _ => .ok (d.erase (place ++ [name]))
    | none => .error ((nameFault? place name).getD .notFound) := by
  unfold delete
  rw [h.resolve_join hname]
  cases hcontent : d.fileIn? place name with
  | some content =>
    rw [(h.named name content hcontent).2]
    rfl
  | none => cases nameFault? place name <;> rfl

end IsFolder

/-- A file gets the new name, in the place of whatever file had it, unless there is no such file
or the name is at fault. -/
theorem IsFolder.rename_join (h : d.IsFolder place) (hsource : Path.IsPlain source)
    (htarget : Path.IsPlain target) :
    match d.fileIn? place source, nameFault? place target with
    | some content, none =>
      d.rename (Path.join (pathOf place) source) (Path.join (pathOf place) target) =
        .ok (if source = target then d
          else (d.erase (place ++ [source])).put (place ++ [target]) (.file content))
    | _, _ =>
      ∃ e, d.rename (Path.join (pathOf place) source) (Path.join (pathOf place) target) =
        .error e := by
  unfold rename
  rw [h.resolve_join hsource, h.resolve_join htarget]
  cases hcontent : d.fileIn? place source with
  | none =>
    cases nameFault? place source <;> cases nameFault? place target <;> exact ⟨_, rfl⟩
  | some content =>
    rw [(h.named source content hcontent).2]
    cases nameFault? place target with
    | some e => exact ⟨_, rfl⟩
    | none =>
      have hsame : place ++ [source] = place ++ [target] ↔ source = target := by simp
      show _ = Except.ok (if source = target then _ else _)
      by_cases heq : source = target
      · rw [if_pos heq]
        cases d.fileIn? place target <;> exact if_pos (hsame.mpr heq)
      · rw [if_neg heq]
        cases d.fileIn? place target <;> exact if_neg (mt hsame.mp heq)

/-- The name of what is at a place, if that is an entry of a directory. -/
def nameIn? (place other : Place) : Option String :=
  match other.getLast? with
  | some name => if other.dropLast = place then some name else none
  | none => none

theorem nameIn?_eq_some_iff : nameIn? place other = some name ↔ other = place ++ [name] := by
  unfold nameIn?
  constructor
  · intro h
    split at h
    next last hlast =>
      obtain ⟨front, rfl⟩ := List.getLast?_eq_some_iff.mp hlast
      rw [List.dropLast_concat, Option.ite_none_right_eq_some] at h
      rw [h.1, Option.some.inj h.2]
    next => exact nomatch h
  · rintro rfl
    rw [List.getLast?_concat, List.dropLast_concat]
    exact if_pos rfl

/-- The names of the files are listed once each. -/
theorem IsFolder.exists_list (h : d.IsFolder place) (hnul : hasNul (pathOf place) = false)
    (hlength : (bytes (pathOf place)).length ≤ pathLimit) :
    ∃ names, d.list (pathOf place) = .ok names ∧ names.Nodup ∧
      ∀ name, name ∈ names ↔ (d.fileIn? place name).isSome := by
  have hlong : isTooLong (pathOf place) = false :=
    Bool.and_eq_false_iff.mpr (.inr (decide_eq_false (Nat.not_lt.mpr hlength)))
  have hresolve : d.resolve true (pathOf place) = .ok ⟨place, some .directory⟩ := by
    unfold resolve
    rw [hlong, if_neg Bool.false_ne_true, locate_eq_ok_iff (isAbsolute_pathOf place)]
    exact ⟨hnul, walk_pathOf h.isCanonical h.isDirectory nofun⟩
  have hlist : d.list (pathOf place) =
      .ok ((d.entries.map Prod.fst).filterMap (nameIn? place)) := by
    unfold list
    rw [hresolve, List.filterMap_map]
    rfl
  refine ⟨_, hlist, ?_, fun name => ?_⟩
  · refine List.Nodup.filterMap (fun other other' name hname hname' => ?_) h.nodup
    rw [nameIn?_eq_some_iff.mp hname, nameIn?_eq_some_iff.mp hname']
  · have hmem : name ∈ (d.entries.map Prod.fst).filterMap (nameIn? place) ↔
        place ++ [name] ∈ d.entries.map Prod.fst := by
      simp only [List.mem_filterMap, nameIn?_eq_some_iff, exists_eq_right]
    have hentry : d.entries.lookup (place ++ [name]) = (d.fileIn? place name).map .file :=
      (if_neg (concat_ne_nil place name)).symm.trans (h.entryAt_eq name)
    rw [hmem, ← @Option.isSome_map _ _ Entry.file, ← hentry, List.lookup_isSome_iff, List.mem_map]
    exact exists_congr fun e => and_congr_right fun _ => eq_comm.trans beq_iff_eq.symm

/-! ## Changes to the files of a folder -/

/-- Two disks with the same entries but for what is in a directory. -/
structure IsAround (d d' : Disk) (place : Place) : Prop where
  working : d'.working = d.working
  entryAt_eq : ∀ other, ¬ (place <+: other ∧ other ≠ place) → d'.entryAt other = d.entryAt other

namespace IsAround

variable {d' d'' : Disk}

theorem refl (d : Disk) (place : Place) : d.IsAround d place := ⟨rfl, fun _ _ => rfl⟩

theorem trans (h : d.IsAround d' place) (h' : d'.IsAround d'' place) : d.IsAround d'' place :=
  ⟨h'.working.trans h.working,
    fun other hother => (h'.entryAt_eq other hother).trans (h.entryAt_eq other hother)⟩

theorem put (d : Disk) (place : Place) (name : String) (entry : Entry) :
    d.IsAround (d.put (place ++ [name]) entry) place where
  working := rfl
  entryAt_eq other hother := by
    rw [entryAt_put (concat_ne_nil place name), if_neg]
    rintro rfl
    exact hother ⟨List.prefix_append _ _, by simp⟩

theorem erase (d : Disk) (place : Place) (name : String) :
    d.IsAround (d.erase (place ++ [name])) place where
  working := rfl
  entryAt_eq other hother := by
    rw [entryAt_erase (concat_ne_nil place name), if_neg]
    intro hbelow
    refine hother ⟨(List.prefix_append _ _).trans hbelow, ?_⟩
    rintro rfl
    exact absurd hbelow.length_le (by simp)

end IsAround

theorem nodup_put (h : (d.entries.map Prod.fst).Nodup) (entry : Entry) :
    ((d.put place entry).entries.map Prod.fst).Nodup := by
  refine List.nodup_cons.mpr ⟨?_, h.sublist (List.filter_sublist.map _)⟩
  rw [List.mem_map]
  rintro ⟨e, he, heq⟩
  exact bne_iff_ne.mp (List.mem_filter.mp he).2 heq

theorem nodup_erase (h : (d.entries.map Prod.fst).Nodup) (place : Place) :
    ((d.erase place).entries.map Prod.fst).Nodup :=
  h.sublist (List.filter_sublist.map _)

namespace IsFolder

variable {d' : Disk}

/-- What is done in a folder leaves a folder if the files in it are still as they have to be. -/
theorem changed (h : d.IsFolder place) (ha : d.IsAround d' place)
    (hflat : ∀ below entry, below ≠ [] → d'.entryAt (place ++ below) = some entry →
      ∃ name content, below = [name] ∧ entry = .file content)
    (hnamed : ∀ name content, d'.fileIn? place name = some content →
      Path.IsPlain name ∧ nameFault? place name = none)
    (hnodup : (d'.entries.map Prod.fst).Nodup) : d'.IsFolder place := by
  have hplace : d'.entryAt place = d.entryAt place := ha.entryAt_eq place fun hbelow => hbelow.2 rfl
  refine ⟨⟨h.isCanonical.isName, fun front hfront hne => ?_, fun target => ?_⟩, ?_, hflat, hnamed,
    hnodup⟩
  · rw [ha.entryAt_eq front fun hbelow => hne (hfront.eq_of_length_le hbelow.1.length_le)]
    exact h.isCanonical.isDirectory front hfront hne
  · rw [hplace]
    exact h.isCanonical.not_link target
  · rw [hplace]
    exact h.isDirectory

theorem put (h : d.IsFolder place) (hname : Path.IsPlain name)
    (hfault : nameFault? place name = none) (content : Bytes) :
    (d.put (place ++ [name]) (.file content)).IsFolder place := by
  refine h.changed (.put d place name _) (fun below entry hne hentry => ?_)
    (fun other found hfound => ?_) (nodup_put h.nodup _)
  · rw [entryAt_put (concat_ne_nil place name)] at hentry
    by_cases hbelow : place ++ below = place ++ [name]
    · rw [if_pos hbelow] at hentry
      exact ⟨name, content, List.append_cancel_left hbelow, (Option.some.inj hentry).symm⟩
    · rw [if_neg hbelow] at hentry
      exact h.flat below entry hne hentry
  · rw [fileIn?_put] at hfound
    by_cases hother : other = name
    · rw [hother]
      exact ⟨hname, hfault⟩
    · rw [if_neg hother] at hfound
      exact h.named other found hfound

theorem erase (h : d.IsFolder place) (name : String) :
    (d.erase (place ++ [name])).IsFolder place := by
  refine h.changed (.erase d place name) (fun below entry hne hentry => ?_)
    (fun other found hfound => ?_) (nodup_erase h.nodup _)
  · rw [entryAt_erase (concat_ne_nil place name)] at hentry
    split at hentry
    · exact nomatch hentry
    · exact h.flat below entry hne hentry
  · rw [fileIn?_erase] at hfound
    split at hfound
    · exact nomatch hfound
    · exact h.named other found hfound

end IsFolder

end Disk
end KernelDepot
