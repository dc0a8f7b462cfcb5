/-
Walking to canonical places.

Wherever a walk that follows links comes to, every name on the way down there is one that an entry
can have, everything above is a directory and what is there is no link.  Such a place is canonical:
the walk down to it from the root goes straight, by its own names.
-/
import KernelDepot.Proofs.Disk.Path

namespace KernelDepot
namespace Disk

open Text

structure IsCanonical (d : Disk) (place : Place) : Prop where
  isName : ∀ name ∈ place, IsName name
  isDirectory : ∀ front, front <+: place → front ≠ place → d.entryAt front = some .directory
  not_link : ∀ target, d.entryAt place ≠ some (.link target)

variable {d : Disk} {follow single : Bool} {links : Nat} {here place front : Place}
  {name : String} {names rest : List String} {spot : Spot}

/-! ## Canonical places -/

namespace IsCanonical

theorem root (d : Disk) : d.IsCanonical [] where
  isName _ h := absurd h List.not_mem_nil
  isDirectory _ hfront hne := absurd (List.prefix_nil.mp hfront) hne
  not_link _ := nofun

theorem above (h : d.IsCanonical place) (hfront : front <+: place) : d.IsCanonical front where
  isName name hname := h.isName name (hfront.subset hname)
  isDirectory upper hupper hne := by
    refine h.isDirectory upper (hupper.trans hfront) fun heq => hne ?_
    exact hupper.eq_of_length_le (heq ▸ hfront.length_le)
  not_link target := by
    by_cases heq : front = place
    · exact heq ▸ h.not_link target
    · rw [h.isDirectory front hfront heq]
      nofun

theorem concat (h : d.IsCanonical here) (hhere : d.entryAt here = some .directory)
    (hname : IsName name) (hlink : ∀ target, d.entryAt (here ++ [name]) ≠ some (.link target)) :
    d.IsCanonical (here ++ [name]) where
  isName other hother := by
    rcases List.mem_append.mp hother with hother | hother
    · exact h.isName other hother
    · exact List.mem_singleton.mp hother ▸ hname
  isDirectory upper hupper hne := by
    rcases List.prefix_concat_iff.mp hupper with heq | hprefix
    · exact absurd heq hne
    · by_cases heq : upper = here
      · exact heq ▸ hhere
      · exact h.isDirectory upper hprefix heq
  not_link := hlink

end IsCanonical

/-- A walk that follows links stays on canonical places. -/
theorem isCanonical_of_walk (hhere : d.IsCanonical here)
    (hslash : ∀ name ∈ names, '/' ∉ name.toList)
    (h : d.walk true single links here names = .ok spot) : d.IsCanonical spot.place := by
  have hisName {name : String} {rest : List String} (hslash : ∀ n ∈ name :: rest, '/' ∉ n.toList)
      (hstep : ¬(name = "" ∨ name = ".")) (hup : ¬name = "..")
      (hshort : ¬nameLimit < (bytes name).length) : IsName name :=
    ⟨⟨fun e => hstep (.inl e), fun e => hstep (.inr e), hup, hslash name List.mem_cons_self⟩,
      Nat.le_of_not_lt hshort⟩
  fun_induction walk d true single links here names with
  | case1 =>
    obtain rfl := Except.ok.inj h
    exact hhere
  | case5 links here name rest hdirectory hstay ih =>
    exact ih hhere (fun n hn => hslash n (List.mem_cons_of_mem _ hn)) h
  | case6 links here rest hdirectory hstep ih =>
    exact ih (hhere.above here.dropLast_prefix)
      (fun n hn => hslash n (List.mem_cons_of_mem _ hn)) h
  | case8 links here name rest hdirectory hstep hup hshort place hentry hblank =>
    obtain rfl := Except.ok.inj h
    refine hhere.concat hdirectory (hisName hslash hstep hup hshort) fun target => ?_
    rw [hentry]
    exact (Option.some_ne_none _).symm
  | case11 links here name rest hdirectory hstep hup hshort place target hlast =>
    exact absurd rfl hlast.2
  | case13 here name rest hdirectory hstep hup hshort place target hlast left hentry hreach ih =>
    refine ih ?_ (fun n hn => ?_) h
    · unfold origin
      split
      · exact .root d
      · exact hhere
    · rcases List.mem_append.mp hn with hn | hn
      · exact Path.slash_not_mem_of_mem_segments hn
      · exact hslash n (List.mem_cons_of_mem _ hn)
  | case14 links here name rest hdirectory hstep hup hshort place entry hentry hreach hlink ih =>
    refine ih (hhere.concat hdirectory (hisName hslash hstep hup hshort) fun target htarget => ?_)
      (fun n hn => hslash n (List.mem_cons_of_mem _ hn)) h
    exact hlink target (Option.some.inj (hentry.symm.trans htarget))
  | _ => cases h

theorem isCanonical_of_walk_segments {path : String}
    (h : d.walk true single links [] (Path.segments path) = .ok spot) : d.IsCanonical spot.place :=
  isCanonical_of_walk (.root d) (fun _ => Path.slash_not_mem_of_mem_segments) h

/-! ## One name -/

theorem walk_nil (d : Disk) (here : Place) :
    d.walk follow single links here [] = .ok ⟨here, d.entryAt here⟩ := by
  rw [walk]

theorem directory_of_walk (h : d.walk follow single links here (name :: rest) = .ok spot) :
    d.entryAt here = some .directory := by
  rw [walk] at h
  split at h
  · cases h
  · cases h
  · cases h
  · next hdirectory => exact hdirectory

theorem walk_stay (hhere : d.entryAt here = some .directory) (hname : Path.isStep name = false) :
    d.walk follow single links here (name :: rest) = d.walk follow single links here rest := by
  have hstay : name = "" ∨ name = "." := by
    by_contra hstep
    exact absurd (decide_eq_true (not_or.mp hstep)) (Bool.eq_false_iff.mp hname)
  rw [walk, hhere, if_pos hstay]

theorem not_stay_of_isStep (h : Path.isStep name = true) : ¬(name = "" ∨ name = ".") :=
  not_or.mpr (of_decide_eq_true h)

theorem walk_step {entry : Entry} (hhere : d.entryAt here = some .directory)
    (hname : Path.isStep name = true) (hup : name ≠ "..")
    (hshort : (bytes name).length ≤ nameLimit) (hentry : d.entryAt (here ++ [name]) = some entry)
    (hlink : ∀ target, entry ≠ .link target)
    (hreach : single = true → isWithinReach (here ++ [name]) entry rest = true) :
    d.walk follow single links here (name :: rest) =
      d.walk follow single links (here ++ [name]) rest := by
  rw [walk, hhere]
  simp only [if_neg (not_stay_of_isStep hname), if_neg hup, if_neg (Nat.not_lt.mpr hshort), hentry]
  exact if_neg fun hfar => hfar.2 (hreach hfar.1)

/-- A walk that goes on over a name and meets no link there. -/
theorem exists_of_walk_step (hname : Path.isStep name = true) (hup : name ≠ "..")
    (hlink : ∀ target, d.entryAt (here ++ [name]) ≠ some (.link target))
    (h : d.walk follow single links here (name :: rest) = .ok spot) (hspot : spot.entry ≠ none) :
    (bytes name).length ≤ nameLimit ∧ ∃ entry, d.entryAt (here ++ [name]) = some entry ∧
      d.walk follow single links (here ++ [name]) rest = .ok spot := by
  have hdirectory := directory_of_walk h
  rw [walk, hdirectory] at h
  simp only [if_neg (not_stay_of_isStep hname), if_neg hup] at h
  split at h
  · cases h
  next hshort =>
    refine ⟨Nat.le_of_not_lt hshort, ?_⟩
    cases hentry : d.entryAt (here ++ [name]) with
    | none =>
      simp only [hentry] at h
      split at h
      · obtain rfl := Except.ok.inj h
        exact absurd rfl hspot
      · cases h
    | some entry =>
      simp only [hentry] at h
      split at h
      · cases h
      · cases entry with
        | link target => exact absurd hentry (hlink target)
        | file content => exact ⟨_, rfl, h⟩
        | directory => exact ⟨_, rfl, h⟩

/-! ## Down to a canonical place -/

theorem takesDirectory_eq_false (hup : ".." ∉ rest)
    (hstep : rest = [] ∨ ∃ name ∈ rest, Path.isStep name = true) : takesDirectory rest = false := by
  unfold takesDirectory
  split
  next name hfind =>
    refine decide_eq_false fun heq => ?_
    exact hup (heq ▸ List.mem_of_find?_eq_some hfind)
  next hfind =>
    rcases hstep with rfl | ⟨name, hname, hstep⟩
    · rfl
    · exact absurd hstep (List.find?_eq_none.mp hfind name hname)

theorem isWithinReach_of_length {entry : Entry} (hlink : ∀ target, entry ≠ .link target)
    (htakes : takesDirectory rest = false) (hlength : (bytes (pathOf place)).length ≤ pathLimit) :
    isWithinReach place entry rest = true := by
  have hshort : isTooLong (pathOf place) = false :=
    Bool.and_eq_false_iff.mpr (.inr (decide_eq_false (Nat.not_lt.mpr hlength)))
  unfold isWithinReach
  cases entry with
  | link target => exact absurd rfl (hlink target)
  | _ => simp [htakes, hshort]

/-- The walk over a canonical place goes straight, and no link is needed for it. -/
theorem walk_append_of_isCanonical {entry : Entry} {more : List String}
    (h : d.IsCanonical (front ++ rest)) (hentry : d.entryAt (front ++ rest) = some entry)
    (hlength : single = true → (bytes (pathOf (front ++ rest))).length ≤ pathLimit)
    (htakes : single = true → ∀ last, last <:+ rest → takesDirectory (last ++ more) = false) :
    d.walk follow single links front (rest ++ more) =
      d.walk follow single links (front ++ rest) more := by
  induction rest generalizing front with
  | nil => rw [List.append_nil, List.nil_append]
  | cons name rest ih =>
    have hsplit : front ++ name :: rest = front ++ [name] ++ rest :=
      List.append_cons front name rest
    have hname := h.isName name (List.mem_append_right _ List.mem_cons_self)
    have hfront : d.entryAt front = some .directory :=
      h.isDirectory front (List.prefix_append _ _) (by simp)
    have hplace : d.IsCanonical (front ++ [name]) := h.above ⟨rest, hsplit.symm⟩
    -- Only the last entry can be something else than a directory.
    obtain ⟨next, hnext⟩ : ∃ next, d.entryAt (front ++ [name]) = some next := by
      by_cases hrest : rest = []
      · exact ⟨entry, hrest ▸ hentry⟩
      · refine ⟨.directory, h.isDirectory _ ⟨rest, hsplit.symm⟩ fun heq => ?_⟩
        exact hrest (List.append_right_eq_self.mp (hsplit.symm.trans heq.symm))
    have hlink : ∀ target, next ≠ .link target :=
      fun target heq => hplace.not_link target (heq ▸ hnext)
    have hgoes := @ih (front ++ [name]) (hsplit ▸ h) (hsplit ▸ hentry) (hsplit ▸ hlength)
      fun hsingle last hlast => htakes hsingle last (hlast.trans (List.suffix_cons _ _))
    rw [List.cons_append, walk_step hfront hname.isStep hname.ne_points hname.isShort hnext hlink,
      hgoes, hsplit]
    intro hsingle
    refine isWithinReach_of_length hlink (htakes hsingle rest (List.suffix_cons _ _)) ?_
    rw [hsplit] at hlength
    exact Nat.le_trans (length_bytes_pathOf_mono (List.prefix_append _ _)) (hlength hsingle)

/-- The walk to a canonical place ends there. -/
theorem walk_of_isCanonical {entry : Entry} (h : d.IsCanonical (front ++ rest))
    (hentry : d.entryAt (front ++ rest) = some entry)
    (hlength : single = true → (bytes (pathOf (front ++ rest))).length ≤ pathLimit) :
    d.walk follow single links front rest = .ok ⟨front ++ rest, some entry⟩ := by
  have htakes (last : List String) (hlast : last <:+ rest) :
      takesDirectory (last ++ []) = false := by
    have hnames (n : String) (hn : n ∈ last) : IsName n :=
      h.isName n (List.mem_append_right _ (hlast.subset hn))
    rw [List.append_nil]
    refine takesDirectory_eq_false (fun hup => (hnames _ hup).ne_points rfl) ?_
    cases last with
    | nil => exact .inl rfl
    | cons n more => exact .inr ⟨n, List.mem_cons_self, (hnames n List.mem_cons_self).isStep⟩
  have hgoes := @walk_append_of_isCanonical d follow single links front rest entry [] h hentry
    hlength fun _ => htakes
  rw [List.append_nil] at hgoes
  rw [hgoes, walk_nil, hentry]

/-- What is left to walk once a canonical place has been walked to. -/
theorem walk_of_walk_append {more : List String} (h : d.IsCanonical (front ++ rest))
    (hwalk : d.walk follow single links front (rest ++ more) = .ok spot)
    (hspot : spot.entry ≠ none) :
    d.walk follow single links (front ++ rest) more = .ok spot := by
  induction rest generalizing front with
  | nil => rwa [List.append_nil]
  | cons name rest ih =>
    have hsplit : front ++ name :: rest = front ++ [name] ++ rest :=
      List.append_cons front name rest
    have hname := h.isName name (List.mem_append_right _ List.mem_cons_self)
    have hlink := (h.above ⟨rest, hsplit.symm⟩).not_link
    obtain ⟨-, entry, -, hgoes⟩ :=
      exists_of_walk_step hname.isStep hname.ne_points hlink hwalk hspot
    rw [hsplit] at h ⊢
    exact ih h hgoes

/-- A file is not walked through, not even by staying there. -/
theorem eq_nil_of_walk_to_file {content : Bytes} (hstay : ∀ name ∈ names, Path.isStep name = false)
    (h : d.walk follow single links here names = .ok ⟨place, some (.file content)⟩) :
    names = [] := by
  induction names with
  | nil => rfl
  | cons name rest ih =>
    have hhere := directory_of_walk h
    rw [walk_stay hhere (hstay name List.mem_cons_self)] at h
    rw [ih (fun n hn => hstay n (List.mem_cons_of_mem _ hn)) h, walk_nil, hhere] at h
    exact nomatch (Spot.mk.inj (Except.ok.inj h)).2

/-- The walk to a file by names that go down and meet no link ends where the names say, and it
ends there as well if every entry on the way is looked up by its own path. -/
theorem walk_of_no_link {content : Bytes} (hup : ".." ∉ names)
    (hlinks : ∀ front target, front <+: names.filter Path.isStep →
      d.entryAt (here ++ front) ≠ some (.link target))
    (hlength : (bytes (pathOf (here ++ names.filter Path.isStep))).length ≤ pathLimit)
    (h : d.walk follow false links here names = .ok ⟨place, some (.file content)⟩) :
    place = here ++ names.filter Path.isStep ∧
      d.walk follow true links here names = .ok ⟨place, some (.file content)⟩ := by
  induction names generalizing here with
  | nil =>
    rw [walk_nil] at h ⊢
    obtain ⟨rfl, -⟩ := Spot.mk.inj (Except.ok.inj h)
    exact ⟨(List.append_nil _).symm, h⟩
  | cons name rest ih =>
    have hhere := directory_of_walk h
    have hupRest : ".." ∉ rest := fun hmem => hup (List.mem_cons_of_mem _ hmem)
    cases hname : Path.isStep name with
    | false =>
      rw [List.filter_cons_of_neg (by simp [hname])] at hlinks hlength ⊢
      rw [walk_stay hhere hname] at h ⊢
      exact ih hupRest hlinks hlength h
    | true =>
      have hne : name ≠ ".." := fun heq => hup (heq ▸ List.mem_cons_self)
      rw [List.filter_cons_of_pos hname] at hlinks hlength ⊢
      have hlink : ∀ target, d.entryAt (here ++ [name]) ≠ some (.link target) := fun target =>
        hlinks [name] target (List.prefix_append [name] _)
      obtain ⟨hshort, entry, hentry, hgoes⟩ := exists_of_walk_step hname hne hlink h (by simp)
      have hentryLink : ∀ target, entry ≠ .link target :=
        fun target heq => hlink target (heq ▸ hentry)
      -- The walk ends at a file, so what is left is nothing or leads on.
      have htakes : takesDirectory rest = false := by
        refine takesDirectory_eq_false hupRest ?_
        by_cases hstep : ∃ n ∈ rest, Path.isStep n = true
        · exact .inr hstep
        · refine .inl (eq_nil_of_walk_to_file (fun n hn => ?_) hgoes)
          exact Bool.eq_false_iff.mpr fun hn' => hstep ⟨n, hn, hn'⟩
      rw [List.append_cons] at hlength ⊢
      have hlinksRest : ∀ front target, front <+: rest.filter Path.isStep →
          d.entryAt (here ++ [name] ++ front) ≠ some (.link target) := by
        intro front target hfront
        rw [← List.append_cons]
        exact hlinks (name :: front) target ((List.prefix_cons_inj name).mpr hfront)
      obtain ⟨hplace, hsingle⟩ := ih hupRest hlinksRest hlength hgoes
      refine ⟨hplace, ?_⟩
      rw [walk_step hhere hname hne hshort hentry hentryLink, hsingle]
      intro _
      refine isWithinReach_of_length hentryLink htakes ?_
      exact Nat.le_trans (length_bytes_pathOf_mono (List.prefix_append _ _)) hlength

/-! ## What a path leads to -/

variable {path p : String} {content : Bytes}

theorem locate_eq_ok_iff (habsolute : Path.isAbsolute path = true) {follow single : Bool}
    {spot : Spot} : d.locate follow single path = .ok spot ↔ hasNul path = false ∧
      d.walk follow single linkLimit [] (Path.segments path) = .ok spot := by
  unfold locate origin
  rw [if_neg (Path.ne_empty_of_isAbsolute habsolute), if_pos habsolute]
  cases hasNul path <;> simp

theorem canonical_eq_ok_iff (habsolute : Path.isAbsolute path = true) :
    d.canonical path = .ok p ↔ hasNul path = false ∧ ∃ place entry,
      d.walk true true linkLimit [] (Path.segments path) = .ok ⟨place, some entry⟩ ∧
        p = pathOf place := by
  have hlocate : (∃ place entry, d.locate true true path = .ok ⟨place, some entry⟩ ∧
      p = pathOf place) ↔ d.canonical path = .ok p := by
    unfold canonical
    rcases d.locate true true path with e | ⟨place, _ | entry⟩
    · simp [bind, Except.bind]
    · simp [bind, Except.bind, throw, throwThe, MonadExceptOf.throw]
    · simp [bind, Except.bind, pure, Except.pure, eq_comm]
  simp only [← hlocate, locate_eq_ok_iff habsolute, exists_and_left, and_assoc]

theorem read_eq_ok_iff (habsolute : Path.isAbsolute path = true) :
    d.read path = .ok content ↔ hasNul path = false ∧ (bytes path).length ≤ pathLimit ∧ ∃ place,
      d.walk true false linkLimit [] (Path.segments path) = .ok ⟨place, some (.file content)⟩ := by
  have hresolve : (∃ place, d.resolve true path = .ok ⟨place, some (.file content)⟩) ↔
      d.read path = .ok content := by
    unfold read stat
    rcases d.resolve true path with e | ⟨place, _ | _ | _ | _⟩ <;>
      simp [bind, Except.bind, pure, Except.pure, throw, throwThe, MonadExceptOf.throw]
  rw [← hresolve]
  unfold resolve isTooLong
  by_cases hlong : pathLimit < (bytes path).length
  · cases hnul : hasNul path <;> simp [hlong, hnul, locate, Nat.not_le.mpr hlong]
  · simp only [hlong, decide_false, Bool.and_false, Bool.false_eq_true, if_false,
      locate_eq_ok_iff habsolute, Nat.le_of_not_lt hlong, exists_and_left, true_and]

theorem isFile_of_read (h : d.read path = .ok content) :
    d.isFile path = true := by
  unfold read at h
  unfold isFile
  cases hstat : d.stat path with
  | error e =>
    rw [hstat] at h
    exact nomatch h
  | ok entry =>
    rw [hstat] at h
    cases entry with
    | file content => rfl
    | _ => cases h

theorem isAbsolute_of_canonical (h : d.canonical path = .ok p) : Path.isAbsolute p = true := by
  unfold canonical at h
  rcases hlocate : d.locate true true path with e | ⟨place, _ | entry⟩ <;> rw [hlocate] at h
  · exact nomatch h
  · exact nomatch h
  · exact Except.ok.inj h ▸ isAbsolute_pathOf place

/-- A path that is its own canonical one leads to a canonical place. -/
theorem exists_place_of_canonical (h : d.canonical path = .ok path) :
    ∃ place, path = pathOf place ∧ d.IsCanonical place := by
  obtain ⟨-, place, entry, hwalk, hpath⟩ :=
    (canonical_eq_ok_iff (isAbsolute_of_canonical h)).mp h
  exact ⟨place, hpath, isCanonical_of_walk_segments hwalk⟩

theorem walk_pathOf {entry : Entry} (h : d.IsCanonical place)
    (hentry : d.entryAt place = some entry)
    (hlength : single = true → (bytes (pathOf place)).length ≤ pathLimit) :
    d.walk follow single links [] (Path.segments (pathOf place)) = .ok ⟨place, some entry⟩ := by
  by_cases hne : place = []
  · subst hne
    obtain rfl := Option.some.inj hentry
    have hroot : Path.segments (pathOf []) = ["", ""] := by decide
    rw [hroot, walk_stay rfl (by decide), walk_stay rfl (by decide), walk_nil]
    rfl
  · rw [segments_pathOf hne h.isName, walk_stay rfl (by decide)]
    exact walk_of_isCanonical h hentry hlength

theorem canonical_pathOf {entry : Entry} (h : d.IsCanonical place)
    (hentry : d.entryAt place = some entry) (hnul : hasNul (pathOf place) = false)
    (hlength : (bytes (pathOf place)).length ≤ pathLimit) :
    d.canonical (pathOf place) = .ok (pathOf place) :=
  (canonical_eq_ok_iff (isAbsolute_pathOf place)).mpr
    ⟨hnul, place, entry, walk_pathOf h hentry fun _ => hlength, rfl⟩

/-- The path of a canonical place is read as what is there. -/
theorem read_pathOf_eq_ok_iff {entry : Entry} (h : d.IsCanonical place)
    (hentry : d.entryAt place = some entry) :
    d.read (pathOf place) = .ok content ↔ hasNul (pathOf place) = false ∧
      (bytes (pathOf place)).length ≤ pathLimit ∧ entry = .file content := by
  have hwalk : d.walk true false linkLimit [] (Path.segments (pathOf place)) =
      .ok ⟨place, some entry⟩ := walk_pathOf h hentry nofun
  simp only [read_eq_ok_iff (isAbsolute_pathOf place), hwalk, Except.ok.injEq, Spot.mk.injEq,
    Option.some.injEq, exists_eq_left']

/-- The canonical path of what a path leads straight down to has the names of the path, and it
leads there too. -/
theorem canonical_of_read (habsolute : Path.isAbsolute path = true)
    (hup : ".." ∉ Path.segments path)
    (hlinks : ∀ front target, front <+: Path.names path → d.entryAt front ≠ some (.link target))
    (h : d.read path = .ok content) :
    d.IsCanonical (Path.names path) ∧ d.canonical path = .ok (pathOf (Path.names path)) ∧
      d.read (pathOf (Path.names path)) = .ok content := by
  obtain ⟨hnul, hlength, found, hwalk⟩ := (read_eq_ok_iff habsolute).mp h
  have hshort : (bytes (pathOf (Path.names path))).length ≤ pathLimit :=
    Nat.le_trans (length_bytes_pathOf_names_le habsolute) hlength
  have hnames : [] ++ (Path.segments path).filter Path.isStep = Path.names path :=
    List.nil_append _
  have hstraight : ∀ front target, front <+: (Path.segments path).filter Path.isStep →
      d.entryAt ([] ++ front) ≠ some (.link target) := hlinks
  obtain ⟨hfound, hsingle⟩ := walk_of_no_link hup hstraight (hnames ▸ hshort) hwalk
  rw [hfound, hnames] at hwalk hsingle
  have hplace : d.IsCanonical (Path.names path) := isCanonical_of_walk_segments hwalk
  have hentry : d.entryAt (Path.names path) = some (.file content) := (entry_of_walk hwalk).symm
  refine ⟨hplace, ?_, ?_⟩
  · exact (canonical_eq_ok_iff habsolute).mpr ⟨hnul, _, _, hsingle, rfl⟩
  · exact (read_pathOf_eq_ok_iff hplace hentry).mpr ⟨hasNul_pathOf_names hnul, hshort, rfl⟩

end Disk
end KernelDepot
