/-
Calls that leave an image only with its manifest.

A store writes the manifest before the image, and a removal deletes the images before the
manifest.  A store that has written the manifest relies on it, and a removal that has deleted
an image relies on its absence: the two have parts that cannot stand side by side.  Among
calls without such a pair, every step keeps `Folder.IsDescribed`.
-/
import KernelDepot.Proofs.Artifact.Whole

namespace KernelDepot

open ArtifactStore

/-- If there is an image of a fingerprint then there is a manifest. -/
def Folder.IsDescribed (f : Fingerprint) (d : Folder) : Prop :=
  ∀ format, (d.content (imageName f format)).isSome → (d.content (manifestName f)).isSome

/-- Two folders have the same files of a fingerprint. -/
structure Folder.SameEntry (f : Fingerprint) (d d' : Folder) : Prop where
  manifest : d'.content (manifestName f) = d.content (manifestName f)
  image : ∀ format, d'.content (imageName f format) = d.content (imageName f format)

/-! ## The accord -/

/-- The part of a call in what becomes of the entry of a fingerprint. -/
inductive Part where
  | idle
  /-- It stores, and it may rely on the manifest. -/
  | storing (described : Bool)
  /-- It removes, and the images of some formats are gone. -/
  | removing (gone : List ImageFormat)

namespace Part

def Relies (f : Fingerprint) : Part → Folder → Prop
  | idle, _ => True
  | storing described, d => described = true → (d.content (manifestName f)).isSome
  | removing gone, d => ∀ format ∈ gone, d.content (imageName f format) = none

/-- Nobody stores while somebody removes. -/
def IsBeside : Part → Part → Prop
  | storing _, removing _ | removing _, storing _ => False
  | _, _ => True

/-- The part that a request can have. -/
def Fits (f : Fingerprint) : StoreRequest → Part → Prop
  | _, idle => True
  | request, storing _ => ∃ a, request = .store f a
  | request, removing _ => request = .remove f

def first (f : Fingerprint) : StoreRequest → Part
  | .store g _ => if g = f then storing false else idle
  | .remove g => if g = f then removing [] else idle
  | _ => idle

theorem first_store (f g : Fingerprint) (a : Artifact) :
    first f (.store g a) = if g = f then storing false else idle := rfl

theorem first_remove (f g : Fingerprint) :
    first f (.remove g) = if g = f then removing [] else idle := rfl

/-- Nobody relies on anything when it enters. -/
theorem relies_first (f : Fingerprint) (request : StoreRequest) (d : Folder) :
    (first f request).Relies f d := by
  cases request with
  | store g a =>
    rw [first_store]
    split
    · exact fun h => nomatch h
    · trivial
  | remove g =>
    rw [first_remove]
    split
    · exact fun _ h => nomatch h
    · trivial
  | load => trivial
  | clear => trivial

theorem fits_first (f : Fingerprint) (request : StoreRequest) :
    Fits f request (first f request) := by
  cases request with
  | store g a =>
    rw [first_store]
    split
    next hg => exact ⟨a, by rw [hg]⟩
    · trivial
  | remove g =>
    rw [first_remove]
    split
    next hg => exact congrArg StoreRequest.remove hg
    · trivial
  | load => trivial
  | clear => trivial

/-- A request can enter beside another one unless one of them stores and the other removes. -/
theorem isBeside_first {f : Fingerprint} {request other : StoreRequest} {g : Part}
    (hfits : g.Fits f other) (hremove : request = .remove f → ∀ a, other ≠ .store f a)
    (hstore : other = .remove f → ∀ a, request ≠ .store f a) : (first f request).IsBeside g := by
  cases request with
  | store h a =>
    rw [first_store]
    split
    next hh =>
      cases g with
      | idle => trivial
      | storing => trivial
      | removing => exact absurd (by rw [hh]) (hstore hfits a)
    · trivial
  | remove h =>
    rw [first_remove]
    split
    next hh =>
      cases g with
      | idle => trivial
      | storing =>
        obtain ⟨a, ha⟩ := hfits
        exact absurd ha (hremove (by rw [hh]) a)
      | removing => trivial
    · trivial
  | load => trivial
  | clear => trivial

theorem isBeside_idle (g : Part) : g.IsBeside idle := by
  cases g <;> trivial

theorem isBeside_symm {g h : Part} (hgh : g.IsBeside h) : h.IsBeside g := by
  cases g <;> cases h <;> trivial

theorem Relies.of_sameEntry {f : Fingerprint} {g : Part} {d d' : Folder} (h : g.Relies f d)
    (hsame : d.SameEntry f d') : g.Relies f d' := by
  cases g with
  | idle => trivial
  | storing described => exact fun hdescribed => hsame.manifest ▸ h hdescribed
  | removing gone => exact fun format hformat => (hsame.image format).trans (h format hformat)

end Part

/-- All calls leave an image of a fingerprint only with its manifest. -/
def Accord.described (art : Fingerprint → Artifact) (f : Fingerprint) : Accord Part where
  faults := False
  known := Folder.IsWhole art
  keeps := Folder.IsDescribed f
  relies := Part.Relies f
  beside := Part.IsBeside
  fits := Part.Fits f
  promises _ _ := True
  idle := .idle
  beside_symm := Part.isBeside_symm
  relies_idle _ := trivial
  beside_idle _ := trivial
  fits_idle _ := trivial

variable {art : Fingerprint → Artifact} {f : Fingerprint} {request : StoreRequest} {α : Type}

def KeepsDescribed (art : Fingerprint → Artifact) (f : Fingerprint) (request : StoreRequest)
    (ends : α → Part → Prop) (g : Part) (p : Filing α) : Prop :=
  (Accord.described art f).Follows (Part.Fits f request) ends g p

theorem passes_of_sameEntry {g : Part} {d d' : Folder} (hkeeps : d.IsDescribed f)
    (hrelies : g.Relies f d) (hsame : d.SameEntry f d') :
    (Accord.described art f).Passes g g d d' where
  keeps format himage := hsame.manifest ▸ hkeeps format (hsame.image format ▸ himage)
  relies := hrelies.of_sameEntry hsame
  others _ hbeside hh := ⟨hh.of_sameEntry hsame, hbeside⟩

/-! ## Steps -/

section Steps

variable {ends : α → Part → Prop} {g : Part}

/-- A step that leaves the files of the fingerprint as they are. -/
theorem keepsDescribed_of_sameEntry {op : FileOp} {next : op.Reply → Filing α}
    (hfits : g.Fits f request)
    (hsame : ∀ d reply d', Folder.Step d op reply d' → d.SameEntry f d')
    (hnext : ∀ d reply d', d.IsWhole art → Folder.Step d op reply d' →
      KeepsDescribed art f request ends g (next reply)) :
    KeepsDescribed art f request ends g (op.take >>= next) := by
  intro d reply d' hwhole _ hkeeps hrelies hstep
  have hstep : d.Step op reply d' := hstep.resolve_right And.left
  exact ⟨g, passes_of_sameEntry hkeeps hrelies (hsame d reply d' hstep), hfits,
    hnext d reply d' hwhole hstep⟩

theorem sameEntry_refl (d : Folder) : d.SameEntry f d := ⟨rfl, fun _ => rfl⟩

theorem sameEntry_set {d : Folder} {name : String} (content : Option Bytes)
    (hmanifest : name ≠ manifestName f) (himage : ∀ format, name ≠ imageName f format) :
    d.SameEntry f (d.set name content) where
  manifest := d.content_set_of_ne content hmanifest.symm
  image format := d.content_set_of_ne content (himage format).symm

theorem sameEntry_set_temporaryName (d : Folder) (name : String) (t : Ticket)
    (content : Option Bytes) : d.SameEntry f (d.set (temporaryName name t) content) :=
  sameEntry_set content (isLasting_manifestName f name t).symm
    fun format => (isLasting_imageName f format name t).symm

theorem keepsDescribed_isFile {name : String} {next : Bool → Filing α} (hfits : g.Fits f request)
    (hnext : ∀ found, KeepsDescribed art f request ends g (next found)) :
    KeepsDescribed art f request ends g ((FileOp.isFile name).take >>= next) := by
  refine keepsDescribed_of_sameEntry hfits (fun d reply d' hstep => ?_) fun _ found _ _ _ =>
    hnext found
  cases hstep
  exact sameEntry_refl d

theorem keepsDescribed_read {name : String} {next : Except FileFault Bytes → Filing α}
    (hfits : g.Fits f request)
    (herror : ∀ e, KeepsDescribed art f request ends g (next (.error e)))
    (hok : ∀ bytes, Belongs art name bytes →
      KeepsDescribed art f request ends g (next (.ok bytes))) :
    KeepsDescribed art f request ends g ((FileOp.read name).take >>= next) := by
  refine keepsDescribed_of_sameEntry hfits (fun d reply d' hstep => ?_)
    fun d reply d' hwhole hstep => ?_
  · cases hstep <;> exact sameEntry_refl d
  · cases hstep with
    | read hbytes => exact hok _ (hwhole _ _ hbytes)
    | readNothing => exact herror _

theorem keepsDescribed_delete {name : String} {next : Except FileFault Unit → Filing α}
    (hfits : g.Fits f request) (hmanifest : name ≠ manifestName f)
    (himage : ∀ format, name ≠ imageName f format)
    (hnext : ∀ reply, KeepsDescribed art f request ends g (next reply)) :
    KeepsDescribed art f request ends g ((FileOp.delete name).take >>= next) := by
  refine keepsDescribed_of_sameEntry hfits (fun d reply d' hstep => ?_) fun _ reply _ _ _ =>
    hnext reply
  cases hstep with
  | delete => exact sameEntry_set none hmanifest himage
  | deleteNothing => exact sameEntry_refl d

/-- What is left where a file was deleted or was not there. -/
theorem content_of_step_delete {name : String} {reply : Except FileFault Unit} {d d' : Folder}
    (h : d.Step (.delete name) reply d') :
    d'.content name = none ∧ ∀ n, n ≠ name → d'.content n = d.content n := by
  cases h with
  | delete => exact ⟨d.content_set_self name none, fun n hn => d.content_set_of_ne none hn⟩
  | deleteNothing hnone => exact ⟨hnone, fun _ _ => rfl⟩

theorem keepsDescribed_delete_imageName {format : ImageFormat} {gone : List ImageFormat}
    {next : Except FileFault Unit → Filing α}
    (hnext : ∀ reply,
      KeepsDescribed art f (.remove f) ends (.removing (format :: gone)) (next reply)) :
    KeepsDescribed art f (.remove f) ends (.removing gone)
      ((FileOp.delete (imageName f format)).take >>= next) := by
  intro d reply d' _ _ hkeeps hrelies hstep
  obtain ⟨hnone, hother⟩ := content_of_step_delete (hstep.resolve_right And.left)
  have himage (other : ImageFormat) : d'.content (imageName f other) = none ∨
      d'.content (imageName f other) = d.content (imageName f other) := by
    by_cases ho : imageName f other = imageName f format
    · exact .inl (ho ▸ hnone)
    · exact .inr (hother _ ho)
  have hgone (formats : List ImageFormat) (h : (Part.removing formats).Relies f d) :
      (Part.removing formats).Relies f d' := by
    intro other hmem
    rcases himage other with hn | hsame
    · exact hn
    · rw [hsame]
      exact h other hmem
  refine ⟨.removing (format :: gone), ⟨fun other hsome => ?_, fun other hmem => ?_,
    fun h hbeside hh => ?_⟩, rfl, hnext reply⟩
  · rw [hother _ (imageName_ne_manifestName f f format).symm]
    rcases himage other with hn | hsame
    · rw [hn] at hsome
      exact nomatch hsome
    · exact hkeeps other (hsame ▸ hsome)
  · rcases List.mem_cons.mp hmem with rfl | hmem
    · exact hnone
    · exact hgone gone hrelies other hmem
  · cases h with
    | idle => exact ⟨trivial, trivial⟩
    | storing => exact hbeside.elim
    | removing formats => exact ⟨hgone formats hh, trivial⟩

/-- The manifest goes when all images are gone. -/
theorem keepsDescribed_delete_manifestName {gone : List ImageFormat}
    {next : Except FileFault Unit → Filing α} (hall : ∀ format, format ∈ gone)
    (hnext : ∀ reply, KeepsDescribed art f (.remove f) ends (.removing gone) (next reply)) :
    KeepsDescribed art f (.remove f) ends (.removing gone)
      ((FileOp.delete (manifestName f)).take >>= next) := by
  intro d reply d' _ _ hkeeps hrelies hstep
  obtain ⟨-, hother⟩ := content_of_step_delete (hstep.resolve_right And.left)
  have himage (format : ImageFormat) : d'.content (imageName f format) = none :=
    (hother _ (imageName_ne_manifestName f f format)).trans (hrelies format (hall format))
  refine ⟨.removing gone, ⟨fun format hsome => ?_, fun format _ => himage format,
    fun h hbeside hh => ?_⟩, rfl, hnext reply⟩
  · rw [himage] at hsome
    exact nomatch hsome
  · cases h with
    | idle => exact ⟨trivial, trivial⟩
    | storing => exact hbeside.elim
    | removing formats => exact ⟨fun format _ => himage format, trivial⟩

end Steps

/-! ## Operations of a store -/

theorem keepsDescribed_pure {ends : α → Part → Prop} {g : Part} {a : α} (h : ends a g) :
    KeepsDescribed art f request ends g (pure a) :=
  h

/-- A file of the fingerprint was put in its place, and nothing else changed. -/
structure Folder.Gains (name : String) (d d' : Folder) : Prop where
  here : (d'.content name).isSome
  elsewhere : ∀ n, n ≠ name → IsLasting n → d'.content n = d.content n

/-- A file is written as if it were put in its place at once. -/
theorem keepsDescribed_writeFile (s : ArtifactStore) {name : String} (content : Bytes)
    {g g' : Part} (hfits : g.Fits f request) (hfits' : g'.Fits f request)
    (hgains : ∀ d d', d.IsDescribed f → g.Relies f d → d.Gains name d' →
      (Accord.described art f).Passes g g' d d') :
    KeepsDescribed art f request
      (fun result after => after = match result with | .ok () => g' | .error _ => g) g
      (s.writeFile name content) := by
  have hfailed (t : Ticket) (e : FileFault) : KeepsDescribed art f request
      (fun result after => after = match result with | .ok () => g' | .error _ => g) g (do
        let _ ← (FileOp.delete (temporaryName name t)).take
        return .error (.write (s.pathOf name) e) : Filing (Except StoreFailure Unit)) :=
    keepsDescribed_delete hfits (isLasting_manifestName f name t).symm
      (fun format => (isLasting_imageName f format name t).symm) fun _ => keepsDescribed_pure rfl
  refine keepsDescribed_of_sameEntry hfits (fun d t d' hstep => ?_) fun _ t _ _ _ => ?_
  · cases hstep
    exact ⟨rfl, fun _ => rfl⟩
  refine keepsDescribed_of_sameEntry hfits (fun d reply d' hstep => ?_) fun _ reply _ _ hstep => ?_
  · cases hstep
    exact sameEntry_set_temporaryName _ _ _ _
  cases hstep
  intro d reply d' _ _ hkeeps hrelies hstep
  have hstep := hstep.resolve_right And.left
  cases hstep with
  | @rename _ _ bytes hbytes =>
    refine ⟨g', hgains d _ hkeeps hrelies ⟨?_, fun n hn hlasting => ?_⟩, hfits', rfl⟩
    · rw [Folder.content_set_self]
      rfl
    · rw [Folder.content_set_of_ne _ _ hn, Folder.content_set_of_ne _ _ (hlasting name t)]
  | renameNothing =>
    exact ⟨g, passes_of_sameEntry hkeeps hrelies (sameEntry_refl d), hfits, hfailed t _⟩

/-- A store writes two files, one after the other. -/
theorem keepsDescribed_store (s : ArtifactStore) {g : Fingerprint} (a : Artifact)
    {before after : Part} (hbefore : before.Fits f request) (hafter : after.Fits f request)
    (hmanifest : ∀ d d', d.IsDescribed f → before.Relies f d → d.Gains (manifestName g) d' →
      (Accord.described art f).Passes before after d d')
    (himage : ∀ d d', d.IsDescribed f → after.Relies f d → d.Gains (imageName g a.format) d' →
      (Accord.described art f).Passes after after d d') :
    KeepsDescribed art f request (fun _ _ => True) before (s.store g a) := by
  unfold ArtifactStore.store
  split
  · exact keepsDescribed_pure trivial
  · refine keepsDescribed_isFile hbefore fun found => ?_
    cases found with
    | true => exact keepsDescribed_pure trivial
    | false =>
      refine (keepsDescribed_writeFile s _ hbefore hafter hmanifest).bind ?_
      rintro (e | _) mark rfl
      · exact keepsDescribed_pure trivial
      · refine (keepsDescribed_writeFile s _ hafter hafter himage).bind ?_
        rintro (e | _) mark rfl <;> exact keepsDescribed_pure trivial

theorem passes_manifestName {d d' : Folder} (hgains : d.Gains (manifestName f) d') :
    (Accord.described art f).Passes (.storing false) (.storing true) d d' where
  keeps _ _ := hgains.here
  relies _ := hgains.here
  others h hbeside _ := by
    cases h with
    | idle => exact ⟨trivial, trivial⟩
    | storing => exact ⟨fun _ => hgains.here, trivial⟩
    | removing => exact hbeside.elim

theorem passes_imageName {format : ImageFormat} {d d' : Folder}
    (hrelies : (Part.storing true).Relies f d) (hgains : d.Gains (imageName f format) d') :
    (Accord.described art f).Passes (.storing true) (.storing true) d d' := by
  have hmanifest : d'.content (manifestName f) = d.content (manifestName f) :=
    hgains.elsewhere _ (imageName_ne_manifestName f f format).symm (isLasting_manifestName f)
  have hsome : (d'.content (manifestName f)).isSome := hmanifest ▸ hrelies rfl
  refine ⟨fun _ _ => hsome, fun _ => hsome, fun h hbeside _ => ?_⟩
  cases h with
  | idle => exact ⟨trivial, trivial⟩
  | storing => exact ⟨fun _ => hsome, trivial⟩
  | removing => exact hbeside.elim

theorem passes_of_gains {name : String} {g : Part} {d d' : Folder} (hkeeps : d.IsDescribed f)
    (hrelies : g.Relies f d) (hmanifest : name ≠ manifestName f)
    (himage : ∀ format, name ≠ imageName f format) (hgains : d.Gains name d') :
    (Accord.described art f).Passes g g d d' := by
  refine passes_of_sameEntry hkeeps hrelies ⟨?_, fun format => ?_⟩
  · exact hgains.elsewhere _ hmanifest.symm (isLasting_manifestName f)
  · exact hgains.elsewhere _ (himage format).symm (isLasting_imageName f format)

theorem heeds_store (s : ArtifactStore) (g : Fingerprint) (a : Artifact) :
    KeepsDescribed art f (.store g a) (fun _ _ => True) (Part.first f (.store g a))
      (s.store g a) := by
  rw [Part.first_store]
  by_cases hg : g = f
  · subst hg
    rw [if_pos rfl]
    have hfits (described : Bool) : (Part.storing described).Fits g (.store g a) := ⟨a, rfl⟩
    exact keepsDescribed_store s a (hfits false) (hfits true)
      (fun _ _ _ _ hgains => passes_manifestName hgains)
      (fun _ _ _ hrelies hgains => passes_imageName hrelies hgains)
  · rw [if_neg hg]
    -- The files of another fingerprint have names of their own.
    have hfits : Part.idle.Fits f (.store g a) := trivial
    refine keepsDescribed_store s a hfits hfits ?_ ?_
    · intro d d' hkeeps hrelies hgains
      refine passes_of_gains hkeeps hrelies (fun h => hg (manifestName_inj h)) ?_ hgains
      exact fun format h => imageName_ne_manifestName f g format h.symm
    · intro d d' hkeeps hrelies hgains
      refine passes_of_gains hkeeps hrelies (imageName_ne_manifestName g f _) ?_ hgains
      exact fun format h => hg (imageName_inj h).1

theorem keepsDescribed_deleteAll {names : List String}
    (h : ∀ name ∈ names, name ≠ manifestName f ∧ ∀ format, name ≠ imageName f format) :
    KeepsDescribed art f request (fun _ _ => True) .idle (deleteAll names) := by
  induction names with
  | nil => exact keepsDescribed_pure trivial
  | cons name rest ih =>
    obtain ⟨hmanifest, himage⟩ := h name List.mem_cons_self
    exact keepsDescribed_delete trivial hmanifest himage fun _ =>
      ih fun name hname => h name (List.mem_cons_of_mem _ hname)

/-- The images are deleted one after the other, and then the manifest. -/
theorem keepsDescribed_deleteAll_namesOf (formats gone : List ImageFormat)
    (hall : ∀ format, format ∈ formats ∨ format ∈ gone) :
    KeepsDescribed art f (.remove f) (fun _ _ => True) (.removing gone)
      (deleteAll (formats.map (imageName f) ++ [manifestName f])) := by
  induction formats generalizing gone with
  | nil =>
    refine keepsDescribed_delete_manifestName (fun format => ?_) fun _ =>
      keepsDescribed_pure trivial
    exact (hall format).resolve_left List.not_mem_nil
  | cons format rest ih =>
    refine keepsDescribed_delete_imageName fun _ => ih (format :: gone) fun other => ?_
    rcases hall other with hmem | hmem
    · rcases List.mem_cons.mp hmem with rfl | hrest
      · exact .inr List.mem_cons_self
      · exact .inl hrest
    · exact .inr (List.mem_cons_of_mem _ hmem)

theorem heeds_remove (s : ArtifactStore) (g : Fingerprint) :
    KeepsDescribed art f (.remove g) (fun _ _ => True) (Part.first f (.remove g))
      (s.remove g) := by
  rw [Part.first_remove]
  unfold ArtifactStore.remove
  by_cases henabled : s.enabled = true
  · rw [if_pos henabled]
    by_cases hg : g = f
    · subst hg
      rw [if_pos rfl]
      exact keepsDescribed_deleteAll_namesOf _ _ fun format => .inl (by cases format <;> decide)
    · rw [if_neg hg]
      refine keepsDescribed_deleteAll fun name hname => ?_
      rcases List.mem_append.mp hname with himage | hmanifest
      · obtain ⟨format, -, rfl⟩ := List.mem_map.mp himage
        exact ⟨imageName_ne_manifestName g f format, fun other h => hg (imageName_inj h).1⟩
      · rw [List.mem_singleton.mp hmanifest]
        exact ⟨fun h => hg (manifestName_inj h),
          fun format h => imageName_ne_manifestName f g format h.symm⟩
  · rw [if_neg henabled]
    exact keepsDescribed_pure trivial

/-- A look-up removes nothing, because it finds nothing damaged. -/
theorem heeds_load (s : ArtifactStore) {g : Fingerprint}
    (hsize : (art g).image.length < Number.limit64) :
    KeepsDescribed art f (.load g) (fun _ _ => True) .idle (s.load g) := by
  unfold load
  split
  · exact keepsDescribed_pure trivial
  · refine keepsDescribed_read trivial (fun e => keepsDescribed_pure trivial)
      fun written hwritten => ?_
    rw [hwritten.manifest g rfl]
    simp only [Manifest.read?_write_ofArtifact g hsize]
    refine keepsDescribed_read trivial (fun e => keepsDescribed_pure trivial) fun image himage => ?_
    rw [(himage.image g _ rfl).2]
    simp only [Manifest.damage?_ofArtifact]
    exact keepsDescribed_pure trivial

theorem heeds_plain (hsize : ∀ f, (art f).image.length < Number.limit64) (s : ArtifactStore)
    (h : (Sharing.Rules.plain art).allows request) :
    (Accord.described art f).Heeds request (Part.first f request) (request.program s) := by
  cases request with
  | store g a => exact (heeds_store s g a).bind fun _ _ _ => trivial
  | load g => exact (heeds_load s (hsize g)).bind fun _ _ _ => trivial
  | remove g => exact (heeds_remove s g).bind fun _ _ _ => trivial
  | clear => exact absurd rfl h.2

end KernelDepot
