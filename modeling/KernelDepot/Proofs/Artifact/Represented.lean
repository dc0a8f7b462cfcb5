/-
The files of a catalogue.

In a directory where no step fails, whose listing is exact and which nobody else uses, the
files represent a catalogue, each entry by its manifest and its image.  A store answers any
query as the catalogue does, and what it leaves are the files of the catalogue afterwards.
-/
import KernelDepot.Artifact.Catalogue
import KernelDepot.Proofs.Artifact.Written
import Mathlib.Algebra.BigOperators.Group.List.Basic

namespace KernelDepot

open ArtifactStore

namespace KeptFiles

variable {σ : Type} {files : FileHandler σ}

/-- A directory in which every step does what it is asked to.  The names of temporary files are
only good if their tickets were given out by the directory: others may be too long. -/
structure IsReliable (k : KeptFiles files) : Prop extends k.IsObedient where
  write_ok : ∀ x y f name bytes, name ∈ namesOf f →
    (files (.write (temporaryName name (files .ticket y).1) bytes) x).1 = .ok ()
  rename_ok : ∀ x f name t, name ∈ namesOf f → (k.content x (temporaryName name t)).isSome →
    (files (.rename (temporaryName name t) name) x).1 = .ok ()
  list_ok : ∀ x, ∃ names, (files .list x).1 = .ok names ∧ names.Nodup ∧
    ∀ name, name ∈ names ↔ (k.content x name).isSome
  content_list : ∀ x, k.content (files .list x).2 = k.content x
  size_ok : ∀ x name bytes, k.content x name = some bytes →
    (files (.size name) x).1 = .ok bytes.length
  content_size : ∀ x name, Path.IsPlain name → k.content (files (.size name) x).2 = k.content x

variable {k : KeptFiles files} {s : ArtifactStore} {f : Fingerprint} {a : Artifact} {x : σ}

namespace IsReliable

theorem run_writeFile_ok (h : k.IsReliable) (s : ArtifactStore) {name : String} (bytes : Bytes)
    (x : σ) (hname : name ∈ namesOf f) : ((s.writeFile name bytes).run files x).1 = .ok () := by
  have hwrite (y : σ) := h.write_ok y x f name bytes hname
  unfold writeFile FileOp.take
  simp only [Program.run_bind, Program.run_question, hwrite]
  rw [h.rename_ok _ f name _ hname]
  · rfl
  · rw [h.written _ _ _ (isPlain_temporaryName hname _) (hwrite _)]
    rfl

/-- A store writes the artifact exactly if its image is not there yet. -/
theorem run_store_eq (h : k.IsReliable) (he : s.enabled = true) :
    ((s.store f a).run files x).1 = .ok (k.content x (imageName f a.format)).isNone := by
  have hfalse := @IsObedient.run_store_eq_false_iff _ _ k s f a x h.toIsObedient he
  cases himage : k.content x (imageName f a.format) with
  | some bytes => exact hfalse.mpr (by rw [himage]; rfl)
  | none =>
    have hfound : (files (.isFile (imageName f a.format)) x).1 = false := by
      rw [h.isFile_eq _ _ (isPlain_imageName f a.format), himage]
      rfl
    unfold store
    rw [if_neg (not_not.mpr he), run_ite_isFile, hfound, cond_false]
    have hmanifest : manifestName f ∈ namesOf f := mem_namesOf.mpr (.inl rfl)
    have hfile : imageName f a.format ∈ namesOf f := mem_namesOf.mpr (.inr ⟨_, rfl⟩)
    simp only [Program.run_bind, h.run_writeFile_ok s _ _ hmanifest,
      h.run_writeFile_ok s _ _ hfile]
    rfl

theorem isOk_run_store (h : k.IsReliable) (s : ArtifactStore) (f : Fingerprint) (a : Artifact)
    (x : σ) : ((s.store f a).run files x).1.isOk := by
  by_cases he : s.enabled = true
  · rw [h.run_store_eq he]
    rfl
  · unfold store
    rw [if_pos he]
    rfl

theorem run_measure (h : k.IsReliable) {names : List String} {size : String → Nat}
    (hsize : ∀ name ∈ names, ∃ bytes, k.content x name = some bytes ∧ bytes.length = size name) :
    ((ArtifactStore.measure names).run files x).1 = ⟨names.length, (names.map size).sum⟩ ∧
      k.content ((ArtifactStore.measure names).run files x).2 = k.content x := by
  induction names generalizing x with
  | nil => exact ⟨rfl, rfl⟩
  | cons name rest ih =>
    obtain ⟨bytes, hbytes, hlength⟩ := hsize name List.mem_cons_self
    have hkept := h.content_size x name (k.isPlain x name bytes hbytes)
    unfold ArtifactStore.measure FileOp.take
    simp only [Program.run_bind, Program.run_question, Program.run_pure]
    rw [h.size_ok x name bytes hbytes]
    generalize (files (.size name) x).2 = x₁ at hkept ⊢
    obtain ⟨hrest, hcontent⟩ := @ih x₁ fun other ho => by
      rw [hkept]
      exact hsize other (List.mem_cons_of_mem _ ho)
    rw [hrest]
    refine ⟨?_, hcontent.trans hkept⟩
    rw [List.length_cons, List.map_cons, List.sum_cons, ← hlength]
    rfl

end IsReliable

end KeptFiles

/-! ## The files of a catalogue -/

/-- The files represent a catalogue: of each entry the manifest and the image are there, and
apart from temporary files there is nothing else. -/
structure Represents (content : String → Option Bytes) (c : Catalogue) : Prop where
  manifest : ∀ f, content (manifestName f) =
    (c.lookup f).map fun a => (Manifest.ofArtifact f a).write
  image : ∀ f format, content (imageName f format) =
    ((c.lookup f).filter (·.format = format)).map (·.image)
  nothing : ∀ name, IsLasting name → (∀ f, name ∉ namesOf f) → content name = none

/-- There is one format for each fingerprint, and the size of an image fits into a manifest. -/
def Artifact.IsRegular (formats : Fingerprint → ImageFormat) (f : Fingerprint) (a : Artifact) :
    Prop :=
  a.format = formats f ∧ a.image.length < Number.limit64

def Catalogue.IsRegular (formats : Fingerprint → ImageFormat) (c : Catalogue) : Prop :=
  ∀ f a, c.lookup f = some a → a.IsRegular formats f

namespace Represents

open KeptFiles

variable {content before after : String → Option Bytes} {c : Catalogue} {f : Fingerprint}
  {a : Artifact} {formats : Fingerprint → ImageFormat}

theorem empty (h : ∀ name, content name = none) : Represents content ∅ where
  manifest _ := h _
  image _ _ := h _
  nothing name _ _ := h name

/-- Representing is about lasting names only. -/
theorem congr (h : Represents before c) (heq : ∀ name, IsLasting name → after name = before name) :
    Represents after c where
  manifest f := (heq _ (isLasting_manifestName f)).trans (h.manifest f)
  image f format := (heq _ (isLasting_imageName f format)).trans (h.image f format)
  nothing name hname hnone := (heq name hname).trans (h.nothing name hname hnone)

theorem holds (h : Represents content c) (ha : c.lookup f = some a) : Holds content f a where
  manifest := by rw [h.manifest, ha, Option.map_some]
  image := by rw [h.image, ha, Option.filter_some, if_pos (decide_eq_true rfl), Option.map_some]

theorem image_eq_none_iff (h : Represents content c) (hc : c.IsRegular formats) :
    content (imageName f (formats f)) = none ↔ c.lookup f = none := by
  rw [h.image]
  cases hf : c.lookup f with
  | none => exact ⟨fun _ => rfl, fun _ => rfl⟩
  | some a =>
    rw [Option.filter_some, if_pos (decide_eq_true (hc f a hf).1)]
    exact ⟨nofun, nofun⟩

theorem insert (h : Represents before c) (hf : c.lookup f = none)
    (hstores : Stores f a before after (.ok true)) : Represents after (c.insert f a) := by
  obtain ⟨hmanifest, himage, hrest⟩ :
      after (manifestName f) = some (Manifest.ofArtifact f a).write ∧
      after (imageName f a.format) = some a.image ∧
      ∀ name, IsLasting name → name ≠ manifestName f → name ≠ imageName f a.format →
        after name = before name := by
    cases hstores with
    | wrote hmanifest himage hrest => exact ⟨hmanifest, himage, hrest⟩
  constructor
  · intro g
    by_cases hg : g = f
    · rw [hg, hmanifest, AList.lookup_insert, Option.map_some]
    · rw [hrest _ (isLasting_manifestName g) (fun he => hg (manifestName_inj he))
        (imageName_ne_manifestName f g _).symm, h.manifest, AList.lookup_insert_ne hg]
  · intro g format
    by_cases hg : g = f
    · subst hg
      rw [AList.lookup_insert, Option.filter_some]
      by_cases hformat : a.format = format
      · rw [if_pos (decide_eq_true hformat), Option.map_some, ← hformat, himage]
      · rw [if_neg (by simpa using hformat), hrest _ (isLasting_imageName g format)
          (imageName_ne_manifestName g g format) (fun he => hformat (imageName_inj he).2.symm),
          h.image, hf]
        rfl
    · rw [hrest _ (isLasting_imageName g format) (imageName_ne_manifestName g f format)
        (fun he => hg (imageName_inj he).1), h.image, AList.lookup_insert_ne hg]
  · intro name hname hnone
    have hnames := mt mem_namesOf.mpr (hnone f)
    rw [not_or, not_exists] at hnames
    rw [hrest name hname hnames.1 (hnames.2 _)]
    exact h.nothing name hname hnone

theorem erase (h : Represents before c)
    (hafter : ∀ name, after name = if name ∈ namesOf f then none else before name) :
    Represents after (c.erase f) := by
  constructor
  · intro g
    rw [hafter]
    by_cases hg : g = f
    · rw [hg, if_pos (mem_namesOf.mpr (.inl rfl)), AList.lookup_erase]
      rfl
    · rw [if_neg, h.manifest, AList.lookup_erase_ne hg]
      rw [mem_namesOf]
      rintro (he | ⟨format, he⟩)
      · exact hg (manifestName_inj he)
      · exact imageName_ne_manifestName f g format he.symm
  · intro g format
    rw [hafter]
    by_cases hg : g = f
    · rw [hg, if_pos (mem_namesOf.mpr (.inr ⟨format, rfl⟩)), AList.lookup_erase]
      rfl
    · rw [if_neg, h.image, AList.lookup_erase_ne hg]
      rw [mem_namesOf]
      rintro (he | ⟨format', he⟩)
      · exact imageName_ne_manifestName g f format he
      · exact hg (imageName_inj he).1
  · intro name hname hnone
    rw [hafter, if_neg (hnone f)]
    exact h.nothing name hname hnone

/-- What is there belongs to an entry, or is a temporary file. -/
theorem isStoreName (h : Represents content c) {name : String} (hname : IsLasting name)
    (hsome : (content name).isSome) : isStoreName name = true := by
  by_cases hnone : ∀ f, name ∉ namesOf f
  · rw [h.nothing name hname hnone] at hsome
    exact absurd hsome Bool.false_ne_true
  · obtain ⟨f, hf⟩ := not_forall_not.mp hnone
    rcases mem_namesOf.mp hf with rfl | ⟨format, rfl⟩
    · exact isStoreName_manifestName f
    · exact isStoreName_imageName f format

/-- The images that are there are those of the entries. -/
theorem mem_images_iff (h : Represents content c) {name : String} :
    (content name).isSome ∧ isImageName name = true ↔
      ∃ f a, c.lookup f = some a ∧ name = imageName f a.format := by
  constructor
  · rintro ⟨hsome, himage⟩
    have hlasting : IsLasting name := by
      rintro other t rfl
      rw [isImageName_temporaryName] at himage
      exact Bool.false_ne_true himage
    by_cases hnone : ∀ f, name ∉ namesOf f
    · rw [h.nothing name hlasting hnone] at hsome
      exact absurd hsome Bool.false_ne_true
    · obtain ⟨f, hf⟩ := not_forall_not.mp hnone
      rcases mem_namesOf.mp hf with rfl | ⟨format, rfl⟩
      · rw [isImageName_manifestName] at himage
        exact absurd himage Bool.false_ne_true
      · rw [h.image] at hsome
        cases hf : c.lookup f with
        | none =>
          rw [hf] at hsome
          exact absurd hsome Bool.false_ne_true
        | some a =>
          rw [hf, Option.filter_some] at hsome
          by_cases hformat : a.format = format
          · exact ⟨f, a, hf, by rw [hformat]⟩
          · rw [if_neg (by simpa using hformat)] at hsome
            exact absurd hsome Bool.false_ne_true
  · rintro ⟨f, a, hf, rfl⟩
    exact ⟨by rw [(h.holds hf).image]; rfl, isImageName_imageName f a.format⟩

end Represents

/-! ## One query -/

/-- A store answers a query as the catalogue does, and leaves the files of the catalogue. -/
def ArtifactStore.Obeys {σ : Type} {files : FileHandler σ} (s : ArtifactStore)
    (k : KeptFiles files) (x : σ) (c : Catalogue) (q : StoreQuery) : Prop :=
  ((q.program s).run files x).1 = (c.answer q).1 ∧
    Represents (k.content ((q.program s).run files x).2) (c.answer q).2

namespace Represents

variable {σ : Type} {files : FileHandler σ} {k : KeptFiles files} {s : ArtifactStore} {x : σ}
  {c : Catalogue} {formats : Fingerprint → ImageFormat} {f : Fingerprint} {a : Artifact}

variable (hr : Represents (k.content x) c) (h : k.IsReliable) (he : s.enabled = true)
include hr h he

theorem obeys_store (hc : c.IsRegular formats) (ha : a.IsRegular formats f) :
    s.Obeys k x c (.request (.store f a)) := by
  have hrun := @KeptFiles.IsReliable.run_store_eq _ _ k s f a x h he
  have hstores := h.run_store s f a x
  have himage := hr.image_eq_none_iff hc (f := f)
  rw [← ha.1] at himage
  unfold Obeys StoreQuery.program StoreRequest.program
  simp only [Program.run_bind, Program.run_pure]
  rw [hrun] at hstores ⊢
  cases hf : c.lookup f with
  | none =>
    rw [Catalogue.answer_store_of_none a hf]
    rw [himage.mpr hf, Option.isNone_none] at hstores ⊢
    exact ⟨rfl, hr.insert hf hstores⟩
  | some present =>
    have hsome : (k.content x (imageName f a.format)).isNone = false := by
      rw [Option.isNone_eq_false_iff, Option.isSome_iff_ne_none]
      intro hnone
      exact nomatch hf.symm.trans (himage.mp hnone)
    rw [Catalogue.answer_store_of_some a hf]
    rw [hsome] at hstores ⊢
    cases hstores with
    | kept hkept => exact ⟨rfl, hr.congr hkept⟩

theorem obeys_load (hc : c.IsRegular formats) : s.Obeys k x c (.request (.load f)) := by
  have hload : ((s.load f).run files x).1 = .ok (c.lookup f) ∧
      k.content ((s.load f).run files x).2 = k.content x := by
    cases hf : c.lookup f with
    | none =>
      refine h.run_load_of_missing s ?_
      rw [hr.manifest, hf, Option.map_none]
    | some a => exact k.run_load_of_some ((hr.holds hf).stored?_eq he (hc f a hf).2)
  unfold Obeys StoreQuery.program StoreRequest.program Catalogue.answer
  simp only [Program.run_bind, Program.run_pure]
  rw [hload.1, hload.2]
  exact ⟨rfl, hr⟩

theorem obeys_contains : s.Obeys k x c (.contains f) := by
  have hfound : ((s.contains f).run files x).1 = (c.lookup f).isSome := by
    rw [Bool.eq_iff_iff, h.run_contains_iff he]
    constructor
    · rintro ⟨format, hsome⟩
      rw [hr.image] at hsome
      cases hf : c.lookup f with
      | none =>
        rw [hf] at hsome
        exact absurd hsome Bool.false_ne_true
      | some a => rfl
    · intro hsome
      obtain ⟨a, hf⟩ := Option.isSome_iff_exists.mp hsome
      refine ⟨a.format, ?_⟩
      rw [(hr.holds hf).image]
      rfl
  have hkept := k.content_contains s f x
  unfold Obeys StoreQuery.program Catalogue.answer
  simp only [Program.run_bind, Program.run_pure]
  rw [hfound, hkept]
  exact ⟨rfl, hr⟩

theorem obeys_remove : s.Obeys k x c (.request (.remove f)) := by
  unfold Obeys StoreQuery.program StoreRequest.program Catalogue.answer remove
  simp only [he, if_true, Program.run_bind, Program.run_pure]
  exact ⟨trivial, hr.erase fun name =>
    h.content_run_deleteAll (fun _ => isPlain_of_mem_namesOf) x name⟩

theorem obeys_clear : s.Obeys k x c (.request .clear) := by
  obtain ⟨names, hnames, -, hmem⟩ := h.list_ok x
  have hkept := h.content_list x
  unfold Obeys StoreQuery.program StoreRequest.program Catalogue.answer clear FileOp.take
  simp only [he, not_true, if_false, Program.run_bind, Program.run_question, hnames]
  refine ⟨rfl, (Represents.empty fun _ => rfl).congr fun name hname => ?_⟩
  simp only [Program.run_pure]
  have hplain : ∀ name ∈ names.filter ArtifactStore.isStoreName, Path.IsPlain name :=
    fun name hname => k.isPlain_of_isSome ((hmem name).mp (List.mem_of_mem_filter hname))
  rw [h.content_run_deleteAll hplain, hkept]
  cases hcontent : k.content x name with
  | none => exact ite_self _
  | some bytes =>
    have hsome : (k.content x name).isSome := by rw [hcontent]; rfl
    exact if_pos (List.mem_filter.mpr ⟨(hmem name).mpr hsome, hr.isStoreName hname hsome⟩)

theorem run_stats : ((s.stats).run files x).1 = c.size ∧
    k.content ((s.stats).run files x).2 = k.content x := by
  obtain ⟨names, hnames, hnodup, hmem⟩ := h.list_ok x
  have hkept := h.content_list x
  have hinj : ∀ d ∈ c.entries, ∀ e ∈ c.entries,
      imageName d.1 d.2.format = imageName e.1 e.2.format → d = e := fun d hd e he' heq =>
    c.nodupKeys.eq_of_fst_eq hd he' (imageName_inj heq).1
  -- the images in the listing are those of the entries, in some order
  have hperm : (names.filter isImageName).Perm
      (c.entries.map fun e => imageName e.1 e.2.format) := by
    refine (List.perm_ext_iff_of_nodup (hnodup.filter _)
      (c.nodupKeys.nodup.map_on hinj)).mpr fun name => ?_
    rw [List.mem_filter, hmem, hr.mem_images_iff, List.mem_map]
    constructor
    · rintro ⟨f, a, hf, rfl⟩
      exact ⟨⟨f, a⟩, AList.mem_lookup_iff.mp hf, rfl⟩
    · rintro ⟨⟨f, a⟩, hentry, rfl⟩
      exact ⟨f, a, AList.mem_lookup_iff.mpr hentry, rfl⟩
  have hmeasure := @KeptFiles.IsReliable.run_measure _ _ k (files .list x).2 h
    (names.filter isImageName) (fun name => (k.content x name).elim 0 List.length)
    fun name hname => by
      obtain ⟨bytes, hbytes⟩ := Option.isSome_iff_exists.mp
        ((hmem name).mp (List.mem_of_mem_filter hname))
      exact ⟨bytes, by rw [hkept, hbytes], by rw [hbytes]; rfl⟩
  have hsum : ((names.filter isImageName).map fun name =>
      (k.content x name).elim 0 List.length).sum =
        (c.entries.map fun e => e.2.image.length).sum := by
    rw [(hperm.map _).sum_eq, List.map_map]
    refine congrArg List.sum (List.map_congr_left fun e hentry => ?_)
    have hlookup : c.lookup e.1 = some e.2 := AList.mem_lookup_iff.mpr hentry
    show (k.content x (imageName e.1 e.2.format)).elim 0 List.length = _
    rw [(hr.holds hlookup).image]
    rfl
  unfold stats FileOp.take
  simp only [he, not_true, if_false, Program.run_bind, Program.run_question, hnames]
  rw [hmeasure.1, hsum, hperm.length_eq, List.length_map]
  exact ⟨rfl, hmeasure.2.trans hkept⟩

theorem obeys_stats : s.Obeys k x c .stats := by
  have hrun := hr.run_stats h he
  unfold Obeys StoreQuery.program Catalogue.answer
  simp only [Program.run_bind, Program.run_pure]
  rw [hrun.1, hrun.2]
  exact ⟨rfl, hr⟩

end Represents
end KernelDepot
