/-
Images that a look-up overlooks.

A look-up starts from the manifest, a store from the image.  An image is overlooked if its
format is not the one that a manifest leads to: there is no manifest, or there is one that
can be read and names another format of which there is no image.  Such a look-up misses and
removes nothing, and a store finds the image and writes nothing, so both may be repeated for
ever.  Every other miss removes whatever there was of the entry.
-/
import KernelDepot.Proofs.Artifact.Written

namespace KernelDepot

open ArtifactStore

namespace ArtifactStore

/-- An image is there that a look-up does not come to, and nothing else makes the look-up
remove it. -/
structure IsOverlooked (content : String → Option Bytes) (f : Fingerprint) (format : ImageFormat) :
    Prop where
  image : (content (imageName f format)).isSome
  manifest : ∀ written, content (manifestName f) = some written →
    ∃ m, Manifest.read? written = some m ∧ content (imageName f m.format) = none

theorem IsOverlooked.congr {before after : String → Option Bytes} {f : Fingerprint}
    {format : ImageFormat} (h : IsOverlooked before f format)
    (hsame : ∀ name ∈ namesOf f, after name = before name) : IsOverlooked after f format where
  image := by
    rw [hsame _ (mem_namesOf.mpr (.inr ⟨format, rfl⟩))]
    exact h.image
  manifest written hwritten := by
    rw [hsame _ (mem_namesOf.mpr (.inl rfl))] at hwritten
    obtain ⟨m, hm, himage⟩ := h.manifest written hwritten
    exact ⟨m, hm, (hsame _ (mem_namesOf.mpr (.inr ⟨m.format, rfl⟩))).trans himage⟩

/-- What a look-up that finds nothing leaves of an entry: the overlooked images, with
everything as it was, or nothing at all. -/
structure Missed (f : Fingerprint) (before after : String → Option Bytes) : Prop where
  image_iff : ∀ format, (after (imageName f format)).isSome ↔ IsOverlooked before f format
  names : (∀ name ∈ namesOf f, after name = before name) ∨ ∀ name ∈ namesOf f, after name = none

namespace Missed

variable {f : Fingerprint} {before after : String → Option Bytes}

theorem of_eq (h : after = before)
    (himages : ∀ format, (before (imageName f format)).isSome → IsOverlooked before f format) :
    Missed f before after where
  image_iff format := by
    rw [h]
    exact ⟨himages format, IsOverlooked.image⟩
  names := .inl fun name _ => congrFun h name

theorem of_gone (h : ∀ name ∈ namesOf f, after name = none)
    (hnot : ∀ format, ¬ IsOverlooked before f format) : Missed f before after where
  image_iff format := by
    rw [h _ (mem_namesOf.mpr (.inr ⟨format, rfl⟩))]
    exact ⟨fun hsome => absurd hsome Bool.false_ne_true, fun ho => absurd ho (hnot format)⟩
  names := .inr h

/-- A manifest that leads to an image overlooks none. -/
theorem of_image {written image : Bytes} {m : Manifest} (h : ∀ name ∈ namesOf f, after name = none)
    (hwritten : before (manifestName f) = some written) (hm : Manifest.read? written = some m)
    (himage : before (imageName f m.format) = some image) : Missed f before after := by
  refine of_gone h fun format ho => ?_
  obtain ⟨m', hm', hnone⟩ := ho.manifest written hwritten
  obtain rfl := Option.some.inj (hm.symm.trans hm')
  exact nomatch himage.symm.trans hnone

theorem of_stored? {s : ArtifactStore} {a : Artifact} (hstored : s.stored? before f = some a)
    (h : ∀ name ∈ namesOf f, after name = none) : Missed f before after := by
  obtain ⟨-, written, m, image, hwritten, hm, himage, -⟩ := exists_of_stored? hstored
  exact of_image h hwritten hm himage

end Missed
end ArtifactStore

namespace KeptFiles.IsObedient

variable {σ : Type} {files : FileHandler σ} {k : KeptFiles files} {s : ArtifactStore}
  {f : Fingerprint} {x : σ}

theorem content_run_remove (h : k.IsObedient) (he : s.enabled = true) {name : String}
    (hname : name ∈ namesOf f) : k.content ((s.remove f).run files x).2 name = none := by
  unfold remove
  rw [if_pos he, h.content_run_deleteAll (fun _ => isPlain_of_mem_namesOf), if_pos hname]

theorem content_run_discard (h : k.IsObedient) (he : s.enabled = true) (damage : Damage)
    (file : String) {name : String} (hname : name ∈ namesOf f) :
    k.content ((s.discard f file damage).run files x).2 name = none := by
  unfold ArtifactStore.discard
  rw [Program.run_bind]
  exact h.content_run_remove he hname

theorem missed_load (h : k.IsObedient) (he : s.enabled = true)
    (hnone : s.stored? (k.content x) f = none) :
    Missed f (k.content x) (k.content ((s.load f).run files x).2) := by
  cases hwritten : k.content x (manifestName f) with
  | none =>
    refine .of_eq (h.run_load_of_missing s hwritten).2 fun format himage => ⟨himage, ?_⟩
    exact fun written hsome => nomatch hwritten.symm.trans hsome
  | some written =>
    have hread := k.read_some x _ written hwritten
    have hkept := k.content_read x _ (isPlain_manifestName f)
    unfold load FileOp.take
    simp only [he, not_true, if_false, Program.run_bind, Program.run_question, hread]
    generalize (files (.read (manifestName f)) x).2 = x₁ at hkept ⊢
    cases hm : Manifest.read? written with
    | none =>
      have hnot (format : ImageFormat) : ¬ IsOverlooked (k.content x) f format := fun ho => by
        obtain ⟨m, hsome, -⟩ := ho.manifest written hwritten
        exact nomatch hm.symm.trans hsome
      have hcontains := (k.content_contains s f x₁).trans hkept
      have hfound : ((s.contains f).run files x₁).1 =
          ImageFormat.all.any fun format => (k.content x (imageName f format)).isSome := by
        rw [h.run_contains he, hkept]
      simp only [Program.run_bind]
      generalize (s.contains f).run files x₁ = found at hcontains hfound ⊢
      obtain ⟨found, x₂⟩ := found
      cases found with
      | true => exact .of_gone (fun name hname => h.content_run_discard he _ _ hname) hnot
      | false =>
        refine .of_eq hcontains fun format himage => ?_
        have hany := List.any_eq_false.mp hfound.symm format (by cases format <;> decide)
        exact absurd himage hany
    | some m =>
      have hkept₁ := (k.content_read x₁ _ (isPlain_imageName f m.format)).trans hkept
      simp only [Program.run_bind, Program.run_question]
      cases himage : k.content x (imageName f m.format) with
      | none =>
        rw [h.read_missing x₁ f _ (mem_namesOf.mpr (.inr ⟨_, rfl⟩)) (hkept ▸ himage)]
        refine .of_eq hkept₁ fun format hsome => ⟨hsome, fun written' hwritten' => ?_⟩
        obtain rfl := Option.some.inj (hwritten.symm.trans hwritten')
        exact ⟨m, hm, himage⟩
      | some image =>
        rw [k.read_some x₁ _ image (hkept ▸ himage)]
        cases hdamage : m.damage? f image with
        | some damage =>
          simp only [hdamage]
          exact .of_image (fun name hname => h.content_run_discard he _ _ hname) hwritten hm himage
        | none =>
          simp [stored?, he, hwritten, hm, himage, hdamage] at hnone

/-- A look-up passes an overlooked image by. -/
theorem run_load_of_isOverlooked (h : k.IsObedient) (he : s.enabled = true) {format : ImageFormat}
    (ho : IsOverlooked (k.content x) f format) : ((s.load f).run files x).1 = .ok none := by
  cases hwritten : k.content x (manifestName f) with
  | none => exact (h.run_load_of_missing s hwritten).1
  | some written =>
    obtain ⟨m, hm, himage⟩ := ho.manifest written hwritten
    have hread := k.read_some x _ written hwritten
    have hkept := k.content_read x _ (isPlain_manifestName f)
    unfold load FileOp.take
    simp only [he, not_true, if_false, Program.run_bind, Program.run_question, hread, hm]
    rw [h.read_missing _ f _ (mem_namesOf.mpr (.inr ⟨_, rfl⟩)) (hkept ▸ himage)]
    rfl

/-- What a look-up has missed and a store was then asked to keep is found, unless there is an
image that the look-up overlooks and the store takes for its own. -/
theorem run_load_run_store (h : k.IsObedient) (he : s.enabled = true) {a : Artifact}
    (hsize : a.image.length < Number.limit64) {before : String → Option Bytes}
    (hmissed : Missed f before (k.content x)) (hok : ((s.store f a).run files x).1.isOk) {y : σ}
    (hy : k.content y = k.content ((s.store f a).run files x).2) :
    (IsOverlooked before f a.format → ((s.load f).run files y).1 = .ok none ∧
      ∀ name ∈ namesOf f, k.content y name = before name) ∧
    (¬ IsOverlooked before f a.format → s.stored? (k.content y) f = some a) := by
  have hstores := h.toIsOrderly.run_store s f a x
  have hfalse := (h.run_store_eq_false_iff (f := f) (a := a) (x := x) he).trans
    (hmissed.image_iff a.format)
  rw [← hy] at hstores
  generalize ((s.store f a).run files x).1 = wrote at hok hstores hfalse
  cases hstores with
  | kept hkept =>
    have ho : IsOverlooked before f a.format := hfalse.mp rfl
    have hsame : ∀ name ∈ namesOf f, k.content x name = before name := by
      refine hmissed.names.resolve_right fun hnone => ?_
      have himage := (hmissed.image_iff a.format).mpr ho
      rw [hnone _ (mem_namesOf.mpr (.inr ⟨_, rfl⟩))] at himage
      exact absurd himage Bool.false_ne_true
    have hnames : ∀ name ∈ namesOf f, k.content y name = before name := fun name hname =>
      (hkept name (isLasting_of_mem_namesOf hname)).trans (hsame name hname)
    exact ⟨fun _ => ⟨h.run_load_of_isOverlooked he (ho.congr hnames), hnames⟩, fun hnot =>
      absurd ho hnot⟩
  | wrote hmanifest himage hrest =>
    have hholds : Holds (k.content y) f a := ⟨hmanifest, himage⟩
    exact ⟨fun ho => (nomatch hfalse.mpr ho), fun _ => hholds.stored?_eq he hsize⟩
  | failed e hmanifest hrest => exact absurd hok Bool.false_ne_true

end KeptFiles.IsObedient
end KernelDepot
