/-
Damage to an entry.

The manifest vouches for the image by its length and its digest, and nothing vouches for the
manifest but that it can be read.  If the image is replaced by another one, or the manifest by
something that cannot be read, the next look-up finds the damage, says which file has it, and
removes all files of the entry.  The entry is then like one that was never there, so it can be
stored again.  All this is done to the files of one fingerprint, and those of another are
never touched.
-/
import KernelDepot.Proofs.Artifact.Overlooked
import KernelDepot.Proofs.Artifact.Separate
import Mathlib.Logic.Function.Basic

namespace KernelDepot

open ArtifactStore

namespace KeptFiles

/-! ## Finding the damage -/

/-- One file of an entry was replaced: the image by another one, or the manifest by something
that is none. -/
inductive Damages (f : Fingerprint) (a : Artifact) (before after : String → Option Bytes) :
    String → Prop where
  | image {bytes : Bytes} (hne : bytes ≠ a.image)
    (hafter : after = Function.update before (imageName f a.format) (some bytes)) :
    Damages f a before after (imageName f a.format)
  | manifest {bytes : Bytes} (hnone : Manifest.read? bytes = none)
    (hafter : after = Function.update before (manifestName f) (some bytes)) :
    Damages f a before after (manifestName f)

/-- What is in the place of the image and has its digest is the image: there is no collision. -/
def Distinguishes (content : String → Option Bytes) (f : Fingerprint) (a : Artifact) : Prop :=
  ∀ bytes, content (imageName f a.format) = some bytes →
    Sha256.digest bytes = Sha256.digest a.image → bytes = a.image

end KeptFiles

theorem Manifest.damage?_of_ne (f : Fingerprint) {a : Artifact} {bytes : Bytes}
    (hdigest : Sha256.digest bytes ≠ Sha256.digest a.image) :
    ∃ damage, (Manifest.ofArtifact f a).damage? f bytes = some damage := by
  have hne : (Manifest.ofArtifact f a).imageDigest ≠ Manifest.digestOf bytes := fun heq =>
    hdigest (Hex.encode_injective (String.ofList_injective heq)).symm
  unfold Manifest.damage?
  rw [if_neg fun hversion => hversion rfl, if_neg fun hforeign => hforeign rfl, if_pos hne]
  split
  · exact ⟨_, rfl⟩
  · exact ⟨_, rfl⟩

namespace KeptFiles

variable {s : ArtifactStore} {f : Fingerprint} {a : Artifact}
  {before after : String → Option Bytes} {file : String}

namespace Damages

theorem eq_of_ne (h : Damages f a before after file) {name : String} (hname : name ≠ file) :
    after name = before name := by
  cases h with
  | image hne hafter => rw [hafter, Function.update_of_ne hname]
  | manifest hnone hafter => rw [hafter, Function.update_of_ne hname]

theorem mem_namesOf (h : Damages f a before after file) : file ∈ namesOf f := by
  cases h with
  | image => exact ArtifactStore.mem_namesOf.mpr (.inr ⟨_, rfl⟩)
  | manifest => exact ArtifactStore.mem_namesOf.mpr (.inl rfl)

theorem isSome_image (h : Damages f a before after file) (hholds : Holds before f a) :
    (after (imageName f a.format)).isSome := by
  cases h with
  | image hne hafter =>
    rw [hafter, Function.update_self]
    rfl
  | manifest hnone hafter =>
    rw [hafter, Function.update_of_ne (imageName_ne_manifestName f f _), hholds.image]
    rfl

/-- A look-up says which file is damaged. -/
theorem lookUp_eq (h : Damages f a before after file) (hholds : Holds before f a)
    (he : s.enabled = true) (hsize : a.image.length < Number.limit64)
    (hsha : Distinguishes after f a) :
    ∃ damage, s.lookUp after f = .error (.damaged (s.pathOf file) damage) := by
  have himage := h.isSome_image hholds
  unfold lookUp
  rw [if_neg (not_not.mpr he)]
  cases h with
  | @image bytes hne hafter =>
    have hmanifest : after (manifestName f) = some (Manifest.ofArtifact f a).write := by
      rw [hafter, Function.update_of_ne (imageName_ne_manifestName f f _).symm, hholds.manifest]
    have hbytes : after (imageName f (Manifest.ofArtifact f a).format) = some bytes := by
      rw [hafter]
      exact Function.update_self ..
    obtain ⟨damage, hdamage⟩ := Manifest.damage?_of_ne f fun heq => hne (hsha bytes hbytes heq)
    refine ⟨damage, ?_⟩
    rw [hmanifest]
    simp only [Manifest.read?_write_ofArtifact f hsize]
    rw [hbytes]
    simp only [hdamage]
    rfl
  | @manifest bytes hnone hafter =>
    have hmanifest : after (manifestName f) = some bytes := by
      rw [hafter, Function.update_self]
    refine ⟨.manifest, ?_⟩
    rw [hmanifest]
    simp only [hnone]
    rw [if_pos]
    exact List.any_eq_true.mpr ⟨a.format, by cases a.format <;> decide, himage⟩

end Damages
end KeptFiles

/-! ## Mending an entry -/

namespace StoreQuery

/-- Ask for an entry until it is known to be gone, store it again and ask for it. -/
def mending (f : Fingerprint) (a : Artifact) : List StoreQuery :=
  [.request (.load f), .contains f, .request (.load f), .request (.store f a), .request (.load f)]

theorem concerns_mending {f g : Fingerprint} {a : Artifact} (hne : g ≠ f) :
    ∀ q ∈ mending f a, q.concerns g = false := by
  have hf : decide (f = g) = false := decide_eq_false (Ne.symm hne)
  intro q hq
  simp only [mending, List.mem_cons, List.not_mem_nil, or_false] at hq
  rcases hq with rfl | rfl | rfl | rfl | rfl
  all_goals exact hf

end StoreQuery

namespace KeptFiles

variable {σ : Type} {files : FileHandler σ} {k : KeptFiles files} {s : ArtifactStore}
  {f : Fingerprint} {a : Artifact} {x y : σ} {file : String}

namespace IsObedient

/-- A look-up that finds damage leaves no file of the entry. -/
theorem content_run_load_of_damaged (h : k.IsObedient) (he : s.enabled = true)
    {format : ImageFormat} (himage : (k.content x (imageName f format)).isSome)
    {failure : StoreFailure} (hload : ((s.load f).run files x).1 = .error failure) :
    ∀ name ∈ namesOf f, k.content ((s.load f).run files x).2 name = none := by
  have hnone : s.stored? (k.content x) f = none := by
    cases hstored : s.stored? (k.content x) f with
    | none => rfl
    | some b => exact nomatch hload.symm.trans (k.run_load_of_some hstored).1
  have hmissed := h.missed_load he hnone
  refine hmissed.names.resolve_left fun hsame => ?_
  have hoverlooked : IsOverlooked (k.content x) f format := by
    rw [← hmissed.image_iff, hsame _ (mem_namesOf.mpr (.inr ⟨format, rfl⟩))]
    exact himage
  exact nomatch hload.symm.trans (h.run_load_of_isOverlooked he hoverlooked)

end IsObedient

theorem IsOrderly.holds_of_run_store (h : k.IsOrderly)
    (hstored : ((s.store f a).run files x).1 = .ok true) :
    Holds (k.content ((s.store f a).run files x).2) f a := by
  have hstores := h.run_store s f a x
  rw [hstored] at hstores
  cases hstores with
  | wrote hmanifest himage hrest => exact ⟨hmanifest, himage⟩

namespace IsReliable

/-- An entry of which no file is there is missed, and can be stored and found again. -/
theorem perform_of_gone (h : k.IsReliable) (he : s.enabled = true)
    (hsize : a.image.length < Number.limit64)
    (hgone : ∀ name ∈ namesOf f, k.content x name = none) :
    ((s.perform [.contains f, .request (.load f), .request (.store f a),
      .request (.load f)]).run files x).1 = [.contained false, .reply (.loaded (.ok none)),
        .reply (.stored (.ok true)), .reply (.loaded (.ok (some a)))] := by
  have himage (format : ImageFormat) := hgone _ (mem_namesOf.mpr (.inr ⟨format, rfl⟩))
  have hcontains : ((s.contains f).run files x).1 = false := by
    rw [h.run_contains he, List.any_eq_false]
    intro format hformat
    rw [himage]
    exact Bool.false_ne_true
  have hkept := k.content_contains s f x
  simp only [perform, StoreQuery.program, StoreRequest.program, Program.run_bind, Program.run_pure]
  rw [hcontains]
  generalize ((s.contains f).run files x).2 = x₁ at hkept ⊢
  have hmissing : k.content x₁ (manifestName f) = none := by
    rw [hkept]
    exact hgone _ (mem_namesOf.mpr (.inl rfl))
  obtain ⟨hload, hkept₁⟩ := h.run_load_of_missing s hmissing
  rw [hload]
  generalize ((s.load f).run files x₁).2 = x₂ at hkept₁ ⊢
  have hstored : ((s.store f a).run files x₂).1 = .ok true := by
    rw [h.run_store_eq he, hkept₁, hkept, himage]
    rfl
  have hholds := h.toIsOrderly.holds_of_run_store hstored
  rw [hstored, (k.run_load_of_some (hholds.stored?_eq he hsize)).1]

/-- Damage to a stored entry is found by the next look-up, which removes the entry; it can be
stored again, and meanwhile nothing happens to other fingerprints. -/
theorem perform_mending (h : k.IsReliable) (he : s.enabled = true)
    (hsize : a.image.length < Number.limit64)
    (hstored : ((s.store f a).run files x).1 = .ok true)
    (hdamage : Damages f a (k.content ((s.store f a).run files x).2) (k.content y) file)
    (hsha : Distinguishes (k.content y) f a) :
    (∃ damage, ((s.perform (StoreQuery.mending f a)).run files y).1 =
      [.reply (.loaded (.error (.damaged (s.pathOf file) damage))), .contained false,
        .reply (.loaded (.ok none)), .reply (.stored (.ok true)),
        .reply (.loaded (.ok (some a)))]) ∧
    (∀ name ∈ namesOf f, k.content ((s.load f).run files y).2 name = none) ∧
    ∀ g, g ≠ f →
      ((s.load g).run files ((s.store f a).run files x).2).1 = ((s.load g).run files x).1 ∧
      ∀ qs, qs <+: StoreQuery.mending f a →
        ((s.load g).run files ((s.perform qs).run files y).2).1 = ((s.load g).run files x).1 := by
  have hholds := h.toIsOrderly.holds_of_run_store hstored
  obtain ⟨damage, hlookUp⟩ := hdamage.lookUp_eq hholds he hsize hsha
  have hload := (h.run_load_eq_lookUp s f y).trans hlookUp
  have hgone := h.content_run_load_of_damaged he (hdamage.isSome_image hholds) hload
  refine ⟨⟨damage, ?_⟩, hgone, fun g hne => ?_⟩
  · have hrest := h.perform_of_gone he hsize hgone
    unfold StoreQuery.mending perform
    simp only [StoreQuery.program, StoreRequest.program, Program.run_bind, Program.run_pure]
    rw [hload]
    exact congrArg _ hrest
  · have hstore : ∀ name ∈ namesOf g, k.content ((s.store f a).run files x).2 name =
        k.content x name := fun name hname =>
      h.content_run_store_of_not_mem s a x (isLasting_of_mem_namesOf hname)
        (not_mem_namesOf hne hname)
    have hbefore : ((s.load g).run files ((s.store f a).run files x).2).1 =
        ((s.load g).run files x).1 := by
      rw [h.run_load_eq_lookUp, h.run_load_eq_lookUp, lookUp_congr s hstore]
    have hdamaged : ((s.load g).run files y).1 =
        ((s.load g).run files ((s.store f a).run files x).2).1 := by
      rw [h.run_load_eq_lookUp, h.run_load_eq_lookUp]
      exact lookUp_congr s fun name hname => hdamage.eq_of_ne fun heq =>
        not_mem_namesOf hne hname (heq ▸ hdamage.mem_namesOf)
    refine ⟨hbefore, fun qs hqs => ?_⟩
    have hqueries := h.run_load_perform s
      (fun q hq => StoreQuery.concerns_mending hne q (hqs.subset hq)) y
    exact hqueries.trans (hdamaged.trans hbefore)

end IsReliable
end KeptFiles

/-! ## One entry of two -/

namespace Drawer

def other : Files := ((store.store second (artifact ".entry kk")).run handler ∅).2

/-- The files of two entries. -/
def both : Files := ((store.store first (artifact ".entry k")).run handler other).2

/-- The image is replaced by another one of the same length. -/
def altered : Files := both.insert (imageName first .ptx) (Text.bytes ".entry j")

/-- The manifest breaks off. -/
def garbled : Files := both.insert (manifestName first) (Text.bytes "\x7b")

theorem content_insert (d : Files) {name : String} (hname : Path.IsPlain name) (bytes : Bytes) :
    kept.content (d.insert name bytes) = Function.update (kept.content d) name (some bytes) := by
  funext other
  by_cases ho : other = name
  · subst ho
    rw [Function.update_self]
    exact (plainly_eq hname).trans (AList.lookup_insert d)
  · rw [Function.update_of_ne ho]
    exact plainly_congr (AList.lookup_insert_ne ho)

theorem run_store_other : ((store.store first (artifact ".entry k")).run handler other).1 =
    .ok true := by
  have hnone : kept.content other (imageName first .ptx) = none := by decide +kernel
  rw [isReliable_kept.run_store_eq rfl]
  exact congrArg (fun image => Except.ok (Option.isNone image)) hnone

theorem damages_altered : KeptFiles.Damages first (artifact ".entry k") (kept.content both)
    (kept.content altered) (imageName first .ptx) :=
  .image (by decide) (content_insert both (isPlain_imageName first .ptx) _)

theorem distinguishes_altered :
    KeptFiles.Distinguishes (kept.content altered) first (artifact ".entry k") := by
  intro bytes hbytes hdigest
  have hcontent : kept.content altered (imageName first .ptx) = some (Text.bytes ".entry j") :=
    (plainly_eq (isPlain_imageName first .ptx)).trans (AList.lookup_insert _)
  obtain rfl := Option.some.inj (hcontent.symm.trans hbytes)
  exact absurd hdigest (by decide +kernel)

theorem damages_garbled : KeptFiles.Damages first (artifact ".entry k") (kept.content both)
    (kept.content garbled) (manifestName first) :=
  .manifest (by decide +kernel) (content_insert both (isPlain_manifestName first) _)

theorem distinguishes_garbled :
    KeptFiles.Distinguishes (kept.content garbled) first (artifact ".entry k") := by
  intro bytes hbytes hdigest
  have hcontent : kept.content garbled (imageName first .ptx) =
      some (artifact ".entry k").image := by decide +kernel
  exact (Option.some.inj (hcontent.symm.trans hbytes)).symm

/-- Either damage is found and mended, and the other entry is found at the end as before. -/
theorem perform_mending_both : kept.IsReliable ∧
    ((store.store first (artifact ".entry k")).run handler other).1 = .ok true ∧
    (∃ damage, ((store.perform (StoreQuery.mending first (artifact ".entry k"))).run handler
        altered).1 =
      [.reply (.loaded (.error (.damaged (store.pathOf (imageName first .ptx)) damage))),
        .contained false, .reply (.loaded (.ok none)), .reply (.stored (.ok true)),
        .reply (.loaded (.ok (some (artifact ".entry k"))))]) ∧
    (∃ damage, ((store.perform (StoreQuery.mending first (artifact ".entry k"))).run handler
        garbled).1 =
      [.reply (.loaded (.error (.damaged (store.pathOf (manifestName first)) damage))),
        .contained false, .reply (.loaded (.ok none)), .reply (.stored (.ok true)),
        .reply (.loaded (.ok (some (artifact ".entry k"))))]) ∧
    ((store.load second).run handler
        ((store.perform (StoreQuery.mending first (artifact ".entry k"))).run handler
          garbled).2).1 = .ok (some (artifact ".entry kk")) := by
  have h := isReliable_kept
  have hsize : (artifact ".entry k").image.length < Number.limit64 := by decide +kernel
  obtain ⟨himage, -⟩ :=
    h.perform_mending rfl hsize run_store_other damages_altered distinguishes_altered
  obtain ⟨hmanifest, -, hothers⟩ :=
    h.perform_mending rfl hsize run_store_other damages_garbled distinguishes_garbled
  obtain ⟨-, hmoments⟩ := hothers second (by decide)
  refine ⟨h, run_store_other, himage, hmanifest, (hmoments _ (List.prefix_refl _)).trans ?_⟩
  have hnone : kept.content ∅ (imageName second .ptx) = none := by decide +kernel
  have hwrote : ((store.store second (artifact ".entry kk")).run handler ∅).1 = .ok true := by
    rw [h.run_store_eq rfl]
    exact congrArg (fun image => Except.ok (Option.isNone image)) hnone
  have hholds := h.toIsOrderly.holds_of_run_store hwrote
  exact (kept.run_load_of_some (hholds.stored?_eq rfl (by decide +kernel))).1

end Drawer
end KernelDepot
