/-
Fingerprints that are committed.

A fingerprint is committed when an image of some format is there.  A store asks only for the
image of its own artifact's format, and the manifest has one name for all formats.  So a
store leaves a committed fingerprint alone exactly if it is committed in the format of the
artifact (`leavesAlone_iff`).  An artifact of the other format is written beside the image
that is there, and the manifest of that image is lost.
-/
import KernelDepot.Proofs.Artifact.WriteOnce

namespace KernelDepot

open ArtifactStore

namespace ArtifactStore

/-- What a look-up says about some files. -/
def lookUp (s : ArtifactStore) (content : String → Option Bytes) (f : Fingerprint) :
    Except StoreFailure (Option Artifact) :=
  if ¬ s.enabled then .ok none
  else
    match content (manifestName f) with
    | none => .ok none
    | some written =>
      match Manifest.read? written with
      | none =>
        if ImageFormat.all.any fun format => (content (imageName f format)).isSome then
          .error (.damaged (s.pathOf (manifestName f)) .manifest)
        else .ok none
      | some m =>
        match content (imageName f m.format) with
        | none => .ok none
        | some image =>
          match m.damage? f image with
          | some damage => .error (.damaged (s.pathOf (imageName f m.format)) damage)
          | none => .ok (some (m.artifact image))

end ArtifactStore

namespace KeptFiles

variable {σ : Type} {files : FileHandler σ} {k : KeptFiles files} {s : ArtifactStore}
  {f : Fingerprint} {a : Artifact} {x : σ}

/-- A store writes nothing, says so, and is not noticed by who looks the fingerprint up. -/
structure LeavesAlone (k : KeptFiles files) (s : ArtifactStore) (f : Fingerprint) (a : Artifact)
    (x : σ) : Prop where
  result : ((s.store f a).run files x).1 = .ok false
  content : k.content ((s.store f a).run files x).2 = k.content x
  load : ((s.load f).run files ((s.store f a).run files x).2).1 = ((s.load f).run files x).1

namespace IsObedient

/-- The answer of a look-up depends on nothing but the files. -/
theorem run_load_eq_lookUp (h : k.IsObedient) (s : ArtifactStore) (f : Fingerprint) (x : σ) :
    ((s.load f).run files x).1 = s.lookUp (k.content x) f := by
  unfold lookUp
  by_cases he : s.enabled = true
  · rw [if_neg (not_not.mpr he)]
    cases hwritten : k.content x (manifestName f) with
    | none => exact (h.run_load_of_missing s hwritten).1
    | some written =>
      have hread := k.read_some x _ written hwritten
      have hkept := k.content_read x _ (isPlain_manifestName f)
      unfold load FileOp.take
      simp only [he, not_true, if_false, Program.run_bind, Program.run_question, hread]
      generalize (files (.read (manifestName f)) x).2 = x₁ at hkept ⊢
      cases hm : Manifest.read? written with
      | none =>
        have hfound : ((s.contains f).run files x₁).1 =
            ImageFormat.all.any fun format => (k.content x (imageName f format)).isSome := by
          rw [h.run_contains he, hkept]
        simp only [Program.run_bind]
        rw [← hfound]
        generalize (s.contains f).run files x₁ = found
        obtain ⟨found, x₂⟩ := found
        cases found with
        | true => exact run_discard s f _ _ x₂
        | false => rfl
      | some m =>
        simp only [Program.run_bind, Program.run_question]
        cases himage : k.content x (imageName f m.format) with
        | none =>
          rw [h.read_missing x₁ f _ (mem_namesOf.mpr (.inr ⟨_, rfl⟩)) (hkept ▸ himage)]
          rfl
        | some image =>
          rw [k.read_some x₁ _ image (hkept ▸ himage)]
          cases hdamage : m.damage? f image with
          | some damage =>
            simp only [hdamage]
            exact run_discard s f _ damage _
          | none =>
            simp only [hdamage]
            rfl
  · unfold load
    rw [if_pos he, if_pos he]
    rfl

theorem run_load_congr (h : k.IsObedient) {y : σ} (hsame : k.content y = k.content x) :
    ((s.load f).run files y).1 = ((s.load f).run files x).1 := by
  rw [h.run_load_eq_lookUp, h.run_load_eq_lookUp, hsame]

/-- A store that finds the image of its artifact's format does nothing further. -/
theorem content_run_store_of_image (h : k.IsObedient) (he : s.enabled = true)
    (himage : (k.content x (imageName f a.format)).isSome) :
    k.content ((s.store f a).run files x).2 = k.content x := by
  rw [← h.isFile_eq x _ (isPlain_imageName f a.format)] at himage
  unfold store
  rw [if_neg (not_not.mpr he), run_ite_isFile, himage, cond_true]
  exact k.content_isFile x _ (isPlain_imageName f a.format)

/-- A store leaves a committed fingerprint alone exactly if the image of the artifact's own
format is there.  Otherwise the image that is there has another format.  It stays as it is,
but if the artifact is written it is the artifact that is found from then on. -/
theorem leavesAlone_iff (h : k.IsObedient) (he : s.enabled = true)
    (hcommitted : ((s.contains f).run files x).1 = true) (a : Artifact) :
    (k.LeavesAlone s f a x ↔ (k.content x (imageName f a.format)).isSome) ∧
    (k.content x (imageName f a.format) = none → ∃ format, format ≠ a.format ∧
      (k.content x (imageName f format)).isSome ∧
      k.content ((s.store f a).run files x).2 (imageName f format) =
        k.content x (imageName f format) ∧
      (((s.store f a).run files x).1 = .ok true → a.image.length < Number.limit64 →
        ((s.load f).run files ((s.store f a).run files x).2).1 = .ok (some a))) := by
  refine ⟨⟨fun halone => (h.run_store_eq_false_iff he).mp halone.result, fun himage => ?_⟩, ?_⟩
  · have hcontent := h.content_run_store_of_image he himage
    exact ⟨(h.run_store_eq_false_iff he).mpr himage, hcontent, h.run_load_congr hcontent⟩
  · intro hnone
    obtain ⟨format, himage⟩ := (h.run_contains_iff he).mp hcommitted
    have hne : format ≠ a.format := fun heq => by
      rw [heq, hnone] at himage
      exact absurd himage Bool.false_ne_true
    have hstores := h.toIsOrderly.run_store s f a x
    refine ⟨format, hne, himage, ?_, fun hwrote hsize => ?_⟩
    · rcases hstores.cases_content (isLasting_imageName f format) with hsame | ⟨hname, -⟩ |
        ⟨hname, -⟩
      · exact hsame
      · exact absurd hname (imageName_ne_manifestName f f format)
      · exact absurd (imageName_inj hname).2 hne
    · rw [hwrote] at hstores
      cases hstores with
      | wrote hmanifest himage' hrest =>
        have hholds : Holds (k.content ((s.store f a).run files x).2) f a := ⟨hmanifest, himage'⟩
        exact (k.run_load_of_some (hholds.stored?_eq he hsize)).1

end IsObedient
end KeptFiles

/-! ## One fingerprint in two formats -/

namespace Drawer

def machineCode : Artifact := { artifact ".entry kk" with format := .cubin }

/-- The files after the first artifact was stored. -/
def committed : Files := ((store.store first (artifact ".entry k")).run handler ∅).2

theorem content_committed :
    kept.content committed (imageName first .ptx) = some (artifact ".entry k").image ∧
      kept.content committed (imageName first .cubin) = none := by
  decide +kernel

/-- The same artifact once more is not written.  In another format it is, and from then on it
is found in the place of the one that was committed. -/
theorem leavesAlone_committed : kept.IsObedient ∧
    ((store.contains first).run handler committed).1 = true ∧
    kept.LeavesAlone store first (artifact "") committed ∧
    ¬ kept.LeavesAlone store first machineCode committed ∧
    ((store.load first).run handler ((store.store first machineCode).run handler committed).2).1 =
      .ok (some machineCode) := by
  have h := isReliable_kept.toIsObedient
  obtain ⟨himage, hnone⟩ := content_committed
  have hthere : (kept.content committed (imageName first (artifact "").format)).isSome :=
    Option.isSome_iff_exists.mpr ⟨_, himage⟩
  have hcommitted : ((store.contains first).run handler committed).1 = true :=
    (h.run_contains_iff rfl).mpr ⟨.ptx, hthere⟩
  obtain ⟨halone, -⟩ := h.leavesAlone_iff rfl hcommitted (artifact "")
  obtain ⟨hother, hreplaced⟩ := h.leavesAlone_iff rfl hcommitted machineCode
  obtain ⟨-, -, -, -, hfound⟩ := hreplaced hnone
  have hwrote : ((store.store first machineCode).run handler committed).1 = .ok true := by
    rw [isReliable_kept.run_store_eq rfl]
    exact congrArg (fun image => Except.ok (Option.isNone image)) hnone
  refine ⟨h, hcommitted, halone.mpr hthere, fun hleft => ?_, hfound hwrote (by decide +kernel)⟩
  rw [show kept.content committed (imageName first machineCode.format) = none from hnone] at hother
  exact absurd (hother.mp hleft) Bool.false_ne_true

end Drawer
end KernelDepot
