/-
What a store reads from a directory that keeps its files.

A look-up reads a manifest and one image, and it deletes what it finds damaged.  In a
directory whose files stay as they are, reading finds what is there, and a look-up finds an
artifact exactly if `stored?` does, which only looks at the contents of the files.

Nothing is asked of a directory for names that lead out of it, and the states are those that it
can be in.
-/
import KernelDepot.Proofs.Artifact.Names

namespace KernelDepot

/-- Files of which none has become another one, though some may be gone. -/
def Fades (after before : String → Option Bytes) : Prop :=
  ∀ name, after name = before name ∨ after name = none

namespace Fades

theorem refl (content : String → Option Bytes) : Fades content content := fun _ => .inl rfl

theorem trans {a b c : String → Option Bytes} (hab : Fades b a) (hbc : Fades c b) :
    Fades c a := fun name => by
  rcases hbc name with hc | hc
  · rcases hab name with hb | hb
    · exact .inl (hc.trans hb)
    · exact .inr (hc.trans hb)
  · exact .inr hc

theorem eq_some {after before : String → Option Bytes} (h : Fades after before) {name : String}
    {bytes : Bytes} (hbytes : after name = some bytes) : before name = some bytes := by
  rcases h name with hsame | hgone
  · rw [← hsame, hbytes]
  · rw [hgone] at hbytes
    exact nomatch hbytes

end Fades

/-- Of some contents those that a directory can hold. -/
def plainly (content : String → Option Bytes) (name : String) : Option Bytes :=
  if Path.IsPlain name then content name else none

section
variable {content content' : String → Option Bytes} {name : String}

theorem plainly_eq (h : Path.IsPlain name) : plainly content name = content name := if_pos h

theorem plainly_congr (h : content' name = content name) :
    plainly content' name = plainly content name :=
  congrArg (fun found => if Path.IsPlain name then found else none) h

theorem eq_some_of_plainly {bytes : Bytes} (h : plainly content name = some bytes) :
    Path.IsPlain name ∧ content name = some bytes := by
  by_cases hplain : Path.IsPlain name
  · exact ⟨hplain, (plainly_eq hplain).symm.trans h⟩
  · exact nomatch (if_neg hplain).symm.trans h

theorem plainly_of_none (h : content name = none) : plainly content name = none := by
  unfold plainly
  rw [h, ite_self]

end

attribute [irreducible] plainly

/-- A directory that keeps its files.  A file without a content is not there or cannot be
read, and one that is to be deleted may stay. -/
structure KeptFiles {σ : Type} (files : FileHandler σ) where
  content : σ → String → Option Bytes
  isPlain : ∀ x name bytes, content x name = some bytes → Path.IsPlain name
  read_some : ∀ x name bytes, content x name = some bytes → (files (.read name) x).1 = .ok bytes
  read_none : ∀ x name, Path.IsPlain name → content x name = none →
    ∃ e, (files (.read name) x).1 = .error e
  content_read : ∀ x name, Path.IsPlain name → content (files (.read name) x).2 = content x
  content_isFile : ∀ x name, Path.IsPlain name → content (files (.isFile name) x).2 = content x
  content_delete : ∀ x name, Path.IsPlain name →
    Fades (content (files (.delete name) x).2) (content x)

namespace ArtifactStore

/-- The artifact that some files hold for a fingerprint. -/
def stored? (s : ArtifactStore) (content : String → Option Bytes) (f : Fingerprint) :
    Option Artifact :=
  if s.enabled then do
    let manifest ← Manifest.read? (← content (manifestName f))
    let image ← content (imageName f manifest.format)
    if (manifest.damage? f image).isSome then none else some (manifest.artifact image)
  else none

/-- An artifact is made of a manifest and of an image that fits it. -/
theorem exists_of_stored? {s : ArtifactStore} {content : String → Option Bytes} {f : Fingerprint}
    {a : Artifact} (h : s.stored? content f = some a) :
    s.enabled = true ∧ ∃ written manifest image, content (manifestName f) = some written ∧
      Manifest.read? written = some manifest ∧
      content (imageName f manifest.format) = some image ∧
      manifest.damage? f image = none ∧ manifest.artifact image = a := by
  unfold stored? at h
  by_cases he : s.enabled = true
  · rw [if_pos he] at h
    obtain ⟨written, hwritten, h⟩ := Option.bind_eq_some_iff.mp h
    obtain ⟨manifest, hmanifest, h⟩ := Option.bind_eq_some_iff.mp h
    obtain ⟨image, himage, h⟩ := Option.bind_eq_some_iff.mp h
    refine ⟨he, written, manifest, image, hwritten, hmanifest, himage, ?_⟩
    cases hdamage : manifest.damage? f image with
    | some damage =>
      rw [hdamage] at h
      exact nomatch h
    | none =>
      rw [hdamage] at h
      exact ⟨rfl, Option.some.inj h⟩
  · rw [if_neg he] at h
    exact nomatch h

theorem stored?_of_unreadable {s : ArtifactStore} {content : String → Option Bytes}
    {f : Fingerprint} {written : Bytes} (hwritten : content (manifestName f) = some written)
    (h : Manifest.read? written = none) : s.stored? content f = none := by
  refine Option.eq_none_iff_forall_ne_some.mpr fun a ha => ?_
  obtain ⟨-, written', manifest, -, hwritten', hread, -⟩ := exists_of_stored? ha
  rw [Option.some.inj (hwritten.symm.trans hwritten'), hread] at h
  exact nomatch h

theorem stored?_congr (s : ArtifactStore) {before after : String → Option Bytes} {f : Fingerprint}
    (h : ∀ name ∈ namesOf f, after name = before name) :
    s.stored? after f = s.stored? before f := by
  have hmanifest := h _ (mem_namesOf.mpr (.inl rfl))
  have himage (format : ImageFormat) := h _ (mem_namesOf.mpr (.inr ⟨format, rfl⟩))
  unfold stored?
  simp only [hmanifest, himage]

/-- Nothing is stored but in plain files. -/
theorem stored?_plainly (s : ArtifactStore) (content : String → Option Bytes) (f : Fingerprint) :
    s.stored? (plainly content) f = s.stored? content f :=
  s.stored?_congr fun _ hname => plainly_eq (isPlain_of_mem_namesOf hname)

/-- As files disappear an artifact disappears or stays. -/
theorem stored?_of_fades (s : ArtifactStore) {after before : String → Option Bytes}
    (h : Fades after before) (f : Fingerprint) :
    s.stored? after f = s.stored? before f ∨ s.stored? after f = none := by
  unfold stored?
  by_cases he : s.enabled = true
  · simp only [he, if_true]
    rcases h (manifestName f) with hm | hm
    · rw [hm]
      cases before (manifestName f) with
      | none => exact .inl rfl
      | some written =>
        cases hread : Manifest.read? written with
        | none => exact .inl (by simp [hread])
        | some manifest =>
          rcases h (imageName f manifest.format) with hi | hi
          · exact .inl (by simp [hread, hi])
          · exact .inr (by simp [hread, hi])
    · exact .inr (by simp [hm])
  · simp only [he]
    exact .inl rfl

end ArtifactStore

namespace KeptFiles

open ArtifactStore

variable {σ : Type} {files : FileHandler σ} (k : KeptFiles files)

theorem isPlain_of_isSome {x : σ} {name : String} (h : (k.content x name).isSome) :
    Path.IsPlain name := by
  obtain ⟨bytes, hbytes⟩ := Option.isSome_iff_exists.mp h
  exact k.isPlain x name bytes hbytes

theorem fades_deleteAll {names : List String} (hnames : ∀ name ∈ names, Path.IsPlain name) (x : σ) :
    Fades (k.content ((deleteAll names).run files x).2) (k.content x) := by
  induction names generalizing x with
  | nil => exact .refl _
  | cons name rest ih =>
    obtain ⟨hname, hrest⟩ := List.forall_mem_cons.mp hnames
    unfold deleteAll FileOp.take
    simp only [Program.run_bind, Program.run_question]
    exact (k.content_delete x name hname).trans (ih hrest _)

theorem fades_remove (s : ArtifactStore) (f : Fingerprint) (x : σ) :
    Fades (k.content ((s.remove f).run files x).2) (k.content x) := by
  unfold remove
  split
  · exact k.fades_deleteAll (fun _ => isPlain_of_mem_namesOf) x
  · exact .refl _

theorem fades_discard (s : ArtifactStore) (f : Fingerprint) (name : String) (damage : Damage)
    (x : σ) : Fades (k.content ((s.discard f name damage).run files x).2) (k.content x) := by
  unfold ArtifactStore.discard
  rw [Program.run_bind]
  exact k.fades_remove s f x

theorem run_discard (s : ArtifactStore) (f : Fingerprint) (name : String) (damage : Damage)
    (x : σ) :
    ((s.discard f name damage).run files x).1 = .error (.damaged (s.pathOf name) damage) := by
  unfold ArtifactStore.discard
  rw [Program.run_bind]
  rfl

theorem content_hasImage (f : Fingerprint) (formats : List ImageFormat) (x : σ) :
    k.content ((hasImage f formats).run files x).2 = k.content x := by
  induction formats generalizing x with
  | nil => rfl
  | cons format rest ih =>
    unfold hasImage
    rw [Program.run_bind]
    generalize hfound : (FileOp.isFile (imageName f format)).take.run files x = found
    obtain ⟨found, x₁⟩ := found
    have hkept : k.content x₁ = k.content x := by
      rw [← k.content_isFile x _ (isPlain_imageName f format)]
      exact congrArg (fun r => k.content r.2) hfound.symm
    cases found with
    | true => exact hkept
    | false => exact (ih x₁).trans hkept

theorem content_contains (s : ArtifactStore) (f : Fingerprint) (x : σ) :
    k.content ((s.contains f).run files x).2 = k.content x := by
  unfold contains
  split
  · exact k.content_hasImage f _ x
  · rfl

theorem run_load_of_some {s : ArtifactStore} {f : Fingerprint} {x : σ} {a : Artifact}
    (h : s.stored? (k.content x) f = some a) :
    ((s.load f).run files x).1 = .ok (some a) ∧
      k.content ((s.load f).run files x).2 = k.content x := by
  obtain ⟨he, written, manifest, image, hwritten, hmanifest, himage, hdamage, rfl⟩ :=
    exists_of_stored? h
  have hread := k.read_some x _ written hwritten
  have hkept := k.content_read x _ (isPlain_manifestName f)
  unfold load FileOp.take
  simp only [he, not_true, if_false, Program.run_bind, Program.run_question, hread, hmanifest]
  generalize (files (.read (manifestName f)) x).2 = x₁ at hkept ⊢
  have hread₁ := k.read_some x₁ _ image (hkept ▸ himage)
  have hkept₁ := k.content_read x₁ _ (isPlain_imageName f manifest.format)
  rw [hread₁]
  simp only [hdamage]
  exact ⟨rfl, hkept₁.trans hkept⟩

/-- A look-up that does not find anything stored only makes files disappear. -/
theorem run_load_of_none {s : ArtifactStore} {f : Fingerprint} {x : σ}
    (h : s.stored? (k.content x) f = none) :
    (∀ a, ((s.load f).run files x).1 ≠ .ok (some a)) ∧
      Fades (k.content ((s.load f).run files x).2) (k.content x) := by
  unfold stored? at h
  unfold load FileOp.take
  by_cases he : s.enabled = true
  · simp only [he, if_true] at h
    simp only [he, not_true, if_false, Program.run_bind, Program.run_question]
    have hkept := k.content_read x _ (isPlain_manifestName f)
    cases hwritten : k.content x (manifestName f) with
    | none =>
      obtain ⟨e, hread⟩ := k.read_none x _ (isPlain_manifestName f) hwritten
      rw [hread]
      refine ⟨fun a => ?_, fun name => .inl (congrFun hkept name)⟩
      simp only [Program.run_pure]
      split <;> exact nofun
    | some written =>
      have hread := k.read_some x _ written hwritten
      rw [hread]
      generalize (files (.read (manifestName f)) x).2 = x₁ at hkept ⊢
      cases hmanifest : Manifest.read? written with
      | none =>
        -- Whether the damaged manifest is removed or not, nothing is found.
        have hcontains := (k.content_contains s f x₁).trans hkept
        simp only [hmanifest, Program.run_bind]
        generalize (s.contains f).run files x₁ = found at hcontains ⊢
        obtain ⟨found, x₂⟩ := found
        cases found with
        | true =>
          have hfades := k.fades_discard s f (manifestName f) .manifest x₂
          rw [hcontains] at hfades
          refine ⟨fun a => ?_, hfades⟩
          rw [if_pos rfl, run_discard]
          exact nofun
        | false => exact ⟨fun a => nofun, fun name => .inl (congrFun hcontains name)⟩
      | some manifest =>
        have hkept₁ := (k.content_read x₁ _ (isPlain_imageName f manifest.format)).trans hkept
        rw [hwritten] at h
        simp only [Option.bind_eq_bind, Option.bind_some, hmanifest] at h
        simp only [hmanifest, Program.run_bind, Program.run_question]
        cases himage : k.content x (imageName f manifest.format) with
        | none =>
          obtain ⟨e, hread₁⟩ := k.read_none x₁ _ (isPlain_imageName f _) (hkept ▸ himage)
          rw [hread₁]
          refine ⟨fun a => ?_, fun name => .inl (congrFun hkept₁ name)⟩
          simp only [Program.run_pure]
          split <;> exact nofun
        | some image =>
          have hread₁ := k.read_some x₁ _ image (hkept ▸ himage)
          rw [hread₁]
          generalize (files (.read (imageName f manifest.format)) x₁).2 = x₂ at hkept₁ ⊢
          rw [himage, Option.bind_some] at h
          cases hdamage : manifest.damage? f image with
          | none =>
            rw [hdamage] at h
            exact nomatch h
          | some damage =>
            have hfades := k.fades_discard s f (imageName f manifest.format) damage x₂
            rw [hkept₁] at hfades
            simp only [hdamage]
            refine ⟨fun a => ?_, hfades⟩
            rw [run_discard]
            exact nofun
  · simp only [he]
    exact ⟨fun a => nofun, .refl _⟩

theorem fades_load (s : ArtifactStore) (f : Fingerprint) (x : σ) :
    Fades (k.content ((s.load f).run files x).2) (k.content x) := by
  cases hstored : s.stored? (k.content x) f with
  | none => exact (k.run_load_of_none hstored).2
  | some a =>
    rw [(k.run_load_of_some hstored).2]
    exact .refl _

/-- What a look-up finds is stored. -/
theorem stored?_of_run_load {s : ArtifactStore} {f : Fingerprint} {x : σ} {a : Artifact}
    (h : ((s.load f).run files x).1 = .ok (some a)) : s.stored? (k.content x) f = some a := by
  cases hstored : s.stored? (k.content x) f with
  | none => exact absurd h ((k.run_load_of_none hstored).1 a)
  | some b =>
    rw [(k.run_load_of_some hstored).1] at h
    exact Except.ok.inj h

end KeptFiles
end KernelDepot
