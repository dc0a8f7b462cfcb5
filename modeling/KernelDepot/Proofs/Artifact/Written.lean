/-
What a store writes into a directory.

A directory is orderly if a step changes the files that it names and no others, and if a
write or a rename that succeeds has done what it says.  Steps may fail.  An obedient one
tells truly whether a file is there, and what is deleted is gone.  In an orderly directory
a store adds at most the manifest and the image of its artifact; in an obedient one it
writes both, says that it could not, or finds an image and leaves everything alone.
-/
import KernelDepot.Proofs.Artifact.Kept
import KernelDepot.Proofs.Artifact.Manifest

namespace KernelDepot

open ArtifactStore

namespace KeptFiles

variable {σ : Type} {files : FileHandler σ}

structure IsOrderly (k : KeptFiles files) : Prop where
  content_ticket : ∀ x, k.content (files .ticket x).2 = k.content x
  written : ∀ x name bytes, Path.IsPlain name → (files (.write name bytes) x).1 = .ok () →
    k.content (files (.write name bytes) x).2 name = some bytes
  write_of_ne : ∀ x name bytes other, Path.IsPlain name → other ≠ name →
    k.content (files (.write name bytes) x).2 other = k.content x other
  renamed : ∀ x source target, Path.IsPlain source → Path.IsPlain target →
    (files (.rename source target) x).1 = .ok () →
    k.content (files (.rename source target) x).2 target = k.content x source
  notRenamed : ∀ x source target e, Path.IsPlain source → Path.IsPlain target →
    (files (.rename source target) x).1 = .error e →
    k.content (files (.rename source target) x).2 target = k.content x target
  rename_of_ne : ∀ x source target other, Path.IsPlain source → Path.IsPlain target →
    other ≠ source → other ≠ target →
    k.content (files (.rename source target) x).2 other = k.content x other
  delete_of_ne : ∀ x name other, Path.IsPlain name → other ≠ name →
    k.content (files (.delete name) x).2 other = k.content x other

structure IsObedient (k : KeptFiles files) : Prop extends k.IsOrderly where
  isFile_eq : ∀ x name, Path.IsPlain name →
    (files (.isFile name) x).1 = (k.content x name).isSome
  read_missing : ∀ x f name, name ∈ namesOf f → k.content x name = none →
    (files (.read name) x).1 = .error .notFound
  deleted : ∀ x name, Path.IsPlain name → k.content (files (.delete name) x).2 name = none

variable {k : KeptFiles files} {s : ArtifactStore} {f : Fingerprint} {a : Artifact} {x : σ}

/-- A question whether a file is there sends the program one way or the other. -/
theorem run_ite_isFile {α : Type} (name : String) (p q : Filing α) (x : σ) :
    (do if (← (FileOp.isFile name).take) then p else q).run files x =
      bif (files (.isFile name) x).1 then p.run files (files (.isFile name) x).2
      else q.run files (files (.isFile name) x).2 := by
  rw [Program.run_bind]
  generalize hfound : (FileOp.isFile name).take.run files x = found
  have hasked : files (.isFile name) x = found := hfound
  rw [hasked]
  obtain ⟨found, x₁⟩ := found
  cases found <;> rfl

namespace IsOrderly

/-! ## Writing a file -/

/-- A file is written whole or not at all, and apart from it only the temporary file is
touched. -/
theorem run_writeFile (h : k.IsOrderly) (s : ArtifactStore) {name : String} (bytes : Bytes)
    (x : σ) (hname : name ∈ namesOf f) :
    (∀ other, other ≠ name → other ≠ temporaryName name (files .ticket x).1 →
      k.content ((s.writeFile name bytes).run files x).2 other = k.content x other) ∧
    (((s.writeFile name bytes).run files x).1 = .ok () ∧
        k.content ((s.writeFile name bytes).run files x).2 name = some bytes ∨
      (∃ e, ((s.writeFile name bytes).run files x).1 = .error e) ∧
        k.content ((s.writeFile name bytes).run files x).2 name = k.content x name) := by
  have hticket := h.content_ticket x
  have hplain := isPlain_of_mem_namesOf hname
  have hplainTemporary := isPlain_temporaryName hname (files .ticket x).1
  unfold writeFile FileOp.take
  simp only [Program.run_bind, Program.run_question]
  have hne := isLasting_of_mem_namesOf hname name (files .ticket x).1
  generalize temporaryName name (files .ticket x).1 = temporary at hplainTemporary hne ⊢
  generalize (files .ticket x).2 = x₁ at hticket ⊢
  have hwritten := h.written x₁ temporary bytes hplainTemporary
  have hothers := fun other => h.write_of_ne x₁ temporary bytes other hplainTemporary
  generalize files (.write temporary bytes) x₁ = wrote at hwritten hothers ⊢
  obtain ⟨wrote, x₂⟩ := wrote
  simp only at hwritten hothers
  have hbefore (other : String) (ho : other ≠ temporary) : k.content x₂ other = k.content x other :=
    (hothers other ho).trans (congrFun hticket other)
  cases wrote with
  | error e =>
    simp only [Program.run_bind, Program.run_question]
    have hdelete (other : String) (ho : other ≠ temporary) :=
      (h.delete_of_ne x₂ temporary other hplainTemporary ho).trans (hbefore other ho)
    exact ⟨fun other _ ho => hdelete other ho, .inr ⟨⟨_, rfl⟩, hdelete name hne⟩⟩
  | ok _ =>
    have hrenamed := h.renamed x₂ temporary name hplainTemporary hplain
    have hnot := fun e => h.notRenamed x₂ temporary name e hplainTemporary hplain
    have hrest := fun other => h.rename_of_ne x₂ temporary name other hplainTemporary hplain
    simp only [Program.run_bind, Program.run_question]
    generalize files (.rename temporary name) x₂ = moved at hrenamed hnot hrest ⊢
    obtain ⟨moved, x₃⟩ := moved
    simp only at hrenamed hnot hrest
    cases moved with
    | error e =>
      simp only [Program.run_bind, Program.run_question]
      refine ⟨fun other hon ho => ?_, .inr ⟨⟨_, rfl⟩, ?_⟩⟩
      · exact (h.delete_of_ne x₃ temporary other hplainTemporary ho).trans
          ((hrest other ho hon).trans (hbefore other ho))
      · exact (h.delete_of_ne x₃ temporary name hplainTemporary hne).trans
          ((hnot e rfl).trans (hbefore name hne))
    | ok _ =>
      refine ⟨fun other hon ho => (hrest other ho hon).trans (hbefore other ho), .inl ⟨rfl, ?_⟩⟩
      exact (hrenamed rfl).trans (hwritten rfl)

theorem content_run_writeFile (h : k.IsOrderly) (s : ArtifactStore) {name other : String}
    (bytes : Bytes) (x : σ) (hname : name ∈ namesOf f) (hother : IsLasting other)
    (hne : other ≠ name) :
    k.content ((s.writeFile name bytes).run files x).2 other = k.content x other :=
  (h.run_writeFile s bytes x hname).1 other hne (hother _ _)

end IsOrderly

/-! ## Storing an artifact -/

/-- What a store does to the files of a directory, by its result.  Temporary files do not
count. -/
inductive Stores (f : Fingerprint) (a : Artifact) (before after : String → Option Bytes) :
    Except StoreFailure Bool → Prop where
  | kept (hkept : ∀ name, IsLasting name → after name = before name) :
    Stores f a before after (.ok false)
  | wrote (hmanifest : after (manifestName f) = some (Manifest.ofArtifact f a).write)
    (himage : after (imageName f a.format) = some a.image)
    (hrest : ∀ name, IsLasting name → name ≠ manifestName f → name ≠ imageName f a.format →
      after name = before name) : Stores f a before after (.ok true)
  | failed (e : StoreFailure)
    (hmanifest : after (manifestName f) = before (manifestName f) ∨
      after (manifestName f) = some (Manifest.ofArtifact f a).write)
    (hrest : ∀ name, IsLasting name → name ≠ manifestName f → after name = before name) :
    Stores f a before after (.error e)

/-- The files that a store leaves are those that were there, and the two of its artifact. -/
theorem Stores.cases_content {before after : String → Option Bytes}
    {result : Except StoreFailure Bool} (h : Stores f a before after result) {name : String}
    (hname : IsLasting name) :
    after name = before name ∨
      name = manifestName f ∧ after name = some (Manifest.ofArtifact f a).write ∨
      name = imageName f a.format ∧ after name = some a.image := by
  cases h with
  | kept hkept => exact .inl (hkept name hname)
  | wrote hmanifest himage hrest =>
    by_cases hm : name = manifestName f
    · exact .inr (.inl ⟨hm, hm ▸ hmanifest⟩)
    · by_cases hi : name = imageName f a.format
      · exact .inr (.inr ⟨hi, hi ▸ himage⟩)
      · exact .inl (hrest name hname hm hi)
  | failed e hmanifest hrest =>
    by_cases hm : name = manifestName f
    · subst hm
      exact hmanifest.imp_right fun hwritten => .inl ⟨rfl, hwritten⟩
    · exact .inl (hrest name hname hm)

theorem IsOrderly.run_store (h : k.IsOrderly) (s : ArtifactStore) (f : Fingerprint)
    (a : Artifact) (x : σ) :
    Stores f a (k.content x) (k.content ((s.store f a).run files x).2)
      ((s.store f a).run files x).1 := by
  have hfmanifest : manifestName f ∈ namesOf f := mem_namesOf.mpr (.inl rfl)
  have hfimage : imageName f a.format ∈ namesOf f := mem_namesOf.mpr (.inr ⟨_, rfl⟩)
  have hne := imageName_ne_manifestName f f a.format
  unfold store
  by_cases he : s.enabled = true
  · rw [if_neg (not_not.mpr he), run_ite_isFile]
    have hkept := k.content_isFile x _ (isPlain_imageName f a.format)
    generalize files (.isFile (imageName f a.format)) x = found at hkept ⊢
    obtain ⟨found, x₁⟩ := found
    simp only at hkept
    cases found with
    | true => exact .kept fun name _ => congrFun hkept name
    | false =>
      simp only [cond_false, Program.run_bind]
      have hothers (name : String) (hname : IsLasting name) (hm : name ≠ manifestName f) :=
        h.content_run_writeFile s (Manifest.ofArtifact f a).write x₁ hfmanifest hname hm
      have hresult := (h.run_writeFile s (Manifest.ofArtifact f a).write x₁ hfmanifest).2
      generalize (s.writeFile (manifestName f) (Manifest.ofArtifact f a).write).run files x₁ =
        first at hothers hresult ⊢
      obtain ⟨first, x₂⟩ := first
      simp only [hkept] at hothers hresult
      cases first with
      | error e =>
        rcases hresult with ⟨hok, -⟩ | ⟨-, hsame⟩
        · exact nomatch hok
        · exact .failed e (.inl hsame) hothers
      | ok _ =>
        rcases hresult with ⟨-, hmanifest⟩ | ⟨⟨e, herror⟩, -⟩
        · simp only [Program.run_bind]
          have hothers₂ (name : String) (hname : IsLasting name)
              (hi : name ≠ imageName f a.format) :=
            h.content_run_writeFile s a.image x₂ hfimage hname hi
          have hresult₂ := (h.run_writeFile s a.image x₂ hfimage).2
          generalize (s.writeFile (imageName f a.format) a.image).run files x₂ =
            second at hothers₂ hresult₂ ⊢
          obtain ⟨second, x₃⟩ := second
          simp only at hothers₂ hresult₂
          have hmanifest₂ := (hothers₂ _ (isLasting_manifestName f) hne.symm).trans hmanifest
          cases second with
          | error e =>
            rcases hresult₂ with ⟨hok, -⟩ | ⟨-, hsame⟩
            · exact nomatch hok
            · refine .failed e (.inr hmanifest₂) fun name hname hm => ?_
              by_cases hi : name = imageName f a.format
              · subst hi
                exact hsame.trans (hothers _ hname hm)
              · exact (hothers₂ name hname hi).trans (hothers name hname hm)
          | ok _ =>
            rcases hresult₂ with ⟨-, himage⟩ | ⟨⟨e, herror⟩, -⟩
            · exact .wrote hmanifest₂ himage fun name hname hm hi =>
                (hothers₂ name hname hi).trans (hothers name hname hm)
            · exact nomatch herror
        · exact nomatch herror
  · simp only [he]
    exact .kept fun name _ => rfl

namespace IsObedient

/-- A store that is switched on writes nothing exactly if the image is there. -/
theorem run_store_eq_false_iff (h : k.IsObedient) (he : s.enabled = true) :
    ((s.store f a).run files x).1 = .ok false ↔
      (k.content x (imageName f a.format)).isSome := by
  rw [← h.isFile_eq x _ (isPlain_imageName f a.format)]
  unfold store
  rw [if_neg (not_not.mpr he), run_ite_isFile]
  generalize files (.isFile (imageName f a.format)) x = found
  obtain ⟨found, x₁⟩ := found
  cases found with
  | true => exact ⟨fun _ => rfl, fun _ => rfl⟩
  | false =>
    refine ⟨fun hfalse => ?_, fun hfound => absurd hfound Bool.false_ne_true⟩
    simp only [cond_false, Program.run_bind] at hfalse
    revert hfalse
    split
    · exact nofun
    · rw [Program.run_bind]
      split <;> exact nofun

end IsObedient

/-! ## Deleting and reading -/

namespace IsObedient

theorem content_run_deleteAll (h : k.IsObedient) {names : List String}
    (hnames : ∀ name ∈ names, Path.IsPlain name) (x : σ) (name : String) :
    k.content ((deleteAll names).run files x).2 name =
      if name ∈ names then none else k.content x name := by
  induction names generalizing x with
  | nil => simp [deleteAll]
  | cons first rest ih =>
    obtain ⟨hplain, hrestPlain⟩ := List.forall_mem_cons.mp hnames
    unfold deleteAll FileOp.take
    simp only [Program.run_bind, Program.run_question]
    rw [ih hrestPlain]
    by_cases hrest : name ∈ rest
    · rw [if_pos hrest, if_pos (List.mem_cons_of_mem _ hrest)]
    · rw [if_neg hrest]
      by_cases hfirst : name = first
      · rw [hfirst, h.deleted _ _ hplain, if_pos List.mem_cons_self]
      · rw [h.delete_of_ne _ _ _ hplain hfirst,
          if_neg (List.not_mem_cons_of_ne_of_not_mem hfirst hrest)]

theorem run_hasImage (h : k.IsObedient) (f : Fingerprint) (formats : List ImageFormat) (x : σ) :
    ((hasImage f formats).run files x).1 =
      formats.any fun format => (k.content x (imageName f format)).isSome := by
  induction formats generalizing x with
  | nil => rfl
  | cons format rest ih =>
    unfold hasImage
    rw [run_ite_isFile, List.any_cons, ← h.isFile_eq x _ (isPlain_imageName f format)]
    have hkept := k.content_isFile x _ (isPlain_imageName f format)
    generalize files (.isFile (imageName f format)) x = found at hkept ⊢
    obtain ⟨found, x₁⟩ := found
    cases found with
    | true => rfl
    | false =>
      simp only at hkept
      rw [cond_false, ih, hkept, Bool.false_or]

theorem run_contains (h : k.IsObedient) {s : ArtifactStore} (he : s.enabled = true)
    (f : Fingerprint) (x : σ) : ((s.contains f).run files x).1 =
      ImageFormat.all.any fun format => (k.content x (imageName f format)).isSome := by
  unfold contains
  rw [if_pos he, h.run_hasImage]

theorem run_contains_iff (h : k.IsObedient) {s : ArtifactStore} (he : s.enabled = true)
    {f : Fingerprint} {x : σ} : ((s.contains f).run files x).1 = true ↔
      ∃ format, (k.content x (imageName f format)).isSome := by
  rw [h.run_contains he, List.any_eq_true]
  constructor
  · rintro ⟨format, -, himage⟩
    exact ⟨format, himage⟩
  · rintro ⟨format, himage⟩
    exact ⟨format, by cases format <;> decide, himage⟩

/-- A look-up without a manifest misses. -/
theorem run_load_of_missing (h : k.IsObedient) (s : ArtifactStore)
    (hmissing : k.content x (manifestName f) = none) :
    ((s.load f).run files x).1 = .ok none ∧
      k.content ((s.load f).run files x).2 = k.content x := by
  unfold load FileOp.take
  by_cases he : s.enabled = true
  · simp only [he, not_true, if_false, Program.run_bind, Program.run_question]
    rw [h.read_missing x f _ (mem_namesOf.mpr (.inl rfl)) hmissing]
    exact ⟨rfl, k.content_read x _ (isPlain_manifestName f)⟩
  · simp only [he]
    exact ⟨rfl, rfl⟩

end IsObedient

/-! ## Finding an artifact -/

/-- The files of an artifact are there. -/
structure Holds (content : String → Option Bytes) (f : Fingerprint) (a : Artifact) : Prop where
  manifest : content (manifestName f) = some (Manifest.ofArtifact f a).write
  image : content (imageName f a.format) = some a.image

/-- What was written is found. -/
theorem Holds.stored?_eq {content : String → Option Bytes} (h : Holds content f a)
    (he : s.enabled = true) (hsize : a.image.length < Number.limit64) :
    s.stored? content f = some a := by
  unfold stored?
  have hformat : (Manifest.ofArtifact f a).format = a.format := rfl
  simp only [he, if_true, h.manifest, Option.bind_eq_bind, Option.bind_some,
    Manifest.read?_write_ofArtifact f hsize, hformat, h.image, Manifest.damage?_ofArtifact,
    Manifest.artifact_ofArtifact]
  rfl

end KeptFiles
end KernelDepot
