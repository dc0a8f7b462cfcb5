/-
Calls that nobody disturbs.

A store into a folder without the image leaves the manifest and the image, and a look-up in
a folder with both finds the artifact.  In a folder with an image and no manifest an entry is
there, a look-up finds nothing, and a store writes nothing.
-/
import KernelDepot.Artifact.Sharing
import KernelDepot.Proofs.Artifact.Manifest
import KernelDepot.Proofs.Artifact.Names

namespace KernelDepot

open ArtifactStore

namespace Folder

variable {α β : Type} {d d' d'' : Folder}

theorem Runs.bind {p : Filing α} {next : α → Filing β} {a : α} {b : β} (h : d.Runs p a d')
    (hnext : d'.Runs (next a) b d'') : d.Runs (p >>= next) b d'' := by
  induction h with
  | done => exact hnext
  | ask hstep _ ih => exact .ask hstep (ih hnext)

theorem Runs.take {op : FileOp} {next : op.Reply → Filing α} {reply : op.Reply} {a : α}
    (h : d.Step op reply d') (hnext : d'.Runs (next reply) a d'') :
    d.Runs (op.take >>= next) a d'' :=
  .ask h hnext

theorem Runs.of_take {op : FileOp} {next : op.Reply → Filing α} {a : α}
    (h : d.Runs (op.take >>= next) a d'') :
    ∃ reply d', d.Step op reply d' ∧ d'.Runs (next reply) a d'' := by
  have hask : d.Runs (.ask op next) a d'' := h
  cases hask with
  | ask hstep hnext => exact ⟨_, _, hstep, hnext⟩

theorem Runs.of_pure {a b : α} (h : d.Runs (pure a) b d') : b = a ∧ d' = d := by
  have hdone : d.Runs (.done a) b d' := h
  cases hdone
  exact ⟨rfl, rfl⟩

theorem eq_of_step_read {name : String} {bytes : Bytes} {reply : Except FileFault Bytes}
    (h : d.Step (.read name) reply d') (hbytes : d.content name = some bytes) :
    reply = .ok bytes ∧ d' = d := by
  cases h with
  | read hread => exact ⟨congrArg Except.ok (Option.some.inj (hread.symm.trans hbytes)), rfl⟩
  | readNothing hnone => exact nomatch hnone.symm.trans hbytes

theorem step_isFile_none {name : String} (h : d.content name = none) :
    d.Step (.isFile name) false d := by
  simpa [h] using Step.isFile d name

theorem step_isFile_some {name : String} {bytes : Bytes} (h : d.content name = some bytes) :
    d.Step (.isFile name) true d := by
  simpa [h] using Step.isFile d name

/-- What is left when a file was written under a temporary name and renamed. -/
def commit (d : Folder) (t : Ticket) (name : String) (content : Bytes) : Folder :=
  (((d.issue t).set (temporaryName name t) (some content)).set (temporaryName name t) none).set
    name (some content)

@[simp] theorem content_commit_self (d : Folder) (t : Ticket) (name : String) (content : Bytes) :
    (d.commit t name content).content name = some content :=
  content_set_self _ _ _

theorem content_commit_of_ne (d : Folder) (t : Ticket) {name n : String} (content : Bytes)
    (hn : n ≠ name) (hlasting : IsLasting n) :
    (d.commit t name content).content n = d.content n := by
  rw [commit, content_set_of_ne _ _ hn, content_set_of_ne _ _ (hlasting name t),
    content_set_of_ne _ _ (hlasting name t), content_issue]

theorem runs_writeFile (s : ArtifactStore) {t : Ticket} {name : String} (content : Bytes)
    (ht : t ∉ d.issued) : d.Runs (s.writeFile name content) (.ok ()) (d.commit t name content) :=
  .take (.ticket ht) (.take (.write _ _ content)
    (.take (.rename (content_set_self _ _ _)) (.done _ _)))

/-- What is left of a store that writes. -/
def entered (d : Folder) (t u : Ticket) (f : Fingerprint) (a : Artifact) : Folder :=
  (d.commit t (manifestName f) (Manifest.ofArtifact f a).write).commit u (imageName f a.format)
    a.image

theorem content_entered_imageName (d : Folder) (t u : Ticket) (f : Fingerprint) (a : Artifact) :
    (d.entered t u f a).content (imageName f a.format) = some a.image :=
  content_commit_self _ _ _ _

theorem content_entered_manifestName (d : Folder) (t u : Ticket) (f : Fingerprint) (a : Artifact) :
    (d.entered t u f a).content (manifestName f) = some (Manifest.ofArtifact f a).write := by
  rw [entered, content_commit_of_ne _ _ _ (imageName_ne_manifestName f f _).symm
    (isLasting_manifestName f), content_commit_self]

theorem runs_store {s : ArtifactStore} {f : Fingerprint} {a : Artifact} {t u : Ticket}
    (henabled : s.enabled = true) (himage : d.content (imageName f a.format) = none)
    (ht : t ∉ d.issued) (hu : u ∉ t :: d.issued) :
    d.Runs (s.store f a) (.ok true) (d.entered t u f a) := by
  unfold store
  rw [if_neg (not_not.mpr henabled)]
  refine .take (step_isFile_none himage) ?_
  refine Runs.bind (runs_writeFile s _ ht) ?_
  exact Runs.bind (runs_writeFile s _ hu) (.done _ _)

/-- A store writes nothing if the image is there. -/
theorem runs_store_of_image {s : ArtifactStore} {f : Fingerprint} {a : Artifact} {image : Bytes}
    (himage : d.content (imageName f a.format) = some image) :
    d.Runs (s.store f a) (.ok false) d := by
  unfold store
  split
  · exact .done _ _
  · exact .take (step_isFile_some himage) (.done _ _)

theorem runs_load {s : ArtifactStore} {f : Fingerprint} {a : Artifact}
    (hsize : a.image.length < Number.limit64) (henabled : s.enabled = true)
    (hmanifest : d.content (manifestName f) = some (Manifest.ofArtifact f a).write)
    (himage : d.content (imageName f a.format) = some a.image) :
    d.Runs (s.load f) (.ok (some a)) d := by
  unfold load
  rw [if_neg (not_not.mpr henabled)]
  refine .take (.read hmanifest) ?_
  simp only [Manifest.read?_write_ofArtifact f hsize]
  refine .take (.read himage) ?_
  simp only [Manifest.damage?_ofArtifact, Manifest.artifact_ofArtifact]
  exact .done _ _

/-- And it finds nothing else. -/
theorem result_of_runs_load {s : ArtifactStore} {f : Fingerprint} {a : Artifact}
    {result : Except StoreFailure (Option Artifact)}
    (hsize : a.image.length < Number.limit64) (henabled : s.enabled = true)
    (hmanifest : d.content (manifestName f) = some (Manifest.ofArtifact f a).write)
    (himage : d.content (imageName f a.format) = some a.image)
    (h : d.Runs (s.load f) result d') : result = .ok (some a) := by
  unfold load at h
  rw [if_neg (not_not.mpr henabled)] at h
  obtain ⟨reply, after, hfirst, hrest⟩ := h.of_take
  obtain ⟨rfl, rfl⟩ := eq_of_step_read hfirst hmanifest
  simp only [Manifest.read?_write_ofArtifact f hsize] at hrest
  obtain ⟨reply, last, hsecond, hend⟩ := hrest.of_take
  obtain ⟨rfl, rfl⟩ := eq_of_step_read hsecond himage
  simp only [Manifest.damage?_ofArtifact, Manifest.artifact_ofArtifact] at hend
  exact hend.of_pure.1

theorem runs_load_of_no_manifest {s : ArtifactStore} {f : Fingerprint}
    (hmanifest : d.content (manifestName f) = none) : d.Runs (s.load f) (.ok none) d := by
  unfold load
  split
  · exact .done _ _
  · exact .take (.readNothing hmanifest) (.done _ _)

theorem runs_contains_of_image {s : ArtifactStore} {f : Fingerprint} {format : ImageFormat}
    {image : Bytes} (henabled : s.enabled = true)
    (himage : d.content (imageName f format) = some image) : d.Runs (s.contains f) true d := by
  have hformats (formats : List ImageFormat) (hmem : format ∈ formats) :
      d.Runs (hasImage f formats) true d := by
    induction formats with
    | nil => exact nomatch hmem
    | cons first rest ih =>
      cases hfirst : d.content (imageName f first) with
      | some bytes => exact .take (step_isFile_some hfirst) (.done _ _)
      | none =>
        refine .take (step_isFile_none hfirst) (ih ?_)
        rcases List.mem_cons.mp hmem with rfl | hrest
        · exact nomatch hfirst.symm.trans himage
        · exact hrest
  unfold contains
  rw [if_pos henabled]
  exact hformats _ (by cases format <;> decide)

theorem deleteAll_append (names others : List String) :
    deleteAll (names ++ others) = deleteAll names >>= fun _ => deleteAll others := by
  induction names with
  | nil => rfl
  | cons name rest ih =>
    rw [List.cons_append, deleteAll, ih]
    rfl

theorem runs_deleteAll_of_none {names : List String} (h : ∀ name ∈ names, d.content name = none) :
    d.Runs (deleteAll names) () d := by
  induction names with
  | nil => exact .done _ _
  | cons name rest ih =>
    exact .take (.deleteNothing (h name List.mem_cons_self))
      (ih fun name hname => h name (List.mem_cons_of_mem _ hname))

end Folder

namespace Sharing

theorem put_of_calls_eq {s : Sharing} {i : Nat} {call : Option Visit} (h : s.calls i = call) :
    s.put i call s.folder = s := by
  have hcalls : (s.put i call s.folder).calls = s.calls := by
    funext j
    by_cases hj : j = i
    · rw [hj, calls_put_self, h]
    · exact s.calls_put_of_ne call _ hj
  exact congrArg (Sharing.mk s.folder) hcalls

theorem put_put (s : Sharing) (i : Nat) (call call' : Option Visit) (d d' : Folder) :
    (s.put i call d).put i call' d' = s.put i call' d' := by
  have hcalls : ((s.put i call d).put i call' d').calls = (s.put i call' d').calls := by
    funext j
    by_cases hj : j = i
    · rw [hj, calls_put_self, calls_put_self]
    · simp only [calls_put_of_ne _ _ _ hj]
  exact congrArg (Sharing.mk d') hcalls

/-- A call goes on while nobody else takes a step, through states that are all good. -/
theorem reaches_of_runs {rules : Rules} {good : Sharing → Prop} {α : Type} {s : Sharing} {i : Nat}
    {request : StoreRequest} {part : Filing α} {next : α → Filing StoreReply} {a : α} {d : Folder}
    (hgood : ∀ rest d, good (s.put i (some ⟨request, rest⟩) d))
    (hcall : s.calls i = some ⟨request, part >>= next⟩) (hruns : s.folder.Runs part a d) :
    Relation.ReflTransGen (fun s s' => Next rules s s' ∧ good s') s
      (s.put i (some ⟨request, next a⟩) d) := by
  generalize hfolder : s.folder = before at hruns
  induction hruns generalizing s with
  | done _ a =>
    subst hfolder
    rw [put_of_calls_eq (show s.calls i = some ⟨request, next a⟩ from hcall)]
  | @ask _ after _ op more reply _ hstep _ ih =>
    subst hfolder
    have hask : s.calls i = some ⟨request, .ask op fun reply => more reply >>= next⟩ := hcall
    have hgood' (rest : Filing StoreReply) (d : Folder) :
        good ((s.put i (some ⟨request, more reply >>= next⟩) after).put i
          (some ⟨request, rest⟩) d) := by
      rw [put_put]
      exact hgood rest d
    have hrest := ih hgood' (s.calls_put_self ..) rfl
    rw [put_put] at hrest
    exact .head ⟨.turn hask (.inl hstep), hgood _ _⟩ hrest

/-- A call enters where nobody is and goes on to its end while nobody else takes a step. -/
theorem reaches_served {rules : Rules} {good : Sharing → Prop} {s : Sharing} {i : Nat}
    {request : StoreRequest} {store : ArtifactStore} {reply : StoreReply} {d : Folder}
    (hgood : ∀ rest d, good (s.put i (some ⟨request, rest⟩) d)) (hfree : s.calls i = none)
    (hallows : rules.allows request) (hruns : s.folder.Runs (request.program store) reply d) :
    Relation.ReflTransGen (fun s s' => Next rules s s' ∧ good s') s
      (s.put i (some ⟨request, .done reply⟩) d) := by
  have hcall : (s.put i (some ⟨request, request.program store⟩) s.folder).calls i =
      some ⟨request, request.program store >>= pure⟩ := by
    rw [calls_put_self, bind_pure]
  have hrest := @reaches_of_runs rules good _ _ i request _ pure reply d
    (fun rest d => by rw [put_put]; exact hgood rest d) hcall hruns
  rw [put_put] at hrest
  exact .head ⟨.enter store hfree hallows, hgood _ _⟩ hrest

end Sharing
end KernelDepot
