/-
The files of different fingerprints are separate.

A program that asks for the files of a fingerprint only leaves all other files of an orderly
directory as they are (`content_run_of_asksOnly`).  So whatever is asked about other
fingerprints, the files of one stay as they are and a look-up answers as before
(`run_load_perform`).
-/
import KernelDepot.Proofs.Artifact.Committed
import KernelDepot.Proofs.Artifact.Confined

namespace KernelDepot

open ArtifactStore

namespace ArtifactStore

theorem not_mem_namesOf {f g : Fingerprint} (hne : g ≠ f) {name : String}
    (hname : name ∈ namesOf g) : name ∉ namesOf f := fun hf =>
  hne (IsFileOf.unique (.inl hname) (.inl hf))

theorem lookUp_congr (s : ArtifactStore) {before after : String → Option Bytes} {f : Fingerprint}
    (h : ∀ name ∈ namesOf f, after name = before name) : s.lookUp after f = s.lookUp before f := by
  have hmanifest := h _ (mem_namesOf.mpr (.inl rfl))
  have himage (format : ImageFormat) := h _ (mem_namesOf.mpr (.inr ⟨format, rfl⟩))
  unfold lookUp
  simp only [hmanifest, himage]

end ArtifactStore

namespace KeptFiles

variable {σ α : Type} {files : FileHandler σ} {k : KeptFiles files} {s : ArtifactStore}
  {f g : Fingerprint} {a : Artifact} {x : σ} {name : String}

/-- A step that names files of a fingerprint leaves every other file alone. -/
theorem IsOrderly.content_step (h : k.IsOrderly) (hname : ¬ IsFileOf f name) (op : FileOp)
    (hop : op.IsAt f) (x : σ) : k.content (files op x).2 name = k.content x name := by
  have hne {named : String} (hnamed : IsFileOf f named) : name ≠ named :=
    fun heq => hname (heq ▸ hnamed)
  cases op with
  | isFile named => exact congrFun (k.content_isFile x named hop.isPlain) name
  | read named => exact congrFun (k.content_read x named hop.isPlain) name
  | write named bytes => exact h.write_of_ne x named bytes name hop.isPlain (hne hop)
  | rename source target =>
    exact h.rename_of_ne x source target name hop.1.isPlain hop.2.isPlain (hne hop.1) (hne hop.2)
  | delete named => exact h.delete_of_ne x named name hop.isPlain (hne hop)
  | ticket => exact congrFun (h.content_ticket x) name
  | list => exact hop.elim
  | size => exact hop.elim

theorem IsOrderly.content_run_of_asksOnly (h : k.IsOrderly) {p : Filing α}
    (hp : p.AsksOnly (FileOp.IsAt f)) (x : σ) (hname : ¬ IsFileOf f name) :
    k.content (p.run files x).2 name = k.content x name :=
  hp.view_run (k.content · name) (h.content_step hname) x

theorem IsOrderly.content_run_store_of_not_mem (h : k.IsOrderly) (s : ArtifactStore)
    (a : Artifact) (x : σ) (hlasting : IsLasting name) (hname : name ∉ namesOf f) :
    k.content ((s.store f a).run files x).2 name = k.content x name :=
  h.content_run_of_asksOnly (asksOnly_store s f a) x fun hfile =>
    hfile.elim hname fun ⟨target, _, t, heq⟩ => hlasting target t heq

namespace IsReliable

theorem content_run_measure (h : k.IsReliable) {names : List String}
    (hnames : ∀ name ∈ names, Path.IsPlain name) (x : σ) :
    k.content ((ArtifactStore.measure names).run files x).2 = k.content x := by
  induction names generalizing x with
  | nil => rfl
  | cons name rest ih =>
    obtain ⟨hname, hrest⟩ := List.forall_mem_cons.mp hnames
    unfold ArtifactStore.measure FileOp.take
    simp only [Program.run_bind, Program.run_question, Program.run_pure]
    exact (ih hrest _).trans (h.content_size x name hname)

theorem content_run_stats (h : k.IsReliable) (s : ArtifactStore) (x : σ) :
    k.content ((s.stats).run files x).2 = k.content x := by
  unfold stats FileOp.take
  by_cases he : s.enabled = true
  · obtain ⟨names, hnames, -, hmem⟩ := h.list_ok x
    have hplain : ∀ name ∈ names.filter isImageName, Path.IsPlain name :=
      fun name hname => k.isPlain_of_isSome ((hmem name).mp (List.mem_of_mem_filter hname))
    simp only [he, not_true, if_false, Program.run_bind, Program.run_question, hnames]
    exact (h.content_run_measure hplain _).trans (h.content_list x)
  · simp only [he]
    rfl

/-- A query that does not concern a fingerprint leaves its files alone. -/
theorem content_run_query (h : k.IsReliable) (s : ArtifactStore) {q : StoreQuery}
    (hq : q.concerns g = false) (x : σ) (hname : IsFileOf g name) :
    k.content ((q.program s).run files x).2 name = k.content x name := by
  have hother {q : StoreQuery} {f : Fingerprint} (hf : decide (f = g) = false)
      (hq : q.concerns f = true) (hclear : q ≠ .request .clear) :
      k.content ((q.program s).run files x).2 name = k.content x name :=
    h.content_run_of_asksOnly (StoreQuery.asksOnly_program s hq hclear) x
      (hname.not_mem (Ne.symm (of_decide_eq_false hf)))
  cases q with
  | request r =>
    cases r with
    | store f a => exact hother hq (decide_eq_true rfl) nofun
    | load f => exact hother hq (decide_eq_true rfl) nofun
    | remove f => exact hother hq (decide_eq_true rfl) nofun
    | clear => exact nomatch hq
  | contains f => exact hother hq (decide_eq_true rfl) nofun
  | stats =>
    simp only [StoreQuery.program, Program.run_bind, Program.run_pure]
    exact congrFun (h.content_run_stats s x) name

theorem content_perform (h : k.IsReliable) (s : ArtifactStore) {qs : List StoreQuery}
    (hqs : ∀ q ∈ qs, q.concerns g = false) (x : σ) (hname : IsFileOf g name) :
    k.content ((s.perform qs).run files x).2 name = k.content x name := by
  induction qs generalizing x with
  | nil => rfl
  | cons q qs ih =>
    obtain ⟨hq, hrest⟩ := List.forall_mem_cons.mp hqs
    unfold perform
    simp only [Program.run_bind, Program.run_pure]
    exact (ih hrest _).trans (h.content_run_query s hq x hname)

/-- What is asked about other fingerprints makes no difference to a look-up. -/
theorem run_load_perform (h : k.IsReliable) (s : ArtifactStore) {qs : List StoreQuery}
    (hqs : ∀ q ∈ qs, q.concerns g = false) (x : σ) :
    ((s.load g).run files ((s.perform qs).run files x).2).1 = ((s.load g).run files x).1 := by
  rw [h.run_load_eq_lookUp, h.run_load_eq_lookUp]
  exact lookUp_congr s fun name hname => h.content_perform s hqs x (.inl hname)

end IsReliable
end KeptFiles
end KernelDepot
