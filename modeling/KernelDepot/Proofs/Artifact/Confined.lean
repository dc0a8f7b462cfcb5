/-
The files of a fingerprint.

They are the manifest and the images, and the temporary files under which these are written.
What a store is asked about a fingerprint it does with these files alone, whatever each step
replies (`StoreQuery.asksOnly_program`), and no file is one of two fingerprints
(`IsFileOf.unique`).
-/
import KernelDepot.Artifact.Catalogue
import KernelDepot.Proofs.Artifact.Names
import KernelDepot.Proofs.Program

namespace KernelDepot

open ArtifactStore

namespace ArtifactStore

/-! ## Whose file it is -/

/-- The names under which the files of a fingerprint are kept, and those under which they are
written. -/
def IsFileOf (f : Fingerprint) (name : String) : Prop :=
  name ∈ namesOf f ∨ ∃ target ∈ namesOf f, ∃ t, name = temporaryName target t

variable {f g : Fingerprint} {name : String}

theorem isFileOf_manifestName (f : Fingerprint) : IsFileOf f (manifestName f) :=
  .inl (mem_namesOf.mpr (.inl rfl))

theorem isFileOf_imageName (f : Fingerprint) (format : ImageFormat) :
    IsFileOf f (imageName f format) :=
  .inl (mem_namesOf.mpr (.inr ⟨format, rfl⟩))

theorem IsFileOf.isPlain (h : IsFileOf f name) : Path.IsPlain name := by
  rcases h with h | ⟨target, h, t, rfl⟩
  · exact isPlain_of_mem_namesOf h
  · exact isPlain_temporaryName h t

theorem IsFileOf.unique (hf : IsFileOf f name) (hg : IsFileOf g name) : f = g := by
  rcases hf with hf | ⟨target, hf, t, rfl⟩
  · obtain ⟨ext, rfl, -⟩ := exists_eq_hex_append hf
    rcases hg with hg | ⟨target', hg, t', hname⟩
    · obtain ⟨ext', hname, -⟩ := exists_eq_hex_append hg
      exact (hex_append_inj hname).1
    · exact absurd hname.symm (temporaryName_ne_hex_append target' t' f ext)
  · obtain ⟨ext, rfl, -⟩ := exists_eq_hex_append hf
    rcases hg with hg | ⟨target', hg, t', hname⟩
    · obtain ⟨ext', hname, -⟩ := exists_eq_hex_append hg
      exact absurd hname (temporaryName_ne_hex_append _ t g ext')
    · -- Both names go on with a fingerprint after the point.
      obtain ⟨ext', rfl, -⟩ := exists_eq_hex_append hg
      unfold temporaryName at hname
      simp only [String.append_assoc] at hname
      exact (hex_append_inj (String.append_right_inj _ |>.mp hname)).1

theorem IsFileOf.not_mem (h : IsFileOf f name) (hne : f ≠ g) : ¬ IsFileOf g name :=
  fun hg => hne (h.unique hg)

end ArtifactStore

/-! ## What is done to the files -/

/-- A step names files of one fingerprint only.  The whole directory is not listed or measured
for one fingerprint. -/
def FileOp.IsAt (f : Fingerprint) : FileOp → Prop
  | isFile name | read name | write name _ | delete name => IsFileOf f name
  | rename source target => IsFileOf f source ∧ IsFileOf f target
  | ticket => True
  | list | size _ => False

theorem FileOp.asksOnly_take {f : Fingerprint} (op : FileOp) (h : op.IsAt f) :
    op.take.AsksOnly (IsAt f) :=
  ⟨h, fun _ => trivial⟩

namespace ArtifactStore

open Program FileOp

variable {f : Fingerprint} {name : String}

theorem asksOnly_deleteAll {names : List String} (h : ∀ name ∈ names, IsFileOf f name) :
    (deleteAll names).AsksOnly (FileOp.IsAt f) := by
  induction names with
  | nil => exact asksOnly_pure ()
  | cons name rest ih =>
    obtain ⟨hname, hrest⟩ := List.forall_mem_cons.mp h
    exact (asksOnly_take (.delete name) hname).bind fun _ => ih hrest

theorem asksOnly_remove (s : ArtifactStore) (f : Fingerprint) :
    (s.remove f).AsksOnly (FileOp.IsAt f) := by
  unfold remove
  split
  · exact asksOnly_deleteAll fun _ => .inl
  · exact asksOnly_pure ()

theorem asksOnly_hasImage (f : Fingerprint) (formats : List ImageFormat) :
    (hasImage f formats).AsksOnly (FileOp.IsAt f) := by
  induction formats with
  | nil => exact asksOnly_pure false
  | cons format rest ih =>
    refine (asksOnly_take (.isFile _) (isFileOf_imageName f format)).bind fun found => ?_
    split
    · exact asksOnly_pure true
    · exact ih

theorem asksOnly_contains (s : ArtifactStore) (f : Fingerprint) :
    (s.contains f).AsksOnly (FileOp.IsAt f) := by
  unfold contains
  split
  · exact asksOnly_hasImage f _
  · exact asksOnly_pure false

theorem asksOnly_discard (s : ArtifactStore) (f : Fingerprint) (name : String) (damage : Damage) :
    (s.discard f name damage).AsksOnly (FileOp.IsAt f) :=
  (asksOnly_remove s f).bind fun _ => asksOnly_pure _

theorem asksOnly_load (s : ArtifactStore) (f : Fingerprint) :
    (s.load f).AsksOnly (FileOp.IsAt f) := by
  unfold load
  split
  · exact asksOnly_pure _
  refine (asksOnly_take (.read _) (isFileOf_manifestName f)).bind fun found => ?_
  cases found with
  | error e => exact asksOnly_pure _
  | ok written =>
    simp only
    cases Manifest.read? written with
    | none =>
      refine (asksOnly_contains s f).bind fun found => ?_
      split
      · exact asksOnly_discard s f _ _
      · exact asksOnly_pure _
    | some m =>
      refine (asksOnly_take (.read _) (isFileOf_imageName f m.format)).bind fun found => ?_
      cases found with
      | error e => exact asksOnly_pure _
      | ok image =>
        simp only
        cases m.damage? f image with
        | none => exact asksOnly_pure _
        | some damage => exact asksOnly_discard s f _ damage

theorem asksOnly_writeFile (s : ArtifactStore) (content : Bytes) (h : name ∈ namesOf f) :
    (s.writeFile name content).AsksOnly (FileOp.IsAt f) := by
  unfold writeFile
  refine (asksOnly_take .ticket trivial).bind fun t => ?_
  have htemporary : IsFileOf f (temporaryName name t) := .inr ⟨name, h, t, rfl⟩
  have hfailed (e : FileFault) : (do
      let _ ← (FileOp.delete (temporaryName name t)).take
      return .error (.write (s.pathOf name) e) : Filing (Except StoreFailure Unit)).AsksOnly
        (IsAt f) :=
    (asksOnly_take (.delete _) htemporary).bind fun _ => asksOnly_pure _
  refine (asksOnly_take (.write _ content) htemporary).bind fun written => ?_
  cases written with
  | error e => exact hfailed e
  | ok =>
    refine (asksOnly_take (.rename _ name) ⟨htemporary, .inl h⟩).bind fun renamed => ?_
    cases renamed with
    | error e => exact hfailed e
    | ok => exact asksOnly_pure _

theorem asksOnly_store (s : ArtifactStore) (f : Fingerprint) (a : Artifact) :
    (s.store f a).AsksOnly (FileOp.IsAt f) := by
  unfold store
  split
  · exact asksOnly_pure _
  refine (asksOnly_take (.isFile _) (isFileOf_imageName f a.format)).bind fun found => ?_
  split
  · exact asksOnly_pure _
  refine (asksOnly_writeFile s _ (mem_namesOf.mpr (.inl rfl))).bind fun written => ?_
  cases written with
  | error e => exact asksOnly_pure _
  | ok =>
    refine (asksOnly_writeFile s _ (mem_namesOf.mpr (.inr ⟨_, rfl⟩))).bind fun written => ?_
    cases written <;> exact asksOnly_pure _

end ArtifactStore

/-- Whatever the directory replies, a query about one fingerprint works on the files of that
fingerprint. -/
theorem StoreQuery.asksOnly_program (s : ArtifactStore) {q : StoreQuery} {f : Fingerprint}
    (hq : q.concerns f = true) (hclear : q ≠ .request .clear) :
    (q.program s).AsksOnly (FileOp.IsAt f) := by
  cases q with
  | request r =>
    refine Program.AsksOnly.bind ?_ fun _ => Program.asksOnly_pure _
    cases r with
    | store g a =>
      obtain rfl : g = f := of_decide_eq_true hq
      exact (asksOnly_store s g a).bind fun _ => Program.asksOnly_pure _
    | load g =>
      obtain rfl : g = f := of_decide_eq_true hq
      exact (asksOnly_load s g).bind fun _ => Program.asksOnly_pure _
    | remove g =>
      obtain rfl : g = f := of_decide_eq_true hq
      exact (asksOnly_remove s g).bind fun _ => Program.asksOnly_pure _
    | clear => exact absurd rfl hclear
  | contains g =>
    obtain rfl : g = f := of_decide_eq_true hq
    exact (asksOnly_contains s g).bind fun _ => Program.asksOnly_pure _
  | stats => exact absurd hq Bool.false_ne_true

end KernelDepot
