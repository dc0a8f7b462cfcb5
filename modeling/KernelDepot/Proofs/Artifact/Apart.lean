/-
Stores and removals that keep apart, and those that do not.

As long as no removal of a fingerprint is under way together with a store of it, every image
has its manifest (`Sharing.manifest_of_image`).  The order of the steps alone is not enough:
a whole store fits between the deletions of a removal, and what is left is an image without
a manifest (`Sharing.exists_image_without_manifest`).  It stays, because a look-up does not
find it and a store does not write it again (`Sharing.orphan_stays`).  `Shared.exists_orphan` is
one such state.
-/
import KernelDepot.Proofs.Artifact.Described

namespace KernelDepot

open ArtifactStore

variable {art : Fingerprint → Artifact} {f : Fingerprint} {request : StoreRequest}

/-- No removal of a fingerprint is under way together with a store of it. -/
def Sharing.IsApart (f : Fingerprint) (s : Sharing) : Prop :=
  ∀ i j v w a, s.calls i = some v → s.calls j = some w → v.IsUnderWay → w.IsUnderWay →
    v.request = .remove f → w.request ≠ .store f a

namespace Sharing

theorem admits_of_isApart (hsize : ∀ f, (art f).image.length < Number.limit64)
    {marks : Nat → Part} {s : Sharing} {i : Nat} {store : ArtifactStore}
    (h : (Accord.described art f).Covers marks s)
    (hallows : (Rules.plain art).allows request)
    (hapart : (s.put i (some ⟨request, request.program store⟩) s.folder).IsApart f) :
    (Accord.described art f).Admits marks s i ⟨request, request.program store⟩ := by
  by_cases hway : Visit.IsUnderWay ⟨request, request.program store⟩
  · refine ⟨Part.first f request, Part.relies_first f request _, fun j hj => ?_,
      Part.fits_first f request, heeds_plain hsize store hallows⟩
    by_cases hidle : marks j = .idle
    · rw [hidle]
      exact Part.isBeside_idle _
    · have hbusy : ∃ w, s.calls j = some w ∧ w.IsUnderWay := by
        by_contra hquiet
        exact hidle ((h.minds j).quiet fun w hw hunder => hquiet ⟨w, hw, hunder⟩)
      obtain ⟨w, hw, hunder⟩ := hbusy
      have hfits : (marks j).Fits f w.request := (h.minds j).fits w hw
      have hcall : (s.put i (some ⟨request, request.program store⟩) s.folder).calls j = some w :=
        (s.calls_put_of_ne _ _ hj).trans hw
      have hself := s.calls_put_self i (some ⟨request, request.program store⟩) s.folder
      refine Part.isBeside_first hfits ?_ ?_
      · intro hremove a
        exact hapart i j _ w a hself hcall hway hunder hremove
      · intro hremove a
        exact hapart j i w _ a hcall hself hunder hway hremove
  · -- A call that ends at once has no part.
    obtain ⟨reply, hdone⟩ := not_forall_not.mp hway
    have hheeds : (Accord.described art f).Heeds request .idle (.done reply) := trivial
    exact ⟨.idle, trivial, fun _ _ => trivial, trivial, hdone ▸ hheeds⟩

theorem Next.lenient {s s' : Sharing} (h : Next (.plain art) s s') : Next (.lenient art) s s' := by
  cases h with
  | enter store hfree hallows => exact .enter store hfree hallows.1
  | turn hcall hstep => exact .turn hcall (.inl (hstep.resolve_right And.left))
  | leave i => exact .leave _ i

theorem isWhole_of_reachable (hsize : ∀ f, (art f).image.length < Number.limit64) {s : Sharing}
    (h : Reachable (.plain art) s) : s.folder.IsWhole art := by
  obtain ⟨marks, hcovers⟩ :=
    exists_covers_whole hsize (Relation.ReflTransGen.mono (fun _ _ => Next.lenient) _ _ h)
  exact hcovers.keeps

theorem isApart_of_run {s : Sharing}
    (hrun : Relation.ReflTransGen (fun s s' => Next (.plain art) s s' ∧ s'.IsApart f) {} s) :
    s.IsApart f := by
  cases hrun with
  | refl => exact fun _ _ _ _ _ => nofun
  | tail _ hnext => exact hnext.2

theorem exists_covers_described (hsize : ∀ f, (art f).image.length < Number.limit64) {s : Sharing}
    (hrun : Relation.ReflTransGen (fun s s' => Next (.plain art) s s' ∧ s'.IsApart f) {} s) :
    ∃ marks, (Accord.described art f).Covers marks s := by
  have hgood : Relation.ReflTransGen (fun s s' => (s.IsApart f ∧ s.folder.IsWhole art) ∧
      Next (.plain art) s s' ∧ s'.IsApart f ∧ s'.folder.IsWhole art) {} s := by
    induction hrun with
    | refl => exact .refl
    | @tail s s' hrun hnext ih =>
      have hreach : Reachable (.plain art) s :=
        Relation.ReflTransGen.mono (fun _ _ => And.left) _ _ hrun
      exact ih.tail ⟨⟨isApart_of_run hrun, isWhole_of_reachable hsize hreach⟩, hnext.1, hnext.2,
        isWhole_of_reachable hsize (hreach.tail hnext.1)⟩
  refine Accord.exists_covers hgood (fun _ => rfl) (fun _ => nofun) id (fun _ h => h.2) ?_
  intro marks s i store request h _ hallows hapart
  exact admits_of_isApart hsize h hallows hapart.1

/-- As long as no removal of a fingerprint is under way together with a store of it, its image
is there only with the manifest that describes it, and a look-up finds the artifact. -/
theorem manifest_of_image (hsize : ∀ f, (art f).image.length < Number.limit64) {s : Sharing}
    (hrun : Relation.ReflTransGen (fun s s' => Next (.plain art) s s' ∧ s'.IsApart f) {} s)
    {format : ImageFormat} {image : Bytes}
    (himage : s.folder.content (imageName f format) = some image) :
    s.folder.content (manifestName f) = some (Manifest.ofArtifact f (art f)).write ∧
      format = (art f).format ∧ image = (art f).image ∧
      ∀ (store : ArtifactStore) result d, store.enabled = true →
        s.folder.Runs (store.load f) result d → result = .ok (some (art f)) := by
  have hwhole : s.folder.IsWhole art :=
    isWhole_of_reachable hsize (Relation.ReflTransGen.mono (fun _ _ => And.left) _ _ hrun)
  obtain ⟨marks, hcovers⟩ := exists_covers_described hsize hrun
  have hthere : (s.folder.content (manifestName f)).isSome :=
    hcovers.keeps format (Option.isSome_iff_exists.mpr ⟨image, himage⟩)
  obtain ⟨written, hwritten⟩ := Option.isSome_iff_exists.mp hthere
  have hmanifest : written = (Manifest.ofArtifact f (art f)).write :=
    (hwhole _ _ hwritten).manifest f rfl
  obtain ⟨rfl, rfl⟩ := (hwhole _ _ himage).image f format rfl
  rw [hmanifest] at hwritten
  exact ⟨hwritten, rfl, rfl, fun store result d henabled hruns =>
    Folder.result_of_runs_load (hsize f) henabled hwritten himage hruns⟩

end Sharing

namespace Shared

theorem run_stored : Relation.ReflTransGen
    (fun s s' => Sharing.Next (.plain only) s s' ∧ s'.IsApart fingerprint) {} stored := by
  refine @Sharing.reaches_served (.plain only) (·.IsApart fingerprint) {} 0
    (.store fingerprint artifact) store _ _ ?_ rfl ⟨rfl, nofun⟩ runs_store
  intro rest d i j v w a hv _ _ _ hremove
  -- The only call there is stores.
  by_cases hi : i = 0
  · subst hi
    obtain rfl := Option.some.inj ((Sharing.calls_put_self ..).symm.trans hv)
    exact nomatch hremove
  · rw [Sharing.calls_put_of_ne _ _ _ hi] at hv
    exact nomatch hv

theorem manifest_of_image_stored : (∀ f, (only f).image.length < Number.limit64) ∧
    Relation.ReflTransGen
      (fun s s' => Sharing.Next (.plain only) s s' ∧ s'.IsApart fingerprint) {} stored ∧
    stored.folder.content (imageName fingerprint .ptx) = some artifact.image ∧
    stored.folder.content (manifestName fingerprint) =
      some (Manifest.ofArtifact fingerprint artifact).write :=
  ⟨length_image, run_stored, Folder.content_entered_imageName ..,
    (Sharing.manifest_of_image length_image run_stored (Folder.content_entered_imageName ..)).1⟩

end Shared

/-! ## A store between the deletions of a removal -/

namespace Mixed

variable (art : Fingerprint → Artifact) (f : Fingerprint)

def store : ArtifactStore := ⟨"cache", true⟩

/-- What is left to do of a removal that has deleted the images. -/
def rest : Filing StoreReply := do
  deleteAll [manifestName f]
  return .removed

def begun : Sharing := ({} : Sharing).put 0 (some ⟨.remove f, rest f⟩) {}

def stored : Sharing :=
  (begun f).put 1 (some ⟨.store f (art f), .done (.stored (.ok true))⟩)
    (Folder.entered {} ⟨1, 0⟩ ⟨1, 1⟩ f (art f))

def orphaned : Sharing :=
  (stored art f).put 0 (some ⟨.remove f, .done .removed⟩)
    ((stored art f).folder.set (manifestName f) none)

theorem program_remove : StoreRequest.program store (.remove f) =
    deleteAll (ImageFormat.all.map (imageName f)) >>= fun _ => rest f := by
  have hremove : store.remove f =
      deleteAll (ImageFormat.all.map (imageName f) ++ [manifestName f]) := rfl
  rw [StoreRequest.program, hremove, Folder.deleteAll_append, bind_assoc]
  rfl

theorem reaches_begun : Relation.ReflTransGen
    (fun s s' => Sharing.Next (.plain art) s s' ∧ True) {} (begun f) := by
  have hcall : (({} : Sharing).put 0 (some ⟨.remove f, StoreRequest.program store (.remove f)⟩)
      {}).calls 0 = some ⟨.remove f, deleteAll (ImageFormat.all.map (imageName f)) >>=
        fun _ => rest f⟩ := by
    rw [Sharing.calls_put_self, program_remove]
  have hrest := @Sharing.reaches_of_runs (.plain art) (fun _ => True) _ _ 0 _ _ _ () {}
    (fun _ _ => trivial) hcall (Folder.runs_deleteAll_of_none fun _ _ => rfl)
  rw [Sharing.put_put] at hrest
  have hallows : (Sharing.Rules.plain art).allows (.remove f) := ⟨trivial, nofun⟩
  exact .head ⟨.enter store rfl hallows, trivial⟩ hrest

theorem reaches_stored : Relation.ReflTransGen
    (fun s s' => Sharing.Next (.plain art) s s' ∧ True) (begun f) (stored art f) := by
  have hallows : (Sharing.Rules.plain art).allows (.store f (art f)) := ⟨rfl, nofun⟩
  have htickets : (⟨1, 1⟩ : Ticket) ∉ [⟨1, 0⟩] := by decide
  have hruns : (begun f).folder.Runs (StoreRequest.program store (.store f (art f)))
      (.stored (.ok true)) (Folder.entered {} ⟨1, 0⟩ ⟨1, 1⟩ f (art f)) :=
    (Folder.runs_store rfl rfl List.not_mem_nil htickets).bind (.done _ _)
  exact @Sharing.reaches_served (.plain art) (fun _ => True) (begun f) 1 _ store _ _
    (fun _ _ => trivial) rfl hallows hruns

theorem reaches_orphaned : Relation.ReflTransGen
    (fun s s' => Sharing.Next (.plain art) s s' ∧ True) (stored art f) (orphaned art f) := by
  have hruns : (stored art f).folder.Runs (deleteAll [manifestName f]) ()
      ((stored art f).folder.set (manifestName f) none) :=
    .take (.delete (Folder.content_entered_manifestName ..)) (.done _ _)
  exact @Sharing.reaches_of_runs (.plain art) (fun _ => True) _ (stored art f) 0 (.remove f) _
    (fun _ => pure .removed) () _ (fun _ _ => trivial) rfl hruns

theorem content_orphaned_imageName : (orphaned art f).folder.content (imageName f (art f).format) =
    some (art f).image :=
  (Folder.content_set_of_ne _ _ (imageName_ne_manifestName f f _)).trans
    (Folder.content_entered_imageName ..)

theorem content_orphaned_manifestName :
    (orphaned art f).folder.content (manifestName f) = none :=
  Folder.content_set_self ..

theorem not_isUnderWay_orphaned {i : Nat} {v : Visit} (h : (orphaned art f).calls i = some v) :
    ¬ v.IsUnderWay := by
  by_cases h₀ : i = 0
  · subst h₀
    obtain rfl := Option.some.inj ((Sharing.calls_put_self ..).symm.trans h)
    exact fun hway => hway _ rfl
  rw [orphaned, Sharing.calls_put_of_ne _ _ _ h₀] at h
  by_cases h₁ : i = 1
  · subst h₁
    obtain rfl := Option.some.inj ((Sharing.calls_put_self ..).symm.trans h)
    exact fun hway => hway _ rfl
  rw [stored, Sharing.calls_put_of_ne _ _ _ h₁, begun, Sharing.calls_put_of_ne _ _ _ h₀] at h
  exact nomatch h

end Mixed

/-- A store and a removal of the same fingerprint, each of which takes its steps in order, can
leave an image without a manifest, and then all calls have ended.  The entry is there, a
look-up finds nothing, and a store writes nothing. -/
theorem Sharing.exists_image_without_manifest (art : Fingerprint → Artifact) (f : Fingerprint) :
    ∃ s, Reachable (.plain art) s ∧ (∀ i v, s.calls i = some v → ¬ v.IsUnderWay) ∧
      s.folder.content (imageName f (art f).format) = some (art f).image ∧
      s.folder.content (manifestName f) = none ∧
      ∀ store : ArtifactStore, store.enabled = true →
        s.folder.Runs (store.contains f) true s.folder ∧
        s.folder.Runs (store.load f) (.ok none) s.folder ∧
        s.folder.Runs (store.store f (art f)) (.ok false) s.folder := by
  have himage := Mixed.content_orphaned_imageName art f
  have hmanifest := Mixed.content_orphaned_manifestName art f
  have hrun := ((Mixed.reaches_begun art f).trans (Mixed.reaches_stored art f)).trans
    (Mixed.reaches_orphaned art f)
  have hreach : Reachable (.plain art) (Mixed.orphaned art f) :=
    Relation.ReflTransGen.mono (fun _ _ => And.left) _ _ hrun
  refine ⟨Mixed.orphaned art f, hreach, fun _ _ => Mixed.not_isUnderWay_orphaned art f, himage,
    hmanifest, fun store henabled => ⟨?_, ?_, ?_⟩⟩
  · exact Folder.runs_contains_of_image henabled himage
  · exact Folder.runs_load_of_no_manifest hmanifest
  · exact Folder.runs_store_of_image himage

/-! ## An image that nobody gets rid of -/

/-- Look-ups of a fingerprint and stores of its artifact, and no step fails. -/
def Sharing.Rules.retrying (f : Fingerprint) (a : Artifact) : Rules :=
  ⟨fun request => request = .load f ∨ request = .store f a, False⟩

/-- Nobody touches the image or writes the manifest. -/
def Accord.orphan (f : Fingerprint) (a : Artifact) (image : Bytes) : Accord Unit where
  faults := False
  known _ := True
  keeps d := d.content (imageName f a.format) = some image ∧ d.content (manifestName f) = none
  relies _ _ := True
  beside _ _ := True
  fits _ _ := True
  promises
    | .load _, reply => reply = .loaded (.ok none)
    | .store _ _, reply => reply = .stored (.ok false)
    | _, _ => True
  idle := ()
  beside_symm _ := trivial
  relies_idle _ := trivial
  beside_idle _ := trivial
  fits_idle _ := trivial

theorem passes_orphan {a : Artifact} {image : Bytes} {d : Folder}
    (h : (Accord.orphan f a image).keeps d) : (Accord.orphan f a image).Passes () () d d :=
  ⟨h, trivial, fun _ _ _ => ⟨trivial, trivial⟩⟩

theorem heeds_orphan {a : Artifact} {image : Bytes} (s : ArtifactStore)
    (h : (Sharing.Rules.retrying f a).allows request) :
    (Accord.orphan f a image).Heeds request () (request.program s) := by
  rcases h with rfl | rfl
  · have hload : (Accord.orphan f a image).Follows (fun _ => True)
        (fun result _ => result = .ok none) () (s.load f) := by
      unfold load
      split
      · exact rfl
      · intro d reply d' _ _ hkeeps _ hstep
        cases hstep.resolve_right And.left with
        | read hbytes => exact nomatch hkeeps.2.symm.trans hbytes
        | readNothing => exact ⟨(), passes_orphan hkeeps, trivial, rfl⟩
    exact hload.bind fun result _ hresult => congrArg StoreReply.loaded hresult
  · have hstore : (Accord.orphan f a image).Follows (fun _ => True)
        (fun result _ => result = .ok false) () (s.store f a) := by
      unfold ArtifactStore.store
      split
      · exact rfl
      · intro d reply d' _ _ hkeeps _ hstep
        cases hstep.resolve_right And.left
        refine ⟨(), passes_orphan hkeeps, trivial, ?_⟩
        simp only [hkeeps.1]
        exact rfl
    exact hstore.bind fun result _ hresult => congrArg StoreReply.stored hresult

/-- An image without a manifest stays as long as its fingerprint is only looked up and stored:
every look-up finds nothing, and no store writes anything. -/
theorem Sharing.orphan_stays {a : Artifact} {image : Bytes} {d : Folder}
    (himage : d.content (imageName f a.format) = some image)
    (hmanifest : d.content (manifestName f) = none) {s : Sharing}
    (hrun : Relation.ReflTransGen (Next (.retrying f a)) ⟨d, fun _ => none⟩ s) :
    s.folder.content (imageName f a.format) = some image ∧
      s.folder.content (manifestName f) = none ∧
      ∀ i reply, (s.calls i = some ⟨.load f, .done reply⟩ → reply = .loaded (.ok none)) ∧
        (s.calls i = some ⟨.store f a, .done reply⟩ → reply = .stored (.ok false)) := by
  have hcovers : ∃ marks, (Accord.orphan f a image).Covers marks s := by
    refine Accord.exists_covers_of_reaches hrun (fun _ => rfl) ⟨himage, hmanifest⟩ id
      (fun _ => trivial) ?_
    intro marks s i store request _ hallows
    exact ⟨(), trivial, fun _ _ => trivial, trivial, heeds_orphan store hallows⟩
  obtain ⟨marks, h⟩ := hcovers
  refine ⟨h.keeps.1, h.keeps.2, fun i reply => ⟨fun hcall => ?_, fun hcall => ?_⟩⟩
  · exact (h.minds i).heeds _ hcall
  · exact (h.minds i).heeds _ hcall

/-- A store and a removal of one artifact come to a state in which all calls have ended and the
image is there without its manifest, and so it is after any look-ups and stores that follow. -/
theorem Shared.exists_orphan : ∃ s, Sharing.Reachable (.plain only) s ∧
    (∀ i v, s.calls i = some v → ¬ v.IsUnderWay) ∧
    (s.folder.content (imageName fingerprint .ptx)).isSome ∧
    s.folder.content (manifestName fingerprint) = none ∧
    s.folder.Runs (store.contains fingerprint) true s.folder ∧
    s.folder.Runs (store.load fingerprint) (.ok none) s.folder ∧
    s.folder.Runs (store.store fingerprint artifact) (.ok false) s.folder ∧
    ∀ s', Relation.ReflTransGen (Sharing.Next (.retrying fingerprint artifact))
        ⟨s.folder, fun _ => none⟩ s' →
      (s'.folder.content (imageName fingerprint .ptx)).isSome ∧
        s'.folder.content (manifestName fingerprint) = none := by
  obtain ⟨s, hreach, hended, himage, hmanifest, hrefused⟩ :=
    Sharing.exists_image_without_manifest only fingerprint
  obtain ⟨hcontains, hload, hstore⟩ := hrefused store rfl
  refine ⟨s, hreach, hended, Option.isSome_of_eq_some himage, hmanifest, hcontains, hload, hstore,
    fun s' hrun => ?_⟩
  obtain ⟨himage', hmanifest', -⟩ := Sharing.orphan_stays himage hmanifest hrun
  exact ⟨Option.isSome_of_eq_some himage', hmanifest'⟩

end KernelDepot
