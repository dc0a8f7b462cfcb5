/-
Whoever looks up a fingerprint in a shared store finds its artifact or nothing.

All calls agree on what the files of an entry hold.  A call writes such a file under a name
with a ticket of its own, so nobody else touches it before it is renamed, and nobody reads
it there.  What a call relies on is thus its own temporary file only, which is its `Hold`.
`Sharing.reply_load` is the result: no order of the steps, no failure of a step and no
process that stops makes a look-up find anything else, or find its entry damaged.
-/
import KernelDepot.Proofs.Artifact.Accord
import KernelDepot.Proofs.Artifact.Kept
import KernelDepot.Proofs.Artifact.Undisturbed

namespace KernelDepot

open ArtifactStore

/-- What the files of entries hold if there is one artifact for each fingerprint.  Any other
file may hold anything. -/
structure Belongs (art : Fingerprint → Artifact) (name : String) (bytes : Bytes) : Prop where
  manifest : ∀ f, name = manifestName f → bytes = (Manifest.ofArtifact f (art f)).write
  image : ∀ f format, name = imageName f format → format = (art f).format ∧ bytes = (art f).image

def Folder.IsWhole (art : Fingerprint → Artifact) (d : Folder) : Prop :=
  ∀ name bytes, d.content name = some bytes → Belongs art name bytes

variable {art : Fingerprint → Artifact} {α : Type}

theorem belongs_manifestName (f : Fingerprint) :
    Belongs art (manifestName f) (Manifest.ofArtifact f (art f)).write where
  manifest g h := by
    have hfg : f = g := manifestName_inj h
    rw [hfg]
  image g format h := absurd h.symm (imageName_ne_manifestName g f format)

theorem belongs_imageName (f : Fingerprint) :
    Belongs art (imageName f (art f).format) (art f).image where
  manifest g h := absurd h (imageName_ne_manifestName f g _)
  image g format h := by
    obtain ⟨rfl, rfl⟩ := imageName_inj h
    exact ⟨rfl, rfl⟩

theorem belongs_temporaryName (name : String) (t : Ticket) (bytes : Bytes) :
    Belongs art (temporaryName name t) bytes where
  manifest f h := absurd h.symm (isLasting_manifestName f name t)
  image f format h := absurd h.symm (isLasting_imageName f format name t)

/-! ## The accord -/

/-- What a call has in the folder for itself. -/
inductive Hold where
  | nothing
  /-- A ticket whose temporary file is not written yet. -/
  | ticket (t : Ticket)
  /-- A temporary file, in the place of which there may also be nothing. -/
  | temporary (t : Ticket) (name : String) (content : Bytes)

namespace Hold

def ticket? : Hold → Option Ticket
  | nothing => none
  | ticket t | temporary t _ _ => some t

/-- The ticket was given out, and only the holder has written to its file. -/
structure IsGood (g : Hold) (d : Folder) : Prop where
  issued : ∀ t, g.ticket? = some t → t ∈ d.issued
  own : ∀ t name content, g = temporary t name content →
    ∀ bytes, d.content (temporaryName name t) = some bytes → bytes = content

/-- Nobody else holds the ticket. -/
def IsBeside (g h : Hold) : Prop := ∀ t, g.ticket? = some t → h.ticket? ≠ some t

theorem isGood_nothing (d : Folder) : nothing.IsGood d := ⟨fun _ => nofun, fun _ _ _ => nofun⟩

theorem isGood_ticket {d : Folder} {t : Ticket} (h : t ∈ d.issued) : (ticket t).IsGood d where
  issued u hu := by
    have htu : t = u := Option.some.inj hu
    exact htu ▸ h
  own _ _ _ := nofun

theorem IsGood.of_fades {g : Hold} {d d' : Folder} (h : g.IsGood d)
    (hfades : Fades d'.content d.content) (hissued : d'.issued = d.issued) : g.IsGood d' where
  issued t ht := hissued ▸ h.issued t ht
  own t name content he bytes hbytes :=
    h.own t name content he bytes (hfades.eq_some hbytes)

end Hold

/-- What a look-up may find: nothing, or the artifact, unless a file cannot be read. -/
def IsFinding (a : Artifact) (result : Except StoreFailure (Option Artifact)) : Prop :=
  result = .ok none ∨ result = .ok (some a) ∨ ∃ path e, result = .error (.read path e)

def StoreReply.IsSound (art : Fingerprint → Artifact) : StoreRequest → StoreReply → Prop
  | .load f, reply => ∃ result, reply = .loaded result ∧ IsFinding (art f) result
  | _, _ => True

/-- All calls keep the entries whole, and each writes to its own temporary files only. -/
def Accord.whole (art : Fingerprint → Artifact) : Accord Hold where
  faults := True
  known _ := True
  keeps := Folder.IsWhole art
  relies := Hold.IsGood
  beside := Hold.IsBeside
  fits _ _ := True
  promises := StoreReply.IsSound art
  idle := .nothing
  beside_symm h t ht ht' := h t ht' ht
  relies_idle := Hold.isGood_nothing
  beside_idle _ _ := nofun
  fits_idle _ := trivial

/-- A program keeps the entries whole, and it holds nothing when it ends. -/
def KeepsWhole (art : Fingerprint → Artifact) (ends : α → Prop) (g : Hold) (p : Filing α) : Prop :=
  (Accord.whole art).Follows (fun _ => True) (fun a g => ends a ∧ g = .nothing) g p

/-- What a step may do: what it puts into the folder belongs there, and it goes to a lasting
file or to the file of its own ticket. -/
theorem passes_whole {g g' : Hold} {d d' : Folder} (hwhole : d.IsWhole art)
    (hissued : ∀ t ∈ d.issued, t ∈ d'.issued)
    (hcontent : ∀ name bytes, d'.content name = some bytes → d.content name = some bytes ∨
      Belongs art name bytes ∧ ∀ other t, name = temporaryName other t → g.ticket? = some t)
    (hgood : g'.IsGood d')
    (hticket : ∀ t, g'.ticket? = some t → g.ticket? = some t ∨ t ∉ d.issued) :
    (Accord.whole art).Passes g g' d d' where
  keeps name bytes h := by
    rcases hcontent name bytes h with hold | ⟨hbelongs, -⟩
    · exact hwhole name bytes hold
    · exact hbelongs
  relies := hgood
  others h hbeside hgoodh := by
    constructor
    · constructor
      · intro t ht
        exact hissued t (hgoodh.issued t ht)
      · rintro t name content rfl bytes hbytes
        rcases hcontent _ bytes hbytes with hold | ⟨-, hown⟩
        · exact hgoodh.own t name content rfl bytes hold
        · -- The step would have written to the file of another ticket.
          exact absurd rfl (hbeside t (hown name t rfl))
    · intro t ht ht'
      rcases hticket t ht with hg | hnew
      · exact hbeside t hg ht'
      · exact hnew (hgoodh.issued t ht')

theorem passes_whole_of_fades {g : Hold} {d d' : Folder} (hwhole : d.IsWhole art)
    (hgood : g.IsGood d) (hfades : Fades d'.content d.content) (hissued : d'.issued = d.issued) :
    (Accord.whole art).Passes g g d d' := by
  have hgood' : g.IsGood d' := hgood.of_fades hfades hissued
  refine passes_whole hwhole ?_ ?_ hgood' (fun t ht => .inl ht)
  · intro t ht
    rw [hissued]
    exact ht
  · intro name bytes h
    exact .inl (hfades.eq_some h)

theorem fades_set_none (d : Folder) (name : String) :
    Fades (d.set name none).content d.content := by
  intro n
  by_cases hn : n = name
  · exact .inr (hn ▸ d.content_set_self name none)
  · exact .inl (d.content_set_of_ne none hn)

/-! ## Steps -/

section Steps

variable {ends : α → Prop} {g : Hold}

/-- A step that leaves the folder alone or makes files disappear. -/
theorem keepsWhole_of_fades {op : FileOp} {next : op.Reply → Filing α}
    (hfades : ∀ (d : Folder) reply d', d.Step op reply d' ∨ True ∧ d.Fault op reply d' →
      Fades d'.content d.content ∧ d'.issued = d.issued)
    (hnext : ∀ (d : Folder) reply d', d.IsWhole art →
      d.Step op reply d' ∨ True ∧ d.Fault op reply d' → KeepsWhole art ends g (next reply)) :
    KeepsWhole art ends g (op.take >>= next) := by
  intro d reply d' _ _ hwhole hgood hstep
  obtain ⟨hcontent, hissued⟩ := hfades d reply d' hstep
  have hpasses := passes_whole_of_fades hwhole hgood hcontent hissued
  exact ⟨g, hpasses, trivial, hnext d reply d' hwhole hstep⟩

theorem keepsWhole_isFile {name : String} {next : Bool → Filing α}
    (h : ∀ found, KeepsWhole art ends g (next found)) :
    KeepsWhole art ends g ((FileOp.isFile name).take >>= next) := by
  refine keepsWhole_of_fades (fun d reply d' hstep => ?_) fun _ found _ _ _ => h found
  rcases hstep with hstep | ⟨-, hfault⟩
  · cases hstep
    exact ⟨.refl _, rfl⟩
  · cases hfault
    exact ⟨.refl _, rfl⟩

theorem keepsWhole_read {name : String} {next : Except FileFault Bytes → Filing α}
    (herror : ∀ e, KeepsWhole art ends g (next (.error e)))
    (hok : ∀ bytes, Belongs art name bytes → KeepsWhole art ends g (next (.ok bytes))) :
    KeepsWhole art ends g ((FileOp.read name).take >>= next) := by
  refine keepsWhole_of_fades (fun d reply d' hstep => ?_) fun d reply d' hwhole hstep => ?_
  · rcases hstep with hstep | ⟨-, hfault⟩
    · cases hstep <;> exact ⟨.refl _, rfl⟩
    · cases hfault
      exact ⟨.refl _, rfl⟩
  · rcases hstep with hstep | ⟨-, hfault⟩
    · cases hstep with
      | read hbytes => exact hok _ (hwhole name _ hbytes)
      | readNothing => exact herror _
    · cases hfault
      exact herror _

theorem keepsWhole_delete {name : String} {next : Except FileFault Unit → Filing α}
    (h : ∀ reply, KeepsWhole art ends g (next reply)) :
    KeepsWhole art ends g ((FileOp.delete name).take >>= next) := by
  refine keepsWhole_of_fades (fun d reply d' hstep => ?_) fun _ reply _ _ _ => h reply
  rcases hstep with hstep | ⟨-, hfault⟩
  · cases hstep with
    | delete => exact ⟨fades_set_none d name, rfl⟩
    | deleteNothing => exact ⟨.refl _, rfl⟩
  · cases hfault
    exact ⟨.refl _, rfl⟩

theorem keepsWhole_list {next : Except FileFault (List String) → Filing α}
    (h : ∀ reply, KeepsWhole art ends g (next reply)) :
    KeepsWhole art ends g (FileOp.list.take >>= next) := by
  refine keepsWhole_of_fades (fun d reply d' hstep => ?_) fun _ reply _ _ _ => h reply
  rcases hstep with hstep | ⟨-, hfault⟩
  · cases hstep
    exact ⟨.refl _, rfl⟩
  · cases hfault
    exact ⟨.refl _, rfl⟩

theorem keepsWhole_ticket {next : Ticket → Filing α}
    (h : ∀ t, KeepsWhole art ends (.ticket t) (next t)) :
    KeepsWhole art ends .nothing (FileOp.ticket.take >>= next) := by
  intro d t d' _ _ hwhole _ hstep
  rcases hstep with hstep | ⟨-, hfault⟩
  · cases hstep with
    | ticket hnew =>
      have hgood : (Hold.ticket t).IsGood (d.issue t) := Hold.isGood_ticket List.mem_cons_self
      refine ⟨.ticket t, passes_whole hwhole ?_ ?_ hgood ?_, trivial, h t⟩
      · intro u hu
        exact List.mem_cons_of_mem _ hu
      · intro name bytes hbytes
        exact .inl hbytes
      · intro u hu
        have htu : t = u := Option.some.inj hu
        exact .inr (htu ▸ hnew)
  · exact nomatch hfault

theorem keepsWhole_write {name : String} {content : Bytes} {t : Ticket}
    {next : Except FileFault Unit → Filing α}
    (herror : ∀ e, KeepsWhole art ends .nothing (next (.error e)))
    (hok : KeepsWhole art ends (.temporary t name content) (next (.ok ()))) :
    KeepsWhole art ends (.ticket t)
      ((FileOp.write (temporaryName name t) content).take >>= next) := by
  intro d reply d' _ _ hwhole hgood hstep
  -- Whatever was left under the name, only this call has the ticket.
  have hcontent (left : Option Bytes) (n : String) (bytes : Bytes)
      (h : (d.set (temporaryName name t) left).content n = some bytes) :
      d.content n = some bytes ∨ Belongs art n bytes ∧
        ∀ other u, n = temporaryName other u → (Hold.ticket t).ticket? = some u := by
    by_cases hn : n = temporaryName name t
    · refine .inr ⟨hn ▸ belongs_temporaryName name t bytes, fun other u hu => ?_⟩
      exact congrArg some (temporaryName_inj (hn.symm.trans hu))
    · exact .inl ((d.content_set_of_ne left hn).symm.trans h)
  rcases hstep with hstep | ⟨-, hfault⟩
  · cases hstep with
    | write =>
      have hwritten : (Hold.temporary t name content).IsGood
          (d.set (temporaryName name t) (some content)) := by
        refine ⟨fun u hu => hgood.issued u hu, ?_⟩
        intro u n c he bytes hbytes
        obtain ⟨rfl, rfl, rfl⟩ := Hold.temporary.inj he
        rw [Folder.content_set_self] at hbytes
        exact (Option.some.inj hbytes).symm
      exact ⟨.temporary t name content, passes_whole hwhole (fun u hu => hu) (hcontent _) hwritten
        (fun u hu => .inl hu), trivial, hok⟩
  · cases hfault with
    | write _ _ e left =>
      exact ⟨.nothing, passes_whole hwhole (fun u hu => hu) (hcontent left)
        (Hold.isGood_nothing _) (fun u => nofun), trivial, herror e⟩

theorem keepsWhole_rename {name : String} {content : Bytes} {t : Ticket}
    {next : Except FileFault Unit → Filing α} (hlasting : IsLasting name)
    (hbelongs : Belongs art name content) (h : ∀ reply, KeepsWhole art ends .nothing (next reply)) :
    KeepsWhole art ends (.temporary t name content)
      ((FileOp.rename (temporaryName name t) name).take >>= next) := by
  intro d reply d' _ _ hwhole hgood hstep
  refine ⟨.nothing, ?_, trivial, h reply⟩
  have hkept : (Accord.whole art).Passes (.temporary t name content) .nothing d d :=
    passes_whole hwhole (fun u hu => hu) (fun n bytes hbytes => .inl hbytes)
      (Hold.isGood_nothing _) (fun u => nofun)
  rcases hstep with hstep | ⟨-, hfault⟩
  · cases hstep with
    | @rename _ _ bytes hbytes =>
      have hcontent : bytes = content := hgood.own t name content rfl bytes hbytes
      refine passes_whole hwhole (fun u hu => hu) (fun n left hleft => ?_)
        (Hold.isGood_nothing _) (fun u => nofun)
      by_cases hn : n = name
      · subst hn
        rw [Folder.content_set_self, hcontent] at hleft
        have hleft : content = left := Option.some.inj hleft
        exact .inr ⟨hleft ▸ hbelongs, fun other u hu => absurd hu (hlasting other u)⟩
      · rw [Folder.content_set_of_ne _ _ hn] at hleft
        exact .inl ((fades_set_none d (temporaryName name t)).eq_some hleft)
    | renameNothing => exact hkept
  · cases hfault
    exact hkept

end Steps

/-! ## Operations of a store -/

theorem keepsWhole_pure {ends : α → Prop} {a : α} (h : ends a) :
    KeepsWhole art ends .nothing (pure a) :=
  ⟨h, rfl⟩

theorem keepsWhole_deleteAll (names : List String) :
    KeepsWhole art (fun _ => True) .nothing (deleteAll names) := by
  induction names with
  | nil => exact keepsWhole_pure trivial
  | cons name rest ih => exact keepsWhole_delete fun _ => ih

theorem keepsWhole_remove (s : ArtifactStore) (f : Fingerprint) :
    KeepsWhole art (fun _ => True) .nothing (s.remove f) := by
  unfold remove
  split
  · exact keepsWhole_deleteAll _
  · exact keepsWhole_pure trivial

theorem keepsWhole_clear (s : ArtifactStore) :
    KeepsWhole art (fun _ => True) .nothing s.clear := by
  unfold clear
  split
  · exact keepsWhole_pure trivial
  · refine keepsWhole_list fun reply => ?_
    cases reply with
    | error e => exact keepsWhole_pure trivial
    | ok names => exact (keepsWhole_deleteAll _).bind fun _ _ h => ⟨trivial, h.2⟩

theorem keepsWhole_writeFile (s : ArtifactStore) {name : String} {content : Bytes}
    (hlasting : IsLasting name) (hbelongs : Belongs art name content) :
    KeepsWhole art (fun _ => True) .nothing (s.writeFile name content) := by
  have hfailed (temporary : String) (e : FileFault) :
      KeepsWhole art (fun _ => True) .nothing (do
        let _ ← (FileOp.delete temporary).take
        return .error (.write (s.pathOf name) e) : Filing (Except StoreFailure Unit)) :=
    keepsWhole_delete fun _ => keepsWhole_pure trivial
  refine keepsWhole_ticket fun t => keepsWhole_write (fun e => hfailed _ e) ?_
  refine keepsWhole_rename hlasting hbelongs fun reply => ?_
  cases reply with
  | error e => exact hfailed _ e
  | ok => exact keepsWhole_pure trivial

theorem keepsWhole_store (s : ArtifactStore) (f : Fingerprint) :
    KeepsWhole art (fun _ => True) .nothing (s.store f (art f)) := by
  unfold ArtifactStore.store
  split
  · exact keepsWhole_pure trivial
  · refine keepsWhole_isFile fun found => ?_
    cases found with
    | true => exact keepsWhole_pure trivial
    | false =>
      refine (keepsWhole_writeFile s (isLasting_manifestName f) (belongs_manifestName f)).bind ?_
      rintro (e | _) _ ⟨-, rfl⟩
      · exact keepsWhole_pure trivial
      · refine (keepsWhole_writeFile s (isLasting_imageName f _) (belongs_imageName f)).bind ?_
        rintro (e | _) _ ⟨-, rfl⟩ <;> exact keepsWhole_pure trivial

/-- A look-up finds nothing damaged, because all it reads belongs there. -/
theorem keepsWhole_load (s : ArtifactStore) {f : Fingerprint}
    (hsize : (art f).image.length < Number.limit64) :
    KeepsWhole art (IsFinding (art f)) .nothing (s.load f) := by
  have hunread (path : String) (e : FileFault) : KeepsWhole art (IsFinding (art f)) .nothing
      (pure (if e.isNotFound then .ok none else .error (.read path e))) := by
    refine keepsWhole_pure ?_
    split
    · exact .inl rfl
    · exact .inr (.inr ⟨path, e, rfl⟩)
  unfold load
  split
  · exact keepsWhole_pure (.inl rfl)
  · refine keepsWhole_read (fun e => hunread _ e) fun written hwritten => ?_
    rw [hwritten.manifest f rfl]
    simp only [Manifest.read?_write_ofArtifact f hsize]
    refine keepsWhole_read (fun e => hunread _ e) fun image himage => ?_
    rw [(himage.image f _ rfl).2]
    simp only [Manifest.damage?_ofArtifact, Manifest.artifact_ofArtifact]
    exact keepsWhole_pure (.inr (.inl rfl))

theorem heeds_program (hsize : ∀ f, (art f).image.length < Number.limit64) (s : ArtifactStore)
    {request : StoreRequest} (h : request.Brings art) :
    (Accord.whole art).Heeds request .nothing (request.program s) := by
  cases request with
  | store f a =>
    obtain rfl : a = art f := h
    exact (keepsWhole_store s f).bind fun _ _ _ => trivial
  | load f => exact (keepsWhole_load s (hsize f)).bind fun result _ h => ⟨result, rfl, h.1⟩
  | remove f => exact (keepsWhole_remove s f).bind fun _ _ _ => trivial
  | clear => exact (keepsWhole_clear s).bind fun _ _ _ => trivial

/-! ## Runs -/

namespace Sharing

theorem exists_covers_whole (hsize : ∀ f, (art f).image.length < Number.limit64) {s : Sharing}
    (h : Reachable (.lenient art) s) : ∃ marks, (Accord.whole art).Covers marks s := by
  refine Accord.exists_covers_of_reaches h (fun _ => rfl) (fun _ _ => nofun) (fun _ => trivial)
    (fun _ => trivial) ?_
  intro marks s i store request _ hbrings
  have hheeds := heeds_program hsize store hbrings
  exact ⟨.nothing, Hold.isGood_nothing _, fun _ _ _ => nofun, trivial, hheeds⟩

/-- However many calls share a folder, in whatever order they take their steps, whatever fails
and whoever stops: a look-up that could read finds nothing or the artifact of its
fingerprint. -/
theorem reply_load (hsize : ∀ f, (art f).image.length < Number.limit64) {s : Sharing}
    (h : Reachable (.lenient art) s) {i : Nat} {f : Fingerprint} {reply : StoreReply}
    (hcall : s.calls i = some ⟨.load f, .done reply⟩) :
    reply = .loaded (.ok none) ∨ reply = .loaded (.ok (some (art f))) ∨
      ∃ path e, reply = .loaded (.error (.read path e)) := by
  obtain ⟨marks, hcovers⟩ := exists_covers_whole hsize h
  obtain ⟨result, rfl, hresult⟩ := (hcovers.minds i).heeds _ hcall
  rcases hresult with rfl | rfl | ⟨path, e, rfl⟩
  · exact .inl rfl
  · exact .inr (.inl rfl)
  · exact .inr (.inr ⟨path, e, rfl⟩)

end Sharing

/-! An artifact is stored and then looked up. -/

namespace Shared

def artifact : Artifact := ⟨Text.bytes ".entry k", .ptx, "sm_80", .empty, .empty⟩

def fingerprint : Fingerprint := ⟨List.replicate 32 0, rfl⟩

def store : ArtifactStore := ⟨"cache", true⟩

def folder : Folder := Folder.entered {} ⟨1, 0⟩ ⟨1, 1⟩ fingerprint artifact

def stored : Sharing :=
  ({} : Sharing).put 0 (some ⟨.store fingerprint artifact, .done (.stored (.ok true))⟩) folder

def loaded : Sharing :=
  stored.put 1 (some ⟨.load fingerprint, .done (.loaded (.ok (some artifact)))⟩) folder

/-- Every fingerprint has the one artifact. -/
def only : Fingerprint → Artifact := fun _ => artifact

theorem length_image (f : Fingerprint) : (only f).image.length < Number.limit64 :=
  show artifact.image.length < Number.limit64 by decide

theorem runs_store : Folder.Runs {} (StoreRequest.program store (.store fingerprint artifact))
    (.stored (.ok true)) folder :=
  (Folder.runs_store rfl rfl (by decide) (by decide)).bind (.done _ _)

theorem runs_load : Folder.Runs folder (StoreRequest.program store (.load fingerprint))
    (.loaded (.ok (some artifact))) folder :=
  (Folder.runs_load (length_image fingerprint) rfl (Folder.content_entered_manifestName ..)
    (Folder.content_entered_imageName ..)).bind (.done _ _)

theorem reachable_loaded : Sharing.Reachable (.lenient only) loaded := by
  have hstored := @Sharing.reaches_served (.lenient only) (fun _ => True) {} 0
    (.store fingerprint artifact) store _ _ (fun _ _ => trivial) rfl rfl runs_store
  have hloaded := @Sharing.reaches_served (.lenient only) (fun _ => True) stored 1
    (.load fingerprint) store _ _ (fun _ _ => trivial) rfl trivial runs_load
  exact Relation.ReflTransGen.mono (fun _ _ => And.left) _ _ (hstored.trans hloaded)

theorem reply_load_loaded : (∀ f, (only f).image.length < Number.limit64) ∧
    Sharing.Reachable (.lenient only) loaded ∧
    loaded.calls 1 = some ⟨.load fingerprint, .done (.loaded (.ok (some (only fingerprint))))⟩ ∧
    ∃ reply : StoreReply, reply = .loaded (.ok (some (only fingerprint))) ∧
      (reply = .loaded (.ok none) ∨ reply = .loaded (.ok (some (only fingerprint))) ∨
        ∃ path e, reply = .loaded (.error (.read path e))) :=
  ⟨length_image, reachable_loaded, rfl, _, rfl,
    Sharing.reply_load length_image reachable_loaded
      (show loaded.calls 1 = some ⟨.load fingerprint, _⟩ from rfl)⟩

end Shared
end KernelDepot
