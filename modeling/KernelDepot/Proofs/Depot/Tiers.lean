/-
One kernel from the index, the store and the toolchain.

In calm surroundings a request is always compiled to the same artifact.  If the files of its
fingerprint are those of the artifact, as far as there are any, and if the index has no other
module for it than one that presents the artifact, then all of that is still so after any step
of any call, and what a call brings along presents the artifact too.
-/
import KernelDepot.Proofs.Artifact.Written
import KernelDepot.Proofs.Depot.Outlook
import KernelDepot.Proofs.Device.Presented

namespace KernelDepot

open ArtifactStore

/-- Two handles to kernels that only differ in where they are on the device. -/
structure KernelHandle.Agrees (a b : KernelHandle) : Prop where
  fingerprint : a.loaded.fingerprint = b.loaded.fingerprint
  entry : a.function.entry = b.function.entry
  symbols : a.loaded.symbols = b.loaded.symbols
  sizes : a.loaded.sizes = b.loaded.sizes
  arch : a.loaded.arch = b.loaded.arch

namespace Site

variable {σ : Type} {host : Host σ} {s : Site σ} {f : Fingerprint}

theorem fades_restore (k : KeptFiles host.files)
    (hdevice : ∀ call x, k.content (host.device call x).2 = k.content x) :
    Fades (k.content (s.restore host f).2.world.outside) (k.content s.world.outside) := by
  have hfades := k.fades_load s.depot.setup.store f s.world.outside
  unfold restore
  simp only
  have hfile : (s.file host (s.depot.setup.store.load f)).2.world.outside =
      ((s.depot.setup.store.load f).run host.files s.world.outside).2 := rfl
  rw [← hfile] at hfades
  generalize s.file host (s.depot.setup.store.load f) = found at hfades ⊢
  obtain ⟨found, s₁⟩ := found
  cases found with
  | error failure => cases failure <;> exact hfades
  | ok artifact =>
    cases artifact with
    | none => exact hfades
    | some a =>
      have hload := view_load hdevice (s₁.report (loadEvents (.ok (some a)))) f a
      simp only
      generalize Site.load host _ f a = loaded at hload ⊢
      obtain ⟨outcome, s₂⟩ := loaded
      have hfades₂ : Fades (k.content s₂.world.outside) (k.content s.world.outside) := by
        rw [hload]
        exact hfades
      cases outcome with
      | ok m => exact hfades₂
      | error e =>
        cases hfault : e.isArtifactFault with
        | true =>
          simp only [hfault, if_true]
          exact hfades₂.trans (k.fades_remove s.depot.setup.store f s₂.world.outside)
        | false =>
          simp only [hfault, Bool.false_eq_true, if_false]
          exact hfades₂

/-- A module that was restored was loaded from the artifact that is stored. -/
theorem exists_of_restore (k : KeptFiles host.files) {m : LoadedModule}
    (h : (s.restore host f).1 = .ok (some m)) :
    ∃ a s₁, s.depot.setup.store.stored? (k.content s.world.outside) f = some a ∧
      (Site.load host s₁ f a).1 = .ok m := by
  have hstored (a : Artifact)
      (ha : ((s.depot.setup.store.load f).run host.files s.world.outside).1 = .ok (some a)) :
      s.depot.setup.store.stored? (k.content s.world.outside) f = some a :=
    k.stored?_of_run_load ha
  have hfile : (s.file host (s.depot.setup.store.load f)).1 =
      ((s.depot.setup.store.load f).run host.files s.world.outside).1 := rfl
  rw [← hfile] at hstored
  unfold restore at h
  simp only at h
  generalize s.file host (s.depot.setup.store.load f) = found at hstored h
  obtain ⟨found, s₁⟩ := found
  cases found with
  | error failure => cases failure <;> exact nomatch h
  | ok artifact =>
    cases artifact with
    | none => exact nomatch h
    | some a =>
      refine ⟨a, s₁.report (loadEvents (.ok (some a))), hstored a rfl, ?_⟩
      simp only at h
      generalize Site.load host _ f a = loaded at h ⊢
      obtain ⟨outcome, s₂⟩ := loaded
      cases outcome with
      | ok m' => exact congrArg Except.ok (Option.some.inj (Except.ok.inj h))
      | error e =>
        cases hfault : e.isArtifactFault with
        | true =>
          simp only [hfault, if_true] at h
          exact nomatch h
        | false =>
          simp only [hfault, Bool.false_eq_true, if_false] at h
          exact nomatch h

theorem presents_load {w : WorkingDriver host.device} {size : Bytes → String → Nat}
    (hsize : w.Measures size) {a : Artifact} {m : LoadedModule}
    (h : (s.load host f a).1 = .ok m) : m.Presents size f a := by
  rw [load_outcome] at h
  exact WorkingDriver.presents_load hsize _ _ _ f a h

end Site

namespace Calm

variable {σ : Type} {host : Host σ} {path : SearchPath} {dirs : List String}
  (calm : Calm host path dirs) (setup : Setup) (order : KeyedRequest) (size : Bytes → String → Nat)

/-- The files of a fingerprint are those of the artifact that its request is compiled to, as
far as they are there. -/
structure Tidy (content : String → Option Bytes) : Prop where
  manifest : ∀ written, content (manifestName order.fingerprint) = some written →
    ∃ a, calm.Compiled setup order a ∧ written = (Manifest.ofArtifact order.fingerprint a).write
  image : ∀ format image, content (imageName order.fingerprint format) = some image →
    ∃ a, calm.Compiled setup order a ∧ format = a.format ∧ image = a.image

def Presented (m : LoadedModule) : Prop :=
  ∃ a, calm.Compiled setup order a ∧ m.Presents size order.fingerprint a

/-- What a call for the request brings along to its next step. -/
def Carries : Stage → Prop
  | .holding _ (.store a) | .holding _ (.load a _) => calm.Compiled setup order a
  | .holding _ (.insert m) => calm.Presented setup order size m
  | .holding _ (.unlock outcome) | .holding _ (.leave outcome) | .finished outcome =>
    ∀ handle, outcome = .ok handle → calm.Presented setup order size handle.loaded ∧
      handle.function.entry = order.request.entries.headD ""
  | _ => True

variable {calm setup order size}

theorem compiled_unique {a b : Artifact} (ha : calm.Compiled setup order a)
    (hb : calm.Compiled setup order b) : a = b := by
  obtain ⟨result, hresult, rfl⟩ := ha
  obtain ⟨result', hresult', rfl⟩ := hb
  rw [hresult] at hresult'
  rw [Except.ok.inj hresult']

theorem compiled_of_compile (hpath : calm.Searches order) {s : Site σ} {result : Compilation}
    (hsetup : s.depot.setup = setup)
    (h : (s.compile host order.toPreparedRequest).1 = .ok result) :
    calm.Compiled setup order result.artifact := by
  rw [compile_fst hpath hsetup] at h
  exact ⟨result, h, rfl⟩

/-- Handles to modules of one artifact agree if they are for the same entry. -/
theorem Presented.agrees {a b : KernelHandle} (ha : calm.Presented setup order size a.loaded)
    (hb : calm.Presented setup order size b.loaded)
    (hentry : a.function.entry = b.function.entry) : a.Agrees b := by
  obtain ⟨artifact, hartifact, hpa⟩ := ha
  obtain ⟨artifact', hartifact', hpb⟩ := hb
  obtain rfl := compiled_unique hartifact hartifact'
  exact ⟨hpa.fingerprint.trans hpb.fingerprint.symm, hentry, hpa.symbols.trans hpb.symbols.symm,
    hpa.sizes.trans hpb.sizes.symm, hpa.arch.trans hpb.arch.symm⟩

/-! ## The files -/

namespace Tidy

variable {before after : String → Option Bytes}

theorem of_empty (h : ∀ name, before name = none) : calm.Tidy setup order before where
  manifest _ hwritten := nomatch (h _).symm.trans hwritten
  image _ _ himage := nomatch (h _).symm.trans himage

theorem fades (h : calm.Tidy setup order before) (hfades : Fades after before) :
    calm.Tidy setup order after where
  manifest written hwritten := h.manifest written (hfades.eq_some hwritten)
  image format image himage := h.image format image (hfades.eq_some himage)

/-- Nothing but the artifact of the request is ever stored under its fingerprint. -/
theorem stores (h : calm.Tidy setup order before) {f : Fingerprint} {a : Artifact}
    {result : Except StoreFailure Bool} (hstores : KeptFiles.Stores f a before after result)
    (ha : f = order.fingerprint → calm.Compiled setup order a) : calm.Tidy setup order after where
  manifest written hwritten := by
    rcases hstores.cases_content (isLasting_manifestName order.fingerprint) with
      hsame | ⟨hname, hnew⟩ | ⟨hname, -⟩
    · exact h.manifest written (hsame.symm.trans hwritten)
    · obtain rfl := manifestName_inj hname
      exact ⟨a, ha rfl, Option.some.inj (hwritten.symm.trans hnew)⟩
    · exact absurd hname.symm (imageName_ne_manifestName _ _ _)
  image format image himage := by
    rcases hstores.cases_content (isLasting_imageName order.fingerprint format) with
      hsame | ⟨hname, -⟩ | ⟨hname, hnew⟩
    · exact h.image format image (hsame.symm.trans himage)
    · exact absurd hname (imageName_ne_manifestName _ _ _)
    · obtain ⟨rfl, rfl⟩ := imageName_inj hname
      exact ⟨a, ha rfl, rfl, Option.some.inj (himage.symm.trans hnew)⟩

/-- What is stored is what the request is compiled to. -/
theorem compiled_of_stored? (h : calm.Tidy setup order before) {s : ArtifactStore} {b : Artifact}
    (hsmall : ∀ a, calm.Compiled setup order a → a.image.length < Number.limit64)
    (hb : s.stored? before order.fingerprint = some b) : calm.Compiled setup order b := by
  obtain ⟨-, written, m, image, hwritten, hm, himage, -, rfl⟩ := exists_of_stored? hb
  obtain ⟨a, ha, rfl⟩ := h.manifest written hwritten
  rw [Manifest.read?_write_ofArtifact _ (hsmall a ha)] at hm
  obtain rfl := Option.some.inj hm
  obtain ⟨a', ha', -, rfl⟩ := h.image _ image himage
  rw [compiled_unique ha' ha, Manifest.artifact_ofArtifact]
  exact ha

end Tidy

/-- No step of any call leaves anything else in the directory. -/
theorem tidy_act (horderly : calm.files.IsOrderly) {order' : KeyedRequest} {s : Site σ}
    {stage : Stage} (h : calm.Tidy setup order (calm.content s))
    (hstore : ∀ n a, stage = .holding n (.store a) → order'.fingerprint = order.fingerprint →
      calm.Compiled setup order a) :
    calm.Tidy setup order (calm.content (Call.act host order' s stage).2) := by
  unfold content at h ⊢
  cases hout : stage.goesOut with
  | false =>
    rw [Call.outside_act calm.content_device order' s stage hout]
    exact h
  | true =>
    cases stage with
    | holding n task =>
      cases task with
      | restore =>
        rw [Call.outside_act_restore]
        exact h.fades (Site.fades_restore calm.files calm.content_device)
      | compile =>
        rw [Call.outside_act_compile, calm.content_compile]
        exact h
      | store a =>
        have hstores := horderly.run_store s.depot.setup.store order'.fingerprint a
          s.world.outside
        rw [← Site.outside_persist] at hstores
        exact h.stores hstores (hstore n a rfl)
      | _ => exact absurd hout Bool.false_ne_true
    | _ => exact absurd hout Bool.false_ne_true

/-! ## The index -/

/-- Nor does any step enter another module for the request. -/
theorem presented_act {order' : KeyedRequest} {s : Site σ} {stage : Stage}
    (h : ∀ m, s.depot.find? order.fingerprint = some m → calm.Presented setup order size m)
    (hinsert : ∀ n m, stage = .holding n (.insert m) → order'.fingerprint = order.fingerprint →
      calm.Presented setup order size m) {m : LoadedModule}
    (hm : (Call.act host order' s stage).2.depot.find? order.fingerprint = some m) :
    calm.Presented setup order size m := by
  by_cases hr : stage.rank = 0
  · obtain ⟨outcome, rfl⟩ := Stage.eq_finished_of_rank hr
    exact h m hm
  · have hmoves := Call.moves_act host order' s stage hr
    rcases hmoves.index_cases with hindex | ⟨n, m', hs, hnone, hindex⟩
    · exact h m ((Depot.find?_of_index hindex _).symm.trans hm)
    · rw [Depot.find?_of_index_append hindex hnone] at hm
      split at hm
      next heq =>
        rw [← Option.some.inj hm]
        exact hinsert n m' hs heq.symm
      next => exact h m hm

/-! ## The call itself -/

theorem carries_outcome {m : LoadedModule} (h : calm.Presented setup order size m) :
    calm.Carries setup order size (.finished (m.outcome (order.request.entries.headD ""))) := by
  intro handle hhandle
  unfold LoadedModule.outcome KernelHandle.of at hhandle
  cases hfunction : m.function? (order.request.entries.headD "") with
  | none =>
    rw [hfunction] at hhandle
    exact nomatch hhandle
  | some function =>
    rw [hfunction] at hhandle
    rw [← Except.ok.inj hhandle]
    obtain ⟨a, ha, hm⟩ := h
    exact ⟨⟨a, ha, hm⟩, hm.entry _ function hfunction⟩

theorem presented_load (hsize : calm.driver.Measures size) {s : Site σ} {a : Artifact}
    {m : LoadedModule} (ha : calm.Compiled setup order a)
    (hm : (s.load host order.fingerprint a).1 = .ok m) : calm.Presented setup order size m :=
  ⟨a, ha, Site.presents_load hsize hm⟩

theorem presented_restore (hsize : calm.driver.Measures size)
    (hsmall : ∀ a, calm.Compiled setup order a → a.image.length < Number.limit64) {s : Site σ}
    (hfiles : calm.Tidy setup order (calm.content s)) {m : LoadedModule}
    (hm : (s.restore host order.fingerprint).1 = .ok (some m)) :
    calm.Presented setup order size m := by
  obtain ⟨a, s₁, hstored, hload⟩ := Site.exists_of_restore calm.files hm
  exact presented_load hsize (hfiles.compiled_of_stored? hsmall hstored) hload

theorem presented_enter {s : Site σ} {m : LoadedModule}
    (hindex : ∀ m, s.depot.find? order.fingerprint = some m → calm.Presented setup order size m)
    (hm : calm.Presented setup order size m) :
    calm.Presented setup order size (s.enter host order.fingerprint m).1 := by
  unfold Site.enter
  cases hpresent : s.depot.find? order.fingerprint with
  | some present => exact hindex present hpresent
  | none => exact hm

section
variable (hpath : calm.Searches order) (hsize : calm.driver.Measures size)
  (hsmall : ∀ a, calm.Compiled setup order a → a.image.length < Number.limit64) {s : Site σ}
  (hsetup : s.depot.setup = setup) (hfiles : calm.Tidy setup order (calm.content s))
  (hindex : ∀ m, s.depot.find? order.fingerprint = some m → calm.Presented setup order size m)
include hpath hsize hsmall hsetup hfiles hindex

theorem carries_work (n : Nat) {task : Task}
    (h : calm.Carries setup order size (.holding n task)) :
    calm.Carries setup order size (Call.work host order s n task).1 := by
  unfold Call.work
  cases task with
  | lock => exact trivial
  | recheck =>
    simp only
    cases s.depot.arena.failure? n with
    | some failure => exact fun _ hhandle => nomatch hhandle
    | none =>
      cases hm : s.depot.find? order.fingerprint with
      | some m =>
        simp only
        rw [Call.serveHit_outcome]
        exact carries_outcome (hindex m hm)
      | none => exact trivial
  | restore =>
    have hrestore (m : LoadedModule) (hm : (s.restore host order.fingerprint).1 = .ok (some m)) :
        calm.Presented setup order size m := presented_restore hsize hsmall hfiles hm
    simp only
    generalize s.restore host order.fingerprint = restored at hrestore ⊢
    obtain ⟨outcome, s₁⟩ := restored
    rcases outcome with e | m
    · exact fun _ hhandle => nomatch hhandle
    · cases m with
      | none => exact trivial
      | some m => exact hrestore m rfl
  | compile =>
    have hcompile (result : Compilation)
        (hresult : (s.compile host order.toPreparedRequest).1 = .ok result) :
        calm.Compiled setup order result.artifact := compiled_of_compile hpath hsetup hresult
    simp only
    generalize s.compile host order.toPreparedRequest = compiled at hcompile ⊢
    obtain ⟨outcome, s₁⟩ := compiled
    rcases outcome with e | result
    · cases e <;> exact fun _ hhandle => nomatch hhandle
    · simp only
      split <;> exact hcompile result rfl
  | store a => exact h
  | load a shared =>
    have hload (m : LoadedModule) (hm : (s.load host order.fingerprint a).1 = .ok m) :
        calm.Presented setup order size m := presented_load hsize h hm
    simp only
    generalize s.load host order.fingerprint a = loaded at hload ⊢
    obtain ⟨outcome, s₁⟩ := loaded
    cases outcome with
    | error e => exact fun _ hhandle => nomatch hhandle
    | ok m =>
      cases shared with
      | true => exact hload m rfl
      | false =>
        show Carries calm setup order size (.holding n (.unlock (s₁.grant host m _).1))
        rw [Site.grant_fst]
        exact carries_outcome (hload m rfl)
  | insert m =>
    simp only
    rw [Site.grant_fst]
    exact carries_outcome (presented_enter hindex h)
  | unlock outcome => exact h
  | leave outcome => exact h

theorem carries_act {stage : Stage} (h : calm.Carries setup order size stage) :
    calm.Carries setup order size (Call.act host order s stage).1 := by
  cases stage with
  | lookup =>
    unfold Call.act
    cases hm : s.depot.find? order.fingerprint with
    | some m =>
      simp only
      rw [Call.serveHit_outcome]
      exact carries_outcome (hindex m hm)
    | none => exact trivial
  | join => exact trivial
  | holding n task => exact carries_work hpath hsize hsmall hsetup hfiles hindex n h
  | finished outcome => exact h

end

end Calm
end KernelDepot
