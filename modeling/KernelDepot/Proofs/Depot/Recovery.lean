/-
Making a request again and again over whatever a directory holds.

A call that succeeds over an empty directory need not succeed over a directory with files in
it.  What matters is the artifact that the files of the fingerprint hold.  If there is none
they are damaged, and everything goes as over an empty directory.  If there is one, the
manifest has vouched for its image and for nothing else, so the artifact may still be for
another device or lack the entry.  Then the call fails, and it fails as often as it is made.
-/
import KernelDepot.Proofs.Artifact.Written
import KernelDepot.Proofs.Depot.Outlook

namespace KernelDepot

structure Depot.IsNew (d : Depot) : Prop extends d.IsIdle where
  index : d.index = []

namespace Site

variable {σ : Type}

/-- A site after a request was made `n` times. -/
def after (host : Host σ) (path : SearchPath) (request : Request) : Nat → Site σ → Site σ
  | 0, s => s
  | n + 1, s => after host path request n (s.getKernel host path request).2

variable {host : Host σ} {path : SearchPath} {request : Request}
  (calm : Calm host path request.includeDirs) {order : KeyedRequest} {setup : Setup} {s : Site σ}

/-- How a request is prepared depends on the setup and the include roots. -/
theorem prepare_fst (h : s.depot.setup = setup) :
    (s.prepare host path request).1.map (·.on calm.disk) =
      (({ setup } : Depot).prepare calm.disk path request).outcome := by
  subst h
  exact Depot.prepare_congr (calm.serves s.world.outside) { setup := s.depot.setup }

variable {calm}

theorem exists_prepare (hsetup : s.depot.setup = setup)
    (h : (({ setup } : Depot).prepare calm.disk path request).outcome = .ok order) :
    ∃ order', (s.prepare host path request).1 = .ok order' ∧ order'.on calm.disk = order := by
  rw [← prepare_fst calm hsetup] at h
  cases hprepare : (s.prepare host path request).1 with
  | error e =>
    rw [hprepare] at h
    exact nomatch h
  | ok order' =>
    rw [hprepare] at h
    exact ⟨order', rfl, Except.ok.inj h⟩

theorem searches_of_prepare (h : (s.prepare host path request).1 = .ok order) :
    calm.Searches order := by
  have hspace := (Depot.prepare_eq_ok_iff.mp h).space
  unfold Calm.Searches
  rw [hspace]
  exact (calm.serves s.world.outside).withRoots

/-- What is known of a call before it is made. -/
theorem isOk_getKernel (hsetup : s.depot.setup = setup) (hidle : s.depot.IsIdle)
    (h : (({ setup } : Depot).prepare calm.disk path request).outcome = .ok order) :
    ((s.getKernel host path request).1.isOk ↔ calm.Promises setup order s) ∧
      (calm.Compiles setup order →
        (calm.Promises setup order (s.getKernel host path request).2 ↔
          calm.Promises setup order s)) ∧
      (s.getKernel host path request).2.depot.setup = setup ∧
      (s.getKernel host path request).2.depot.IsIdle := by
  obtain ⟨order', hprepare, rfl⟩ := exists_prepare hsetup h
  rw [getKernel_of_prepare hprepare]
  exact calm.isOk_complete (s := (s.prepare host path request).2) (searches_of_prepare hprepare)
    hidle hsetup

/-- If compiling leads to a handle, all calls end as the first one. -/
theorem isOk_getKernel_after (hc : calm.Compiles setup order) (hsetup : s.depot.setup = setup)
    (hidle : s.depot.IsIdle)
    (h : (({ setup } : Depot).prepare calm.disk path request).outcome = .ok order) (n : Nat) :
    ((s.after host path request n).getKernel host path request).1.isOk ↔
      calm.Promises setup order s := by
  induction n generalizing s with
  | zero => exact (isOk_getKernel hsetup hidle h).1
  | succ n ih =>
    obtain ⟨-, hkeep, hsetup', hidle'⟩ := isOk_getKernel hsetup hidle h
    exact (ih hsetup' hidle').trans (hkeep hc)

theorem exists_order_of_fingerprint {f : Fingerprint}
    (h : (s.fingerprint host path request).1 = .ok f) :
    ∃ order, (s.prepare host path request).1 = .ok order ∧ order.fingerprint = f ∧
      order.request = request := by
  unfold fingerprint at h
  simp only at h
  cases hp : (s.prepare host path request).1 with
  | error e =>
    rw [hp] at h
    exact nomatch h
  | ok order =>
    rw [hp] at h
    exact ⟨order, rfl, Except.ok.inj h, (Depot.prepare_eq_ok_iff.mp hp).request⟩

theorem promises_of_isNew (h : s.depot.IsNew) :
    calm.Promises setup order s ↔
      match setup.store.stored? (calm.content s) order.fingerprint with
      | some a => calm.Yields setup order a ∨ calm.Blames setup a ∧ calm.Compiles setup order
      | none => calm.Compiles setup order := by
  unfold Calm.Promises Depot.find?
  rw [h.index]
  rfl

/-- A request that leads to a handle over an empty directory does so over any other one, the
first time and every time after, exactly if the artifact that the directory holds for its
fingerprint, if any, can be loaded and has the entry, or is blamed by the driver. -/
theorem isOk_getKernel_iff_of_empty (calm : Calm host path request.includeDirs)
    {empty damaged : Site σ} {f : Fingerprint} (hsetup : damaged.depot.setup = empty.depot.setup)
    (hnew : empty.depot.IsNew) (hnew' : damaged.depot.IsNew)
    (hempty : ∀ name, calm.content empty name = none)
    (hf : (empty.fingerprint host path request).1 = .ok f)
    (hok : (empty.getKernel host path request).1.isOk) (n : Nat) :
    ((damaged.after host path request n).getKernel host path request).1.isOk ↔
      ∀ a, damaged.depot.setup.store.stored? (calm.content damaged) f = some a →
        calm.driver.verdict damaged.depot.setup.device a = .ok () ∧
            request.entries.headD "" ∈ a.entries.names ∨
          ∃ e, calm.driver.verdict damaged.depot.setup.device a = .error e ∧
            e.isArtifactFault := by
  obtain ⟨order, hprepare, rfl, rfl⟩ := exists_order_of_fingerprint hf
  have horder : (({ setup := empty.depot.setup } : Depot).prepare calm.disk path
      order.request).outcome = .ok (order.on calm.disk) := by
    rw [← prepare_fst calm rfl, hprepare]
    rfl
  have hc : calm.Compiles damaged.depot.setup order := by
    rw [hsetup]
    have hpromises := (isOk_getKernel rfl hnew.toIsIdle horder).1.mp hok
    have hnone : empty.depot.setup.store.stored? (calm.content empty) order.fingerprint =
        none := by
      unfold ArtifactStore.stored?
      rw [hempty]
      split <;> rfl
    have hpromises := (promises_of_isNew hnew).mp hpromises
    rw [show empty.depot.setup.store.stored? (calm.content empty)
      (order.on calm.disk).fingerprint = none from hnone] at hpromises
    exact hpromises
  rw [← hsetup] at horder
  have hcompiles : calm.Compiles damaged.depot.setup (order.on calm.disk) := hc
  refine (isOk_getKernel_after hcompiles rfl hnew'.toIsIdle horder n).trans
    ((promises_of_isNew hnew').trans ?_)
  show (match damaged.depot.setup.store.stored? (calm.content damaged) order.fingerprint with
    | some a => calm.Yields damaged.depot.setup order a ∨
      calm.Blames damaged.depot.setup a ∧ calm.Compiles damaged.depot.setup order
    | none => calm.Compiles damaged.depot.setup order) ↔ _
  cases damaged.depot.setup.store.stored? (calm.content damaged) order.fingerprint with
  | none => exact ⟨fun _ _ h => (nomatch h), fun _ => hc⟩
  | some a =>
    constructor
    · rintro h a' ha'
      rw [← Option.some.inj ha']
      exact h.imp_right And.left
    · intro h
      exact (h a rfl).imp_right fun hb => ⟨hb, hc⟩

end Site

/-! ## A manifest that vouches for too little

The directory below holds a manifest that is in order and an image that fits it.  The manifest
lists no entries. -/

namespace Shelf

open ArtifactStore

/-- Surroundings whose state is the files of the store.  The device takes every image and
finds every symbol in it, and the toolchain makes the same of everything. -/
def host : Host (String → Option Bytes) where
  disk _ := {}
  files op content := match op with
    | .isFile name => ((content name).isSome, content)
    | .read name => ((content name).elim (.error .notFound) .ok, content)
    | .write name bytes => (.ok (), fun n => if n = name then some bytes else content n)
    | .rename source target => (.ok (), fun n =>
        if n = target then content source else if n = source then none else content n)
    | .delete name => (.ok (), fun n => if n = name then none else content n)
    | .list => (.ok [], content)
    | .size name => (.ok ((content name).elim 0 List.length), content)
    | .ticket => (⟨0, 0⟩, content)
  device call content := (match call with
    | .bind | .unload _ | .copy .. | .launch .. => .ok ()
    | .load _ | .getFunction .. => .ok 0
    | .getGlobal .. => .ok ⟨0, 0⟩
    | .occupancy _ => .ok ⟨1, 1⟩, content)
  compile _ content := (.done (.ok ⟨[], .ptx, .empty, ""⟩), content)

def driver : WorkingDriver host.device where
  takes _ := .ok ()
  function _ _ := .ok ()
  occupancy _ _ := .ok ()
  global _ _ := .ok ()
  resident _ _ _ := True
  bind_ok _ := rfl
  load_eq _ _ := rfl
  resident_load _ _ _ _ := trivial
  getFunction_eq _ _ _ _ _ := rfl
  occupancy_eq _ _ _ _ _ _ _ := rfl
  getGlobal_eq _ _ _ _ _ := rfl
  resident_getFunction _ _ _ _ _ := trivial
  resident_occupancy _ _ _ _ _ := trivial
  resident_getGlobal _ _ _ _ _ := trivial

def files : KeptFiles host.files where
  content := plainly
  isPlain _ _ _ h := (eq_some_of_plainly h).1
  read_some content name bytes h := by
    show (content name).elim _ _ = _
    rw [(eq_some_of_plainly h).2]
    rfl
  read_none content name hname h := by
    rw [plainly_eq hname] at h
    refine ⟨.notFound, ?_⟩
    show (content name).elim _ _ = _
    rw [h]
    rfl
  content_read _ _ _ := rfl
  content_isFile _ _ _ := rfl
  content_delete content name hname other := by
    by_cases h : other = name
    · subst h
      exact .inr ((plainly_eq hname).trans (if_pos rfl))
    · exact .inl (plainly_congr (if_neg h))

theorem isObedient_files : files.IsObedient where
  content_ticket _ := rfl
  written _ _ _ hname _ := (plainly_eq hname).trans (if_pos rfl)
  write_of_ne _ _ _ _ _ h := plainly_congr (if_neg h)
  renamed content source target hs ht _ := by
    refine (plainly_eq ht).trans (Eq.trans ?_ (plainly_eq hs).symm)
    exact if_pos rfl
  notRenamed _ _ _ _ _ _ h := nomatch h
  rename_of_ne _ _ _ _ _ _ hs ht := plainly_congr ((if_neg ht).trans (if_neg hs))
  delete_of_ne _ _ _ _ h := plainly_congr (if_neg h)
  isFile_eq content name hname := by
    show (content name).isSome = (plainly content name).isSome
    rw [plainly_eq hname]
  read_missing content _ name hname h := by
    have hnone : content name = none := (plainly_eq (isPlain_of_mem_namesOf hname)).symm.trans h
    show (content name).elim _ _ = _
    rw [hnone]
    rfl
  deleted _ _ hname := (plainly_eq hname).trans (if_pos rfl)

def setup : Setup where
  toolchain := ⟨"t", "1"⟩
  deviceId := 0
  device := ⟨0, "", (8, 0)⟩
  store := ⟨"", true⟩

def site (content : String → Option Bytes) : Site (String → Option Bytes) where
  depot := { setup }
  world := { outside := content }

def request : Request := { entries := ["k"], source := .inline "", arch := "sm_80" }

def calm : Calm host ⟨[], 0⟩ request.includeDirs where
  disk := {}
  dialogue _ := .done (.ok ⟨[], .ptx, .empty, ""⟩)
  driver
  files
  serves _ := .refl _ _ _
  compile_eq _ _ := rfl
  content_compile _ _ := rfl
  content_device _ _ := rfl

def source : ResolvedSource :=
  { origin := "text", text := [], dependencies := [], builtins := [], deferred := [] }

def order : KeyedRequest where
  request
  arch := .sm 8 0
  flags := []
  space := ⟨⟨[], 0⟩, {}, []⟩
  source
  fingerprint := .compute request [] source setup.toolchain

def fingerprint : Fingerprint where
  bytes := [48, 10, 43, 241, 23, 209, 203, 239, 149, 44, 59, 222, 160, 51, 3, 77, 183, 217, 33,
    170, 215, 127, 217, 49, 77, 2, 107, 78, 177, 189, 131, 68]
  length_bytes := rfl

theorem fingerprint_order : order.fingerprint = fingerprint := by
  show Fingerprint.ofPreimage (Preimage.ofInputs _ _ _ _) = _
  unfold Preimage.ofInputs
  rw [show source.dependencies.mergeSort Preimage.dependencyLe = [] from List.mergeSort_nil]
  decide +kernel

/-- The files of the fingerprint: a manifest without entries, and an empty image. -/
def lacking (name : String) : Option Bytes :=
  if name = "300a2bf117d1cbef952c3bdea033034db7d921aad77fd9314d026b4eb1bd8344.json" then
    some (Text.bytes ("\x7b\"version\":1," ++
      "\"fingerprint\":\"300a2bf117d1cbef952c3bdea033034db7d921aad77fd9314d026b4eb1bd8344\"," ++
      "\"format\":\"ptx\",\"arch\":\"sm_80\",\"entries\":\x7b\x7d,\"constants\":\x7b\x7d," ++
      "\"image_len\":0,\"image_sha256\":" ++
      "\"e3b0c44298fc1c149afbf4c8996fb92427ae41e4649b934ca495991b7852b855\"\x7d"))
  else if name = "300a2bf117d1cbef952c3bdea033034db7d921aad77fd9314d026b4eb1bd8344.ptx" then
    some []
  else none

theorem stored?_empty (f : Fingerprint) :
    setup.store.stored? (files.content fun _ => none) f = none :=
  setup.store.stored?_plainly _ f

theorem stored?_lacking :
    setup.store.stored? lacking fingerprint = some ⟨[], .ptx, "sm_80", .empty, .empty⟩ := by
  decide +kernel

theorem verdict_lacking :
    calm.driver.verdict setup.device ⟨[], .ptx, "sm_80", .empty, .empty⟩ = .ok () :=
  Except.eq_ok_of_toOption (by decide +kernel)

theorem compiles_order : calm.Compiles setup order := by
  refine ⟨⟨⟨[], .ptx, "sm_80", .ofList [("k", "k")], .empty⟩, []⟩, ?_, ?_, ?_⟩
  · exact Except.eq_ok_of_toOption (by decide +kernel)
  · exact Except.eq_ok_of_toOption (by decide +kernel)
  · decide +kernel

theorem prepares_order : ({ setup } : Depot).Prepares {} ⟨[], 0⟩ request order where
  request := rfl
  arch := Except.eq_ok_of_toOption (by decide +kernel)
  device := Except.eq_ok_of_toOption (by decide +kernel)
  flags := rfl
  space := rfl
  source := Except.eq_ok_of_toOption (by decide +kernel)
  fingerprint := rfl

theorem prepare_depot :
    (({ setup } : Depot).prepare calm.disk ⟨[], 0⟩ request).outcome = .ok order :=
  Depot.prepare_eq_ok_iff.mpr prepares_order

theorem prepare_site (content : String → Option Bytes) :
    ((site content).prepare host ⟨[], 0⟩ request).1 = .ok order :=
  prepare_depot

theorem fingerprint_site (content : String → Option Bytes) :
    ((site content).fingerprint host ⟨[], 0⟩ request).1 = .ok fingerprint := by
  show ((site content).prepare host ⟨[], 0⟩ request).1.map _ = _
  rw [prepare_site, ← fingerprint_order]
  rfl

theorem isNew_site (content : String → Option Bytes) : (site content).depot.IsNew :=
  ⟨⟨rfl, rfl⟩, rfl⟩

theorem isOk_getKernel_site : ((site fun _ => none).getKernel host ⟨[], 0⟩ request).1.isOk := by
  rw [(Site.isOk_getKernel rfl (isNew_site _).toIsIdle prepare_depot).1]
  exact (calm.promises_of_none rfl (stored?_empty _)).mpr compiles_order

/-- The request succeeds over an empty directory and never over this one. -/
theorem not_isOk_getKernel_lacking :
    ((site fun _ => none).getKernel host ⟨[], 0⟩ request).1.isOk ∧
      ∀ n, ¬ (((site lacking).after host ⟨[], 0⟩ request n).getKernel host ⟨[], 0⟩
        request).1.isOk := by
  refine ⟨isOk_getKernel_site, fun n => ?_⟩
  have hsetup : (site lacking).depot.setup = (site fun _ => none).depot.setup := rfl
  rw [Site.isOk_getKernel_iff_of_empty calm hsetup (isNew_site fun _ => none) (isNew_site lacking)
    (fun _ => plainly_of_none rfl) (fingerprint_site _) isOk_getKernel_site n]
  intro h
  rcases h _ ((setup.store.stored?_plainly _ _).trans stored?_lacking) with ⟨-, hmem⟩ | ⟨e, he, -⟩
  · exact absurd hmem (by decide +kernel)
  · exact nomatch verdict_lacking.symm.trans he

end Shelf
end KernelDepot
