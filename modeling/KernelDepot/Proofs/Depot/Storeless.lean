/-
Trouble with the store does not show.

No call fails because of the store.  A call whose look-up in the store comes to nothing goes on as
if there were no store: the two calls are at the same stage all the time, and in the end their
depots differ in the numbers of modules and in the counters for the disk.  A place of work on a
machine is steady enough for that, as long as nothing that is searched for includes is in the
directory of the store.
-/
import KernelDepot.Proofs.Depot.Covering
import KernelDepot.Proofs.Depot.Lacking
import KernelDepot.Proofs.Depot.Passage
import KernelDepot.Proofs.Depot.Recovery
import KernelDepot.Proofs.Depot.Workplace
import KernelDepot.Provider.Embedded
import KernelDepot.Toolchain.Simulated

namespace KernelDepot

/-! ## No call fails because of the store -/

def SparesStore (outcome : Outcome) : Prop := ∀ e, outcome ≠ .error (.store e)

def Stage.SparesStore : Stage → Prop
  | .holding _ (.unlock outcome) | .holding _ (.leave outcome) | .finished outcome =>
    KernelDepot.SparesStore outcome
  | _ => True

theorem LoadedModule.sparesStore_outcome (m : LoadedModule) (entry : String) :
    SparesStore (m.outcome entry) := by
  intro e
  unfold outcome
  cases KernelHandle.of m entry <;> exact nofun

namespace Call

variable {σ : Type} {host : Host σ} {order : KeyedRequest} {s : Site σ}

theorem sparesStore_work {n : Nat} {task : Task} (h : (Stage.holding n task).SparesStore) :
    (work host order s n task).1.SparesStore := by
  have hworks := works_work host order s n task
  generalize work host order s n task = worked at hworks ⊢
  obtain ⟨after, s'⟩ := worked
  cases hworks with
  | lock => exact trivial
  | refuse failure hfailure => exact nofun
  | find m hfailure hm => exact m.sparesStore_outcome _
  | search hfailure hm => exact trivial
  | restoreFailed e hr => exact nofun
  | restored m hr => exact trivial
  | missed hr => exact trivial
  | compileRefused failure hc => exact nofun
  | compileFailed e hc hne =>
    rintro e' he
    rw [Except.error.inj he] at hc
    exact absurd (PreparedRequest.isOfProgram_of_compile hc) Bool.false_ne_true
  | compiled result hc hextra => exact trivial
  | compiledOnce result hc hextra => exact trivial
  | store a => exact trivial
  | loadFailed a shared e hl => exact nofun
  | loaded a m hl => exact trivial
  | loadedOnce a m hl => exact m.sparesStore_outcome _
  | insert m => exact LoadedModule.sparesStore_outcome _ _
  | unlock outcome => exact h
  | leave outcome => exact h

theorem sparesStore_act {stage : Stage} (h : stage.SparesStore) :
    (act host order s stage).1.SparesStore := by
  cases stage with
  | lookup =>
    unfold act
    cases s.depot.find? order.fingerprint with
    | some m =>
      simp only [serveHit_outcome]
      exact m.sparesStore_outcome _
    | none => exact trivial
  | join => exact trivial
  | holding n task => exact sparesStore_work h
  | finished outcome => exact h

end Call

theorem Site.sparesStore_getKernel {σ : Type} {host : Host σ} (s : Site σ) (path : SearchPath)
    (request : Request) : SparesStore (s.getKernel host path request).1 := by
  unfold getKernel
  cases hprepared : s.prepare host path request with
  | mk outcome s₁ =>
    cases outcome with
    | error e =>
      intro e' he'
      obtain rfl : e = .store e' := Except.error.inj he'
      have hprepare : (s.depot.prepare (host.disk s.world.outside) path request).outcome =
          .error (.store e') := congrArg Prod.fst hprepared
      rcases Depot.cases_of_prepare hprepare with ⟨fault, he⟩ | ⟨arch, failure, -, he⟩ | he
      · exact nomatch he
      · exact nomatch he
      · exact absurd he Bool.false_ne_true
    | ok order =>
      exact Call.complete_induction (P := fun _ stage => stage.SparesStore)
        (fun _ _ _ h => Call.sparesStore_act h) trivial

/-! ## Whole calls -/

namespace Site

variable {σ β : Type} {host : Host σ} {view : σ → β}

/-- What comes of a look-up in the store. -/
theorem restore_outcome (s : Site σ) (f : Fingerprint) :
    (s.restore host f).1 =
      match (s.depot.setup.store.load f).run host.files s.world.outside with
      | (.ok (some a), x) =>
        match ((LoadedModule.load s.depot.setup.deviceId s.depot.setup.device f a).run host.device
          x).1.outcome with
        | .ok m => .ok (some m)
        | .error e => if e.isArtifactFault then .ok none else .error e
      | _ => .ok none := by
  have hfile : s.file host (s.depot.setup.store.load f) =
      (((s.depot.setup.store.load f).run host.files s.world.outside).1,
        { s with world := { s.world with
          outside := ((s.depot.setup.store.load f).run host.files s.world.outside).2 } }) := rfl
  unfold restore
  simp only
  rw [hfile]
  generalize (s.depot.setup.store.load f).run host.files s.world.outside = result
  obtain ⟨found, x⟩ := result
  cases found with
  | error failure => cases failure <;> rfl
  | ok artifact =>
    cases artifact with
    | none => rfl
    | some a =>
      have hload : (Site.load host
          (({ s with world := { s.world with outside := x } } : Site σ).report
            (ArtifactStore.loadEvents (.ok (some a)))) f a).1 =
            ((LoadedModule.load s.depot.setup.deviceId s.depot.setup.device f a).run host.device
              x).1.outcome := load_outcome _ f a
      simp only
      rw [← hload]
      generalize Site.load host _ f a = loaded
      obtain ⟨outcome, s₂⟩ := loaded
      cases outcome with
      | ok m => rfl
      | error e =>
        simp only
        split <;> rfl

theorem restore_congr {s s' : Site σ} (hsetup : s'.depot.setup = s.depot.setup)
    (houtside : s'.world.outside = s.world.outside) (f : Fingerprint) :
    (s'.restore host f).1 = (s.restore host f).1 := by
  rw [restore_outcome, restore_outcome, hsetup, houtside]

/-- A call adds to the index at most. -/
theorem exists_index_getKernel (s : Site σ) (path : SearchPath) (request : Request) :
    ∃ new, (s.getKernel host path request).2.depot.index = s.depot.index ++ new := by
  have hstart : (s.prepare host path request).2.depot.index = s.depot.index ++ [] :=
    (List.append_nil _).symm
  unfold getKernel
  generalize s.prepare host path request = prepared at hstart ⊢
  obtain ⟨outcome, s₁⟩ := prepared
  cases outcome with
  | error e => exact ⟨[], hstart⟩
  | ok order =>
    refine Call.complete_induction
      (P := fun s' _ => ∃ new, s'.depot.index = s.depot.index ++ new) ?_ ⟨[], hstart⟩
    rintro s' stage hr ⟨new, hnew⟩
    rcases (Call.moves_act host order s' stage hr).index_cases with hsame | ⟨_, m, -, -, hadded⟩
    · exact ⟨new, hsame.trans hnew⟩
    · exact ⟨new ++ [(order.fingerprint, m)], by rw [hadded, hnew, List.append_assoc]⟩

theorem lacks_storeless (s : Site σ) : s.depot.Lacks s.storeless.depot :=
  ⟨rfl, rfl, rfl, rfl, rfl, rfl, rfl⟩

/-- What a call has in common with the same call on a depot without a store: the outcome and the
change of the index, apart from numbers, and everything but the counters for the disk. -/
structure Unaffected (start : Site σ) (result result' : Outcome × Site σ) : Prop where
  outcome : Outcome.unnumbered result'.1 = Outcome.unnumbered result.1
  index : ∃ new new', result.2.depot.index = start.depot.index ++ new ∧
    result'.2.depot.index = start.depot.index ++ new' ∧
    Depot.unnumberedEntries new' = Depot.unnumberedEntries new
  depot : result.2.depot.Lacks result'.2.depot

theorem Unaffected.of_lacks {start : Site σ} {result result' : Outcome × Site σ}
    (houtcome : Outcome.unnumbered result'.1 = Outcome.unnumbered result.1)
    (hdepot : result.2.depot.Lacks result'.2.depot)
    (hindex : ∃ new, result.2.depot.index = start.depot.index ++ new)
    (hindex' : ∃ new, result'.2.depot.index = start.depot.index ++ new) :
    Unaffected start result result' := by
  obtain ⟨new, hnew⟩ := hindex
  obtain ⟨new', hnew'⟩ := hindex'
  refine ⟨houtcome, ⟨new, new', hnew, hnew', ?_⟩, hdepot⟩
  have hsame := hdepot.index
  unfold Depot.unnumberedEntries at hsame ⊢
  rw [hnew, hnew', List.map_append, List.map_append] at hsame
  exact List.append_cancel_left hsame

theorem Unaffected.map {τ : Type} {host' : Host τ} {image : σ → τ} {s : Site σ} {s' : Site τ}
    {path : SearchPath} {request : Request} (hsame : Unaffected s (s.getKernel host path request)
      (s.storeless.getKernel host path request)) (h : host'.Mirrors host image)
    (hs : s.map image = s') :
    Unaffected s' (s'.getKernel host' path request)
      (s'.storeless.getKernel host' path request) := by
  have hs' : s.storeless.map image = s'.storeless := hs ▸ rfl
  rw [← hs', ← hs, getKernel_map h, getKernel_map h]
  exact ⟨hsame.outcome, hsame.index, hsame.depot⟩

/-- Two calls side by side, one on a site and one on the site without its store. -/
structure Parallel (view : σ → β) (start s : Site σ) (stage : Stage) (s' : Site σ)
    (stage' : Stage) : Prop where
  lacks : s.depot.Lacks s'.depot
  view_eq : view s'.world.outside = view s.world.outside
  alike : stage.Alike stage'
  setup : s.depot.setup = start.depot.setup
  untouched : 7 ≤ stage.rank → s.world.outside = start.world.outside

theorem parallel_act {order : KeyedRequest} (hsteady : host.IsSteady order.space.path view)
    {start s s' : Site σ} {stage stage' : Stage}
    (hmiss : (start.restore host order.fingerprint).1 = .ok none)
    (hr : stage.rank ≠ 0) (h : Parallel view start s stage s' stage') :
    Parallel view start (Call.act host order s stage).2 (Call.act host order s stage).1
      (Call.act host order s' stage').2 (Call.act host order s' stage').1 := by
  have hrestore (n : Nat) (hs : stage = .holding n .restore) :
      (s.restore host order.fingerprint).1 = .ok none := by
    have hrank : 7 ≤ stage.rank := by
      rw [hs]
      exact Nat.le_refl 7
    exact (restore_congr h.setup (h.untouched hrank) _).trans hmiss
  obtain ⟨hlacks, halike⟩ := Call.lacks_act hsteady h.lacks h.view_eq h.alike hrestore
  refine ⟨hlacks, ?_, halike, (Call.setup_act host order s stage).trans h.setup, fun hrank => ?_⟩
  · rw [Call.view_outside_act hsteady, Call.view_outside_act hsteady]
    have hview := h.view_eq
    cases h.alike with
    | compile n => exact hsteady.view_compile _ _ _ hview
    | _ => exact hview
  · have hbefore : 7 ≤ stage.rank :=
      Nat.le_trans hrank (Nat.le_of_lt (Call.rank_act_lt host order s stage hr))
    exact (Call.outside_act_of_rank hrank).trans (h.untouched hbefore)

/-- Two calls side by side end in the same way. -/
theorem lacks_complete {order : KeyedRequest} {s s' : Site σ}
    (hsteady : host.IsSteady order.space.path view) (h : s.depot.Lacks s'.depot)
    (hview : view s'.world.outside = view s.world.outside)
    (hmiss : s.depot.find? order.fingerprint = none →
      (s.restore host order.fingerprint).1 = .ok none) :
    (Call.complete host order s .lookup).2.depot.Lacks
        (Call.complete host order s' .lookup).2.depot ∧
      Outcome.unnumbered (Call.complete host order s' .lookup).1 =
        Outcome.unnumbered (Call.complete host order s .lookup).1 := by
  rcases find?_cases h order.fingerprint with ⟨hm, -⟩ | ⟨m, m', hm, hm', hsame⟩
  · have hends := Call.complete_induction₂ (R := Parallel view s)
      (fun _ _ _ _ h => h.alike.rank_eq)
      (fun _ _ _ _ hr h => parallel_act hsteady (hmiss hm) hr h)
      (⟨h, hview, .lookup, rfl, fun _ => rfl⟩ : Parallel view s s .lookup s' .lookup)
    refine ⟨hends.lacks, ?_⟩
    cases hends.alike with
    | finished houtcome => exact houtcome
  · -- A hit ends both calls at once, and neither goes to the store.
    rw [Call.complete_of_hit hm, Call.complete_of_hit hm', serveHit_depot, serveHit_depot,
      Call.serveHit_outcome, Call.serveHit_outcome]
    exact ⟨h.hit, LoadedModule.outcome_congr hsame _⟩

/-- No call fails because of the store.  If the surroundings are steady and a call finds nothing
to load in the store, whatever trouble there is with the files, then it ends as it does without
the store. -/
theorem getKernel_storeless (s : Site σ) (path : SearchPath) (request : Request) :
    SparesStore (s.getKernel host path request).1 ∧
      (host.IsSteady (path.withRoots (host.disk s.world.outside) request.includeDirs) view →
        (∀ order, (s.prepare host path request).1 = .ok order →
          s.depot.find? order.fingerprint = none →
            (s.restore host order.fingerprint).1 = .ok none) →
        Unaffected s (s.getKernel host path request)
          (s.storeless.getKernel host path request)) := by
  refine ⟨sparesStore_getKernel s path request, fun hsteady hmiss => ?_⟩
  suffices hends : (s.getKernel host path request).2.depot.Lacks
        (s.storeless.getKernel host path request).2.depot ∧
      Outcome.unnumbered (s.storeless.getKernel host path request).1 =
        Outcome.unnumbered (s.getKernel host path request).1 from
    .of_lacks hends.2 hends.1 (exists_index_getKernel s path request)
      (exists_index_getKernel s.storeless path request)
  cases hprepared : (s.prepare host path request).1 with
  | error e =>
    have hprepared' : (s.storeless.prepare host path request).1 = .error e := hprepared
    rw [getKernel_of_prepare_error hprepared, getKernel_of_prepare_error hprepared']
    exact ⟨s.lacks_storeless, rfl⟩
  | ok order =>
    have hspace := (Depot.prepare_eq_ok_iff.mp hprepared).space
    have hprepared' : (s.storeless.prepare host path request).1 = .ok order := hprepared
    rw [getKernel_of_prepare hprepared, getKernel_of_prepare hprepared']
    rw [show path.withRoots _ _ = order.space.path by rw [hspace]] at hsteady
    have hrestore : ((s.prepare host path request).2.restore host order.fingerprint).1 =
        (s.restore host order.fingerprint).1 := restore_congr (by rfl) (by rfl) _
    exact lacks_complete hsteady s.lacks_storeless rfl fun hfind =>
      hrestore.trans (hmiss order hprepared hfind)

end Site

/-! ## Places of work are steady -/

namespace Workplace

variable {w : Workplace} {path : SearchPath} {dirs : List String}

theorem isSteady_host (h : w.Spares path dirs) (x : w.State) :
    w.host.IsSteady (path.withRoots x.1.disk dirs) fun _ => () where
  resolve name y z _ := by
    have hview (y : w.State) : (path.withRoots x.1.disk dirs).resolve y.1.disk name =
        (path.withRoots x.1.disk dirs).resolve x.1.disk name :=
      SearchPath.resolve_congr ((h.servesAlike x).symm.trans (h.servesAlike y)) name
    exact (hview y).trans (hview z).symm
  dialogue _ _ _ _ := rfl
  load id info f a y z _ := w.drives.run_load_congr id info f a y z
  view_compile _ _ _ _ := rfl
  view_device _ _ := rfl
  view_files _ _ _ _ := rfl

end Workplace

/-! ## A manifest that has come to nothing

The program includes a header from a directory on the disk of a machine, and the manifest of its
fingerprint is in another one, without any content. -/

namespace Torn

open Disk

def header : Bytes := Text.bytes "#define N 4\n"

def text : String := "#include \"x.h\"\n"

def request : Request := { entries := ["k"], source := .inline text, arch := "sm_80" }

def source : ResolvedSource where
  origin := "text"
  text := Text.bytes text
  dependencies := [⟨"x.h", "fs:/inc", header, some mainProgramName⟩]
  builtins := []
  deferred := []

def toolchain : SimulatedToolchain := {}

def fingerprint : Fingerprint := .compute request [] source toolchain.toolchain.identity

/-- A directory with a header, and one with a manifest that has come to nothing. -/
def disk : Disk where
  entries := [(["inc"], .directory), (["inc", "x.h"], .file header), (["cache"], .directory),
    (["cache", ArtifactStore.manifestName fingerprint], .file [])]

def root : IncludeRoot := ⟨"/inc", none⟩

def path : SearchPath :=
  ⟨[⟨root.provider, 0, false, 0⟩, ⟨EmbeddedFiles.bundled.provider, -100, false, 1⟩], 2⟩

def space : IncludeSpace := ⟨path, disk, []⟩

theorem mem_disk {place : Place} {entry : Entry} (h : disk.entryAt place = some entry) :
    place = [] ∧ entry = .directory ∨ (place, entry) ∈ disk.entries := by
  unfold entryAt at h
  split at h
  next hroot => exact .inl ⟨hroot, (Option.some.inj h).symm⟩
  next =>
    obtain ⟨front, back, hentries, -⟩ := List.lookup_eq_some_iff.mp h
    exact .inr (hentries ▸ List.mem_append_right _ List.mem_cons_self)

theorem not_link (place : Place) (target : String) : disk.entryAt place ≠ some (.link target) := by
  intro h
  rcases mem_disk h with ⟨-, heq⟩ | hmem
  · exact nomatch heq
  · simp [disk] at hmem

theorem isCanonical_places : disk.IsCanonical ["inc"] ∧ disk.IsCanonical ["inc", "x.h"] ∧
    disk.IsCanonical ["cache"] := by
  have hname {name : String} (h : name ∈ ["inc", "x.h", "cache"]) : IsName name := by
    have hall : ∀ name ∈ ["inc", "x.h", "cache"], Path.IsPlain name ∧
        (Text.bytes name).length ≤ nameLimit := by
      decide
    obtain ⟨hplain, hshort⟩ := hall name h
    exact ⟨hplain, hshort⟩
  have hinc : disk.IsCanonical ["inc"] :=
    IsCanonical.concat (.root disk) rfl (hname (by decide)) fun _ => nofun
  exact ⟨hinc, hinc.concat rfl (hname (by decide)) fun _ => nofun,
    IsCanonical.concat (.root disk) rfl (hname (by decide)) fun _ => nofun⟩

theorem lookup_header : root.lookup disk "x.h" = .ok (some header) := by
  have hheader : Path.names "x.h" = ["x.h"] ∧ Path.join "/inc" "x.h" = pathOf ["inc", "x.h"] := by
    decide
  have hdown : ¬IncludeRoot.LeadsAway "x.h" := by
    unfold IncludeRoot.LeadsAway
    decide
  have hread : disk.read (Path.join "/inc" "x.h") = .ok header := by
    rw [hheader.2]
    exact (read_pathOf_eq_ok_iff isCanonical_places.2.1 rfl).mpr ⟨by decide, by decide, rfl⟩
  exact IncludeRoot.lookup_of_read (by decide) isCanonical_places.1 (by decide) hdown
    (fun _ => nofun) (fun front target _ => not_link _ target) hread

def page : Page := ⟨mainProgramName, none, Text.bytes text⟩

/-- The scan finds the header in the directory. -/
theorem outcome_scan : (Scan.ofSource space request.source).outcome = .ok source := by
  have hlook (d : Directive) (h : d.name = "x.h") :
      space.look page d = .ok (some ⟨"fs:/inc", header⟩) := by
    have hask : SearchPath.ask disk root.provider "x.h" = .ok (some ⟨"fs:/inc", header⟩) := by
      unfold SearchPath.ask
      rw [IncludeRoot.lookup_provider, lookup_header]
      rfl
    have hresolve : path.resolve disk "x.h" = .ok (some ⟨"fs:/inc", header⟩) := by
      unfold SearchPath.resolve path SearchPath.resolveAmong
      rw [hask]
    unfold IncludeSpace.look
    rw [h]
    cases d.quoted <;> exact hresolve
  have hread : Survey.read space page ⟨[], []⟩ = .ok ⟨source.dependencies.map .dependency,
      [⟨"x.h", some "fs:/inc", header⟩]⟩ := by
    obtain ⟨d, hd, hname⟩ : ∃ d, Directive.ofBytes page.content = [d] ∧ d.name = "x.h" :=
      ⟨⟨"x.h", true, 1⟩, by decide +kernel, rfl⟩
    have hfollow : Survey.follow space page ⟨[], []⟩ d = .ok
        ⟨source.dependencies.map .dependency, [⟨"x.h", some "fs:/inc", header⟩]⟩ := by
      unfold Survey.follow
      rw [hlook d hname, hname]
      rfl
    unfold Survey.read
    rw [hd, List.foldlM_cons, hfollow]
    rfl
  have hlast : Survey.read space ⟨"x.h", some "fs:/inc", header⟩
      ⟨source.dependencies.map .dependency, []⟩ =
        .ok ⟨source.dependencies.map .dependency, []⟩ := by
    have hnone : Directive.ofBytes header = [] := by decide +kernel
    unfold Survey.read
    rw [hnone]
    rfl
  have hdrains : Survey.Drains space ⟨[], [page]⟩ (.ok ⟨source.dependencies.map .dependency, []⟩) :=
    .next rfl hread (.next rfl hlast (.done rfl))
  exact (Scan.outcome_of_drains "text" hdrains).trans rfl

def setup : Setup where
  toolchain := toolchain.toolchain.identity
  deviceId := 0
  device := ⟨0, "Mock Device", (8, 0)⟩
  store := ⟨"/cache", true⟩

def machine : Machine := { disk, drivers := [.ofCapability 8 0] }

def workplace : Workplace where
  disk
  folder := ["cache"]
  deviceId := 0
  device := setup.device
  toolchain := toolchain.toolchain
  not_link
  hasNul_eq := by decide
  hasRoom := by decide

theorem isFolder_cache : disk.IsFolder ["cache"] where
  isCanonical := isCanonical_places.2.2
  isDirectory := rfl
  flat below entry hne h := by
    rcases mem_disk h with ⟨heq, -⟩ | hmem
    · exact nomatch heq
    · have hbelow : below = [ArtifactStore.manifestName fingerprint] ∧ entry = .file [] := by
        simpa [disk, hne] using hmem
      exact ⟨_, _, hbelow⟩
  named name content h := by
    have hmanifest : name = ArtifactStore.manifestName fingerprint := by
      unfold fileIn? at h
      split at h
      next found hentry =>
        rcases mem_disk hentry with ⟨heq, -⟩ | hmem
        · exact nomatch heq
        · have hentry : name = ArtifactStore.manifestName fingerprint ∧ found = [] := by
            simpa [disk] using hmem
          exact hentry.1
      next => exact nomatch h
    rw [hmanifest]
    exact ⟨ArtifactStore.isPlain_manifestName fingerprint,
      workplace.nameFault?_of_mem_namesOf (ArtifactStore.mem_namesOf.mpr (.inl rfl))⟩
  nodup := by simp [disk]

theorem suits_machine : workplace.Suits machine where
  isAround := .refl disk ["cache"]
  isFolder := isFolder_cache
  isReady := ⟨⟨rfl, nofun⟩, rfl, rfl⟩
  isSized := ⟨by decide, by decide⟩

def site : Site workplace.State :=
  { depot := { setup }, world := { outside := ⟨machine, suits_machine⟩ } }

def order : KeyedRequest where
  request
  arch := .sm 8 0
  flags := []
  space
  source
  fingerprint

theorem spares_path : workplace.Spares path request.includeDirs where
  providers r hr := by
    simp only [path, List.mem_cons, List.not_mem_nil, or_false] at hr
    rcases hr with rfl | rfl
    · have hbeside : IncludeRoot.IsBeside root.root disk ["cache"] :=
        ⟨canonical_pathOf isCanonical_places.1 rfl (by decide) (by decide), by decide, by decide⟩
      exact IncludeRoot.isApart_provider not_link hbeside
    · exact EmbeddedFiles.isApart_provider _ _ _
  roots := nofun

def calm : Calm workplace.host path request.includeDirs := workplace.calm spares_path

theorem prepares_order : ({ setup } : Depot).Prepares disk path request order where
  request := rfl
  arch := Except.eq_ok_of_toOption (by decide +kernel)
  device := Except.eq_ok_of_toOption (by decide +kernel)
  flags := rfl
  space := rfl
  source := outcome_scan
  fingerprint := rfl

theorem prepare_depot :
    (({ setup } : Depot).prepare calm.disk path request).outcome = .ok order :=
  Depot.prepare_eq_ok_iff.mpr prepares_order

theorem disk_site : workplace.host.disk site.world.outside = disk := rfl

theorem prepare_site : (site.prepare workplace.host path request).1 = .ok order := by
  simp only [Site.prepare, disk_site]
  exact prepare_depot

theorem stored?_site : setup.store.stored? (calm.content site) order.fingerprint = none := by
  have hmanifest : disk.fileIn? ["cache"] (ArtifactStore.manifestName fingerprint) = some [] := by
    simp [fileIn?, entryAt, disk, List.lookup_cons]
  exact ArtifactStore.stored?_of_unreadable hmanifest (by decide +kernel)

def image : Bytes := Text.bytes (Listing.render "sm_80" ["k"] [])

theorem compiles_order : calm.Compiles setup order := by
  refine ⟨⟨⟨image, .ptx, "sm_80", .ofList [("k", "k")], .empty⟩, []⟩, ?_, ?_, ?_⟩
  · exact Except.eq_ok_of_toOption (by decide +kernel)
  · exact Except.eq_ok_of_toOption (by decide +kernel)
  · decide +kernel

theorem isOk_getKernel_site : (site.getKernel workplace.host path request).1.isOk := by
  have hfind : site.depot.find? order.fingerprint = none := rfl
  have hpromises := @Site.isOk_getKernel _ workplace.host path request calm order setup site rfl
    ⟨rfl, rfl⟩ prepare_depot
  exact hpromises.1.mpr ((calm.promises_of_none hfind stored?_site).mpr compiles_order)

def host : Host Machine := Machine.host 0 "/cache" toolchain.toolchain

/-- The same site, on a machine that nothing more is asked of. -/
def start : Site Machine := { depot := { setup }, world := { outside := machine } }

/-- The kernel is compiled, stored and handed out, and the manifest does not show. -/
theorem getKernel_start : SparesStore (start.getKernel host path request).1 ∧
    Site.Unaffected start (start.getKernel host path request)
      (start.storeless.getKernel host path request) ∧
    (start.getKernel host path request).1.isOk ∧
    (start.getKernel host path request).2.depot.counters.persistenceFailures = 0 := by
  obtain ⟨hspares, hsame⟩ := @Site.getKernel_storeless _ _ workplace.host (fun _ => ()) site path
    request
  have hunaffected := hsame (Workplace.isSteady_host spares_path _) fun other hother _ => by
    obtain rfl := Except.ok.inj (prepare_site.symm.trans hother)
    exact (@Calm.restore_of_none _ _ _ _ calm site _ stored?_site).1
  have hfailures := Site.persistenceFailures_getKernel workplace.isReliable_kept site path request
  have hmirrors : host.Mirrors workplace.host Subtype.val := workplace.mirrors_host
  have hstart : site.map Subtype.val = start := rfl
  obtain ⟨houtcome, hdepot⟩ := Site.results_getKernel_map hmirrors hstart path request
  rw [houtcome, hdepot]
  exact ⟨hspares, hunaffected.map hmirrors hstart, isOk_getKernel_site, hfailures⟩

end Torn

/-! ## An include that is kept in the store

The toolchain asks for the manifest of the very request, and the directory of the store is
searched for includes.  The damaged manifest is removed before the toolchain asks for it. -/

namespace Shelf

def manifest : String := "300a2bf117d1cbef952c3bdea033034db7d921aad77fd9314d026b4eb1bd8344.json"

def image : String := "300a2bf117d1cbef952c3bdea033034db7d921aad77fd9314d026b4eb1bd8344.ptx"

/-- An empty manifest and an empty image. -/
def torn (name : String) : Option Bytes := if name = manifest ∨ name = image then some [] else none

theorem load_congr (id : Nat) (info : DeviceInfo) (f : Fingerprint) (a : Artifact)
    (x y : String → Option Bytes) :
    ((LoadedModule.load id info f a).run host.device x).1.outcome.map LoadedModule.unnumbered =
      ((LoadedModule.load id info f a).run host.device y).1.outcome.map
        LoadedModule.unnumbered := by
  rw [Program.run_fst_congr (fun _ _ _ => rfl) _ x y]

end Shelf

namespace Nested

def host : Host (String → Option Bytes) :=
  { Shelf.host with
    disk := fun content =>
      { entries :=
          ((content Shelf.manifest).map fun bytes => ([Shelf.manifest], .file bytes)).toList }
    compile := fun _ content =>
      (.ask ⟨Shelf.manifest, none⟩ fun answer =>
        .done (if answer.isSome then .ok ⟨[], .ptx, .empty, ""⟩ else .error ""), content) }

def provider : Provider where
  id := "store"
  kind := .other
  lookup disk name := .ok (match disk.entries.lookup [name] with
    | some (.file content) => some content
    | _ => none)
  texts disk := disk.contents
  mem_texts disk name content h := by
    have h := Except.ok.inj h
    split at h
    next found hfound =>
      obtain ⟨front, back, hentries, -⟩ := List.lookup_eq_some_iff.mp hfound
      simp [Disk.contents, hentries, ← Option.some.inj h]
    next => exact absurd h.symm (Option.some_ne_none content)

def path : SearchPath := ⟨[⟨provider, 0, false, 0⟩], 1⟩

theorem isSteady_host : host.IsSteady ⟨[], 0⟩ fun _ => () where
  resolve _ _ _ _ := rfl
  dialogue _ _ _ _ := rfl
  load id info f a x y _ := Shelf.load_congr id info f a x y
  view_compile _ _ _ _ := rfl
  view_device _ _ := rfl
  view_files _ _ _ _ := rfl

def order : KeyedRequest :=
  { Shelf.order with
    space := ⟨path, host.disk Shelf.torn, []⟩
    fingerprint := Shelf.fingerprint }

theorem prepare_torn :
    ((Shelf.site Shelf.torn).prepare host path Shelf.request).1 = .ok order :=
  Depot.prepare_eq_ok_iff.mpr
    { request := rfl
      arch := Shelf.prepares_order.arch
      device := Shelf.prepares_order.device
      flags := rfl
      space := rfl
      source := Except.eq_ok_of_toOption (by decide +kernel)
      fingerprint := Shelf.fingerprint_order.symm }

theorem restore_torn (other : KeyedRequest)
    (h : ((Shelf.site Shelf.torn).prepare host path Shelf.request).1 = .ok other) :
    ((Shelf.site Shelf.torn).restore host other.fingerprint).1 = .ok none := by
  obtain rfl := Except.ok.inj (prepare_torn.symm.trans h)
  refine (Site.restore_of_missing fun a ha => ?_).1
  have hload : ((Shelf.setup.store.load Shelf.fingerprint).run host.files
      Shelf.torn).1.toOption = none := by
    decide +kernel
  rw [show ((Shelf.setup.store.load Shelf.fingerprint).run host.files Shelf.torn).1 =
    .ok (some a) from ha] at hload
  exact nomatch hload

/-- The toolchain and the driver depend on nothing, and the store has nothing to load, but
without the store the call succeeds and with it it fails. -/
theorem not_unaffected_getKernel :
    host.IsSteady ⟨[], 0⟩ (fun _ => ()) ∧
      (∀ order, ((Shelf.site Shelf.torn).prepare host path Shelf.request).1 = .ok order →
        ((Shelf.site Shelf.torn).restore host order.fingerprint).1 = .ok none) ∧
      ((Shelf.site Shelf.torn).storeless.getKernel host path Shelf.request).1.isOk ∧
      ¬ ((Shelf.site Shelf.torn).getKernel host path Shelf.request).1.isOk ∧
      ¬ Site.Unaffected (Shelf.site Shelf.torn)
        ((Shelf.site Shelf.torn).getKernel host path Shelf.request)
        ((Shelf.site Shelf.torn).storeless.getKernel host path Shelf.request) := by
  have hwithout : ((Shelf.site Shelf.torn).storeless.getKernel host path Shelf.request).1.isOk := by
    have hprepare : ((Shelf.site Shelf.torn).storeless.prepare host path Shelf.request).1 =
        .ok order := prepare_torn
    rw [Site.getKernel_of_prepare hprepare]
    decide +kernel
  have hwith : ¬ ((Shelf.site Shelf.torn).getKernel host path Shelf.request).1.isOk := by
    rw [Site.getKernel_of_prepare prepare_torn]
    decide +kernel
  refine ⟨isSteady_host, restore_torn, hwithout, hwith, fun h => hwith ?_⟩
  rw [← Outcome.isOk_unnumbered, ← h.outcome, Outcome.isOk_unnumbered]
  exact hwithout

end Nested
end KernelDepot
