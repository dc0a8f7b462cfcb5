/-
All depots over one directory hand out the same kernel.

Depots of one setup share a directory that was empty before the first of them was opened.  They
serve one request again and again, and others with other fingerprints, and now and then an
index is emptied.  A handle may come from an index, from the directory or from the toolchain.
`Fleet.agrees_handles` says that this cannot be told from the handle.
-/
import KernelDepot.Depot.Fleet
import KernelDepot.Proofs.Depot.Recovery
import KernelDepot.Proofs.Depot.Tiers

namespace KernelDepot

namespace Fleet

/-- Whether a move brings no other request of the same fingerprint, whatever is on the disk. -/
def Move.Spares {σ : Type} (host : Host σ) (setup : Setup) (path : SearchPath) (request : Request)
    (f : Fingerprint) : Move → Prop
  | .arrive _ path' request' => path' = path ∧ request' = request ∨
    ∀ x order, (({ setup } : Depot).prepare (host.disk x) path' request').outcome = .ok order →
      order.fingerprint ≠ f
  | _ => True

theorem mem_handles {σ : Type} {fleet : Fleet σ} {f : Fingerprint} {handle : KernelHandle} :
    handle ∈ fleet.handles f ↔ ∃ crew ∈ fleet.crews, ∃ c ∈ crew.calls,
      c.stage = .finished (.ok handle) ∧ c.order.fingerprint = f := by
  unfold handles
  rw [List.mem_flatMap]
  refine exists_congr fun crew => and_congr_right fun _ => ?_
  rw [List.mem_filterMap]
  refine exists_congr fun c => and_congr_right fun _ => ?_
  obtain ⟨order, stage⟩ := c
  cases stage with
  | finished outcome =>
    cases outcome with
    | ok present =>
      by_cases hf : order.fingerprint = f
      · simp [hf]
      · simp [hf]
    | error e => simp
  | _ => simp

end Fleet

namespace Calm

variable {σ : Type} {host : Host σ} {path : SearchPath} {request : Request}
  (calm : Calm host path request.includeDirs) (setup : Setup) (order : KeyedRequest)
  (size : Bytes → String → Nat)

/-- What holds of the traffic of every depot.  The request is known as it is prepared in advance,
and the calls have it as it was prepared when they came. -/
structure Uniform (t : Traffic σ) : Prop where
  sameSetup : t.site.depot.setup = setup
  tidy : calm.Tidy setup order (calm.content t.site)
  index : ∀ m, t.site.depot.find? order.fingerprint = some m → calm.Presented setup order size m
  calls : ∀ c ∈ t.calls, c.order.fingerprint = order.fingerprint →
    c.order.on calm.disk = order ∧ calm.Searches c.order ∧ calm.Carries setup order size c.stage

namespace Uniform

variable {calm setup order size} {t : Traffic σ}

theorem arrive {path' : SearchPath} {request' : Request} (h : calm.Uniform setup order size t)
    (hspares : ∀ order', (t.site.prepare host path' request').1 = .ok order' →
      order'.fingerprint = order.fingerprint →
        order'.on calm.disk = order ∧ calm.Searches order') :
    calm.Uniform setup order size (t.arrive host path' request') := by
  have hsite : (t.site.prepare host path' request').2.depot = t.site.depot ∧
      (t.site.prepare host path' request').2.world.outside = t.site.world.outside := ⟨rfl, rfl⟩
  unfold Traffic.arrive
  generalize t.site.prepare host path' request' = prepared at hspares hsite ⊢
  obtain ⟨outcome, s⟩ := prepared
  obtain ⟨hdepot, houtside⟩ := hsite
  have htidy : calm.Tidy setup order (calm.content s) := by
    unfold content
    rw [houtside]
    exact h.tidy
  have hsetup : s.depot.setup = setup := by rw [hdepot]; exact h.sameSetup
  have hindex : ∀ m, s.depot.find? order.fingerprint = some m →
      calm.Presented setup order size m := by rw [hdepot]; exact h.index
  cases outcome with
  | error e => exact ⟨hsetup, htidy, hindex, h.calls⟩
  | ok order' =>
    refine ⟨hsetup, htidy, hindex, fun c hc heq => ?_⟩
    rcases List.mem_append.mp hc with hc | hc
    · exact h.calls c hc heq
    · obtain rfl := List.mem_singleton.mp hc
      obtain ⟨hsame, hpath⟩ := hspares order' rfl heq
      exact ⟨hsame, hpath, trivial⟩

theorem turn (horderly : calm.files.IsOrderly) (hsize : calm.driver.Measures size)
    (hsmall : ∀ a, calm.Compiled setup order a → a.image.length < Number.limit64)
    (h : calm.Uniform setup order size t) (i : Nat) :
    calm.Uniform setup order size (t.turn host i) := by
  unfold Traffic.turn
  cases hi : t.calls[i]? with
  | none => exact h
  | some c =>
    obtain ⟨order', stage⟩ := c
    have hown := h.calls _ (List.mem_of_getElem? hi)
    simp only
    split
    · exact h
    · refine ⟨?_, ?_, ?_, ?_⟩
      · exact (Call.setup_act host order' t.site stage).trans h.sameSetup
      · refine tidy_act horderly h.tidy fun n a hs heq => ?_
        have hcarries := (hown heq).2.2
        rw [hs] at hcarries
        exact hcarries
      · refine fun m hm => presented_act h.index (fun n m' hs heq => ?_) hm
        have hcarries := (hown heq).2.2
        rw [hs] at hcarries
        exact hcarries
      · intro c hc heq
        rcases List.mem_or_eq_of_mem_set hc with hc | rfl
        · exact h.calls c hc heq
        · obtain ⟨rfl, hpath, hcarries⟩ := hown heq
          exact ⟨rfl, hpath, carries_act hpath hsize hsmall h.sameSetup
            ⟨h.tidy.manifest, h.tidy.image⟩ h.index hcarries⟩

theorem release (h : calm.Uniform setup order size t) :
    calm.Uniform setup order size { t with site := (t.site.release host).2 } where
  sameSetup := by rw [Site.release_depot]; exact h.sameSetup
  tidy := by
    unfold content
    rw [Site.view_release calm.content_device]
    exact h.tidy
  index m hm := by
    rw [Site.release_depot] at hm
    exact nomatch hm
  calls := h.calls

/-- If compiling comes to a handle then every call does. -/
theorem promises (h : calm.Uniform setup order size t)
    (hsmall : ∀ a, calm.Compiled setup order a → a.image.length < Number.limit64)
    (hc : calm.Compiles setup order) : calm.Promises setup order t.site := by
  cases hm : t.site.depot.find? order.fingerprint with
  | some m =>
    obtain ⟨a, ha, hpresents⟩ := h.index m hm
    rw [calm.promises_of_find? hm, hpresents.isSome_function?]
    exact ((compiles_iff_of_compiled ha).mp hc).2
  | none =>
    cases hstored : setup.store.stored? (calm.content t.site) order.fingerprint with
    | none => exact (calm.promises_of_none hm hstored).mpr hc
    | some a =>
      have ha := h.tidy.compiled_of_stored? hsmall hstored
      exact (calm.promises_of_some hm hstored).mpr (.inl ((compiles_iff_of_compiled ha).mp hc))

end Uniform

/-! ## Fleets -/

/-- What holds of a fleet whose directory was empty in the beginning. -/
structure Concerted (fleet : Fleet σ) : Prop where
  sameSetup : fleet.setup = setup
  tidy : calm.Tidy setup order (calm.files.content fleet.world.outside)
  crews : ∀ crew ∈ fleet.crews,
    calm.Uniform setup order size ⟨⟨crew.depot, fleet.world⟩, crew.calls⟩

namespace Concerted

variable {calm setup order size} {fleet : Fleet σ}

/-- Of the world outside only the directory matters. -/
theorem frame {crew : Crew} {world world' : World σ}
    (h : calm.Uniform setup order size ⟨⟨crew.depot, world⟩, crew.calls⟩)
    (htidy : calm.Tidy setup order (calm.files.content world'.outside)) :
    calm.Uniform setup order size ⟨⟨crew.depot, world'⟩, crew.calls⟩ :=
  ⟨h.sameSetup, htidy, h.index, h.calls⟩

theorem work (h : calm.Concerted setup order size fleet) {change : Traffic σ → Traffic σ}
    (hchange : ∀ t, calm.Uniform setup order size t → calm.Uniform setup order size (change t))
    (i : Nat) : calm.Concerted setup order size (fleet.work i change) := by
  unfold Fleet.work
  cases hi : fleet.crews[i]? with
  | none => exact h
  | some crew =>
    have hnew := hchange _ (h.crews crew (List.mem_of_getElem? hi))
    refine ⟨h.sameSetup, hnew.tidy, fun other hother => ?_⟩
    rcases List.mem_or_eq_of_mem_set hother with hother | rfl
    · exact frame (h.crews other hother) hnew.tidy
    · exact hnew

theorem next (horderly : calm.files.IsOrderly) (hsize : calm.driver.Measures size)
    (hsmall : ∀ a, calm.Compiled setup order a → a.image.length < Number.limit64)
    (hprepare : (({ setup } : Depot).prepare calm.disk path request).outcome = .ok order)
    (h : calm.Concerted setup order size fleet) {move : Fleet.Move}
    (hmove : move.Spares host setup path request order.fingerprint) :
    calm.Concerted setup order size (fleet.next host move) := by
  cases move with
  | add =>
    refine ⟨h.sameSetup, h.tidy, fun crew hcrew => ?_⟩
    rcases List.mem_append.mp hcrew with hcrew | hcrew
    · exact h.crews crew hcrew
    · obtain rfl := List.mem_singleton.mp hcrew
      exact ⟨h.sameSetup, h.tidy, fun m hm => (nomatch hm), fun c hc => (nomatch hc)⟩
  | arrive i path' request' =>
    refine h.work (fun t ht => ht.arrive fun order' horder' heq => ?_) i
    rcases hmove with ⟨rfl, rfl⟩ | hother
    · rw [← Site.prepare_fst calm ht.sameSetup, horder'] at hprepare
      exact ⟨Except.ok.inj hprepare, Site.searches_of_prepare horder'⟩
    · refine absurd heq (hother t.site.world.outside order' ?_)
      rw [← ht.sameSetup]
      exact horder'
  | turn i j => exact h.work (fun t ht => ht.turn horderly hsize hsmall j) i
  | release i => exact h.work (fun t ht => ht.release) i
  | letGo key =>
    have hcontent : calm.files.content (fleet.world.letGo host.device key).outside =
        calm.files.content fleet.world.outside :=
      Site.view_letGo calm.content_device ⟨{ setup }, fleet.world⟩ key
    have htidy : calm.Tidy setup order
        (calm.files.content (fleet.world.letGo host.device key).outside) := by
      rw [hcontent]
      exact h.tidy
    exact ⟨h.sameSetup, htidy, fun crew hcrew => frame (h.crews crew hcrew) htidy⟩

theorem run (horderly : calm.files.IsOrderly) (hsize : calm.driver.Measures size)
    (hsmall : ∀ a, calm.Compiled setup order a → a.image.length < Number.limit64)
    (hprepare : (({ setup } : Depot).prepare calm.disk path request).outcome = .ok order)
    (h : calm.Concerted setup order size fleet) {moves : List Fleet.Move}
    (hmoves : ∀ move ∈ moves, move.Spares host setup path request order.fingerprint) :
    calm.Concerted setup order size (fleet.run host moves) := by
  unfold Fleet.run
  induction moves generalizing fleet with
  | nil => exact h
  | cons move rest ih =>
    exact ih (h.next horderly hsize hsmall hprepare (hmoves move List.mem_cons_self))
      fun move' hmove' => hmoves move' (List.mem_cons_of_mem _ hmove')

theorem presented_of_mem_handles (h : calm.Concerted setup order size fleet)
    {handle : KernelHandle} (hmem : handle ∈ fleet.handles order.fingerprint) :
    calm.Presented setup order size handle.loaded ∧
      handle.function.entry = order.request.entries.headD "" := by
  obtain ⟨crew, hcrew, c, hc, hstage, hf⟩ := Fleet.mem_handles.mp hmem
  have hcarries := ((h.crews crew hcrew).calls c hc hf).2.2
  rw [hstage] at hcarries
  exact hcarries handle rfl

end Concerted

end Calm

namespace Fleet

/-! ## Requests that are served alone -/

section
variable {σ : Type} {host : Host σ}

theorem set_eq_self {α : Type} {l : List α} {i : Nat} {a : α} (h : l[i]? = some a) :
    l.set i a = l := by
  obtain ⟨hlt, rfl⟩ := List.getElem?_eq_some_iff.mp h
  exact List.set_getElem_self hlt

/-- A call that is alone comes to its end by taking turns. -/
theorem iterate_turn {t : Traffic σ} {i : Nat} {order : KeyedRequest} {stage : Stage}
    (hi : t.calls[i]? = some ⟨order, stage⟩) (hsound : t.site.depot.Sound [⟨order, stage⟩])
    {n : Nat} (hn : stage.rank ≤ n) : (fun t => Traffic.turn host t i)^[n] t =
      ⟨(Call.complete host order t.site stage).2,
        t.calls.set i ⟨order, .finished (Call.complete host order t.site stage).1⟩⟩ := by
  induction n generalizing t stage with
  | zero =>
    obtain ⟨outcome, rfl⟩ := Stage.eq_finished_of_rank (Nat.le_zero.mp hn)
    rw [Call.complete_finished, set_eq_self hi]
    rfl
  | succ n ih =>
    have hlt : i < t.calls.length := (List.getElem?_eq_some_iff.mp hi).1
    have hturn : t.turn host i = ⟨(Call.act host order t.site stage).2,
        t.calls.set i ⟨order, (Call.act host order t.site stage).1⟩⟩ := by
      unfold Traffic.turn
      rw [hi]
      simp only
      rw [hsound.isBlocked_eq_false, if_neg Bool.false_ne_true]
    rw [Function.iterate_succ_apply, hturn]
    by_cases hr : stage.rank = 0
    · obtain ⟨outcome, rfl⟩ := Stage.eq_finished_of_rank hr
      have hstays : Call.act host order t.site (.finished outcome) = (.finished outcome, t.site) :=
        rfl
      rw [hstays, set_eq_self hi]
      exact ih hi hsound (Nat.zero_le n)
    · have hrank := Call.rank_act_lt host order t.site stage hr
      have hmoved := hsound.move hsound.isBlocked_eq_false
        (Call.moves_act host order t.site stage hr)
      have hleft : (Call.act host order t.site stage).1.rank ≤ n := by omega
      rw [ih (List.getElem?_set_self hlt) hmoved hleft, List.set_set,
        Call.complete_eq_of_rank hr]

/-- One depot after the other, or the same one twice. -/
theorem work_work {fleet : Fleet σ} {i : Nat} (first second : Traffic σ → Traffic σ) :
    (fleet.work i first).work i second = fleet.work i fun t => second (first t) := by
  unfold work
  cases hi : fleet.crews[i]? with
  | none => simp only [hi]
  | some crew =>
    have hlt : i < fleet.crews.length := (List.getElem?_eq_some_iff.mp hi).1
    simp only [List.getElem?_set_self hlt, List.set_set]

theorem run_cons (fleet : Fleet σ) (move : Move) (rest : List Move) :
    fleet.run host (move :: rest) = (fleet.next host move).run host rest := rfl

theorem run_append (fleet : Fleet σ) (first second : List Move) :
    fleet.run host (first ++ second) = (fleet.run host first).run host second :=
  List.foldl_append

theorem run_turns {fleet : Fleet σ} (i j n : Nat) :
    fleet.run host (List.replicate n (.turn i j)) =
      fleet.work i (fun t => Traffic.turn host t j)^[n] := by
  induction n generalizing fleet with
  | zero =>
    unfold work
    cases hi : fleet.crews[i]? with
    | none => rfl
    | some crew =>
      show fleet = { fleet with crews := fleet.crews.set i crew }
      rw [set_eq_self hi]
  | succ n ih => exact (@ih (fleet.work i (·.turn host j))).trans (work_work _ _)

/-- The moves of a request that is served while nobody else does anything. -/
def servingMoves (i j : Nat) (path : SearchPath) (request : Request) : List Move :=
  .arrive i path request :: List.replicate 11 (.turn i j)

/-- Such a request comes to what `getKernel` says. -/
theorem run_servingMoves {fleet : Fleet σ} {i : Nat} {crew : Crew} {path : SearchPath}
    {request : Request} {order : KeyedRequest} (hi : fleet.crews[i]? = some crew)
    (hidle : crew.depot.IsIdle)
    (hprepare : (Site.prepare host ⟨crew.depot, fleet.world⟩ path request).1 = .ok order) :
    fleet.run host (servingMoves i crew.calls.length path request) =
      fleet.work i fun t => ⟨(t.site.getKernel host path request).2,
        t.calls ++ [⟨order, .finished (t.site.getKernel host path request).1⟩]⟩ := by
  have hnext : fleet.next host (.arrive i path request) =
      fleet.work i (·.arrive host path request) := rfl
  unfold servingMoves
  rw [run_cons, run_turns, hnext, work_work]
  unfold work
  simp only [hi]
  have harrive : Traffic.arrive host ⟨⟨crew.depot, fleet.world⟩, crew.calls⟩ path request =
      ⟨(Site.prepare host ⟨crew.depot, fleet.world⟩ path request).2,
        crew.calls ++ [⟨order, .lookup⟩]⟩ := by
    unfold Traffic.arrive
    generalize Site.prepare host _ path request = prepared at hprepare ⊢
    obtain ⟨outcome, s⟩ := prepared
    cases hprepare
    rfl
  have hlast : (crew.calls ++ [⟨order, .lookup⟩])[crew.calls.length]? =
      some ⟨order, .lookup⟩ := List.getElem?_concat_length
  have hsound : (Site.prepare host ⟨crew.depot, fleet.world⟩ path request).2.depot.Sound
      [⟨order, .lookup⟩] := Depot.Sound.of_isIdle hidle order
  rw [harrive, iterate_turn hlast hsound (Nat.le_refl 11), Site.getKernel_of_prepare hprepare]
  simp only
  rw [List.set_append_right _ _ (Nat.le_refl _), Nat.sub_self, List.set_cons_zero]

theorem spares_of_mem_servingMoves {setup : Setup} {path : SearchPath} {request : Request}
    {f : Fingerprint} {i j : Nat} {move : Move} (h : move ∈ servingMoves i j path request) :
    move.Spares host setup path request f := by
  rcases List.mem_cons.mp h with rfl | h
  · exact .inl ⟨rfl, rfl⟩
  · rw [List.eq_of_mem_replicate h]
    exact trivial

/-- If compiling comes to a handle then a request that is served alone comes to one, whatever
the fleet has done before. -/
theorem exists_handle_of_compiles {path : SearchPath} {request : Request}
    {calm : Calm host path request.includeDirs} {setup : Setup} {order : KeyedRequest}
    {size : Bytes → String → Nat} {fleet : Fleet σ} (h : calm.Concerted setup order size fleet)
    (hsmall : ∀ a, calm.Compiled setup order a → a.image.length < Number.limit64)
    (hc : calm.Compiles setup order)
    (hprepare : (({ setup } : Depot).prepare calm.disk path request).outcome = .ok order)
    {i : Nat} {crew : Crew} (hi : fleet.crews[i]? = some crew) (hidle : crew.depot.IsIdle) :
    ∃ depot world handle order', depot.IsIdle ∧ order'.fingerprint = order.fingerprint ∧
      fleet.run host (servingMoves i crew.calls.length path request) =
        ⟨fleet.setup, fleet.crews.set i ⟨depot, crew.calls ++ [⟨order', .finished (.ok handle)⟩]⟩,
          world⟩ := by
  have huniform := h.crews crew (List.mem_of_getElem? hi)
  obtain ⟨order', hprepare', hsame⟩ :=
    @Site.exists_prepare _ _ _ _ calm _ _ ⟨crew.depot, fleet.world⟩ huniform.sameSetup hprepare
  obtain ⟨hok, -, -, hidle'⟩ := Site.isOk_getKernel huniform.sameSetup hidle hprepare
  rw [run_servingMoves hi hidle hprepare']
  unfold work
  simp only [hi]
  replace hok := hok.mpr (huniform.promises hsmall hc)
  generalize Site.getKernel host ⟨crew.depot, fleet.world⟩ path request = result at hok hidle' ⊢
  obtain ⟨outcome, s⟩ := result
  cases outcome with
  | error e => exact absurd hok Bool.false_ne_true
  | ok handle =>
    have hfingerprint : order'.fingerprint = order.fingerprint := by
      rw [← hsame]
      rfl
    exact ⟨s.depot, s.world, handle, order', hidle', hfingerprint, rfl⟩

end

/-- In every run of a fleet over a directory that was empty, all handles that a request leads to
are for its first entry, and they agree. -/
theorem agrees_handles {σ : Type} {host : Host σ} {path : SearchPath} {request : Request}
    (calm : Calm host path request.includeDirs) (horderly : calm.files.IsOrderly)
    {size : Bytes → String → Nat} (hsize : calm.driver.Measures size) {setup : Setup}
    {order : KeyedRequest}
    (hprepare : (({ setup } : Depot).prepare calm.disk path request).outcome = .ok order)
    (hsmall : ∀ a, calm.Compiled setup order a → a.image.length < Number.limit64)
    {world : World σ} (hempty : ∀ name, calm.files.content world.outside name = none)
    {moves : List Move}
    (hmoves : ∀ move ∈ moves, move.Spares host setup path request order.fingerprint) :
    (∀ handle ∈ (run host { setup, world } moves).handles order.fingerprint,
      handle.loaded.fingerprint = order.fingerprint ∧
        request.entries.head? = some handle.function.entry) ∧
    ∀ a ∈ (run host { setup, world } moves).handles order.fingerprint,
      ∀ b ∈ (run host { setup, world } moves).handles order.fingerprint, a.Agrees b := by
  have hstart : calm.Concerted setup order size { setup, world } :=
    ⟨rfl, .of_empty hempty, fun crew hcrew => nomatch hcrew⟩
  have hend := hstart.run horderly hsize hsmall hprepare hmoves
  have hprepares := Depot.prepare_eq_ok_iff.mp hprepare
  constructor
  · intro handle hhandle
    obtain ⟨⟨a, -, hpresents⟩, hentry⟩ := hend.presented_of_mem_handles hhandle
    refine ⟨hpresents.fingerprint, ?_⟩
    rw [hentry, hprepares.request]
    cases hentries : request.entries with
    | nil => exact absurd hentries (Request.entries_of_validate hprepares.arch)
    | cons first rest => rfl
  · intro a ha b hb
    obtain ⟨hpa, hea⟩ := hend.presented_of_mem_handles ha
    obtain ⟨hpb, heb⟩ := hend.presented_of_mem_handles hb
    exact hpa.agrees hpb (hea.trans heb.symm)

end Fleet

/-! ## Every way of getting the kernel

Three calls below have three ways to their handles: the first has the request compiled, the
second comes after a release, and the third is to a depot that was opened later. -/

namespace Shelf

def start : Fleet (String → Option Bytes) := { setup, world := { outside := fun _ => none } }

def moves : List Fleet.Move :=
  .add :: Fleet.servingMoves 0 0 ⟨[], 0⟩ request ++ .release 0 ::
    Fleet.servingMoves 0 1 ⟨[], 0⟩ request ++ .add :: Fleet.servingMoves 1 0 ⟨[], 0⟩ request

theorem measures_driver : driver.Measures fun _ _ => 0 where
  size_eq _ _ _ _ _ _ hglobal := by rw [← Except.ok.inj hglobal]

theorem isShort_of_compiled (a : Artifact) (h : calm.Compiled setup order a) :
    a.image.length < Number.limit64 := by
  have hresult : (calm.report setup order).outcome =
      .ok ⟨⟨[], .ptx, "sm_80", .ofList [("k", "k")], .empty⟩, []⟩ :=
    Except.eq_ok_of_toOption (by decide +kernel)
  rw [Calm.compiled_unique h ⟨_, hresult, rfl⟩]
  decide

theorem spares_of_mem_moves (move : Fleet.Move) (h : move ∈ moves) :
    move.Spares host setup ⟨[], 0⟩ request order.fingerprint := by
  have hserving (first : Fleet.Move) (i j : Nat)
      (hfirst : first.Spares host setup ⟨[], 0⟩ request order.fingerprint)
      (h : move ∈ first :: Fleet.servingMoves i j ⟨[], 0⟩ request) :
      move.Spares host setup ⟨[], 0⟩ request order.fingerprint := by
    rcases List.mem_cons.mp h with rfl | h
    · exact hfirst
    · exact Fleet.spares_of_mem_servingMoves h
  rcases List.mem_append.mp h with h | h
  · rcases List.mem_append.mp h with h | h
    · exact hserving .add 0 0 trivial h
    · exact hserving (.release 0) 0 1 trivial h
  · exact hserving .add 1 0 trivial h

theorem length_handles_moves : ((start.run host moves).handles order.fingerprint).length = 3 := by
  have hnext {fleet : Fleet (String → Option Bytes)}
      (h : calm.Concerted setup order (fun _ _ => 0) fleet) (move : Fleet.Move)
      (hmove : move.Spares host setup ⟨[], 0⟩ request order.fingerprint) :=
    h.next isObedient_files.toIsOrderly measures_driver isShort_of_compiled prepare_depot hmove
  have hserve {fleet : Fleet (String → Option Bytes)}
      (h : calm.Concerted setup order (fun _ _ => 0) fleet) {i : Nat} {crew : Crew}
      (hi : fleet.crews[i]? = some crew) (hidle : crew.depot.IsIdle) :
      ∃ depot world handle order', depot.IsIdle ∧ order'.fingerprint = order.fingerprint ∧
        fleet.run host (Fleet.servingMoves i crew.calls.length ⟨[], 0⟩ request) =
          ⟨fleet.setup,
            fleet.crews.set i ⟨depot, crew.calls ++ [⟨order', .finished (.ok handle)⟩]⟩, world⟩ ∧
        calm.Concerted setup order (fun _ _ => 0)
          (fleet.run host (Fleet.servingMoves i crew.calls.length ⟨[], 0⟩ request)) := by
    obtain ⟨depot, world, handle, order', hidle', hsame, hrun⟩ :=
      Fleet.exists_handle_of_compiles h isShort_of_compiled compiles_order prepare_depot hi hidle
    exact ⟨depot, world, handle, order', hidle', hsame, hrun,
      h.run isObedient_files.toIsOrderly measures_driver isShort_of_compiled prepare_depot
        fun move hmove => Fleet.spares_of_mem_servingMoves hmove⟩
  have hstart : calm.Concerted setup order (fun _ _ => 0) start :=
    ⟨rfl, .of_empty fun _ => plainly_of_none rfl, fun crew hcrew => nomatch hcrew⟩
  obtain ⟨d₁, w₁, h₁, o₁, hidle₁, hsame₁, hrun₁, hfleet₁⟩ :=
    hserve (hnext hstart .add trivial) (i := 0) rfl ⟨rfl, rfl⟩
  rw [hrun₁] at hfleet₁
  have hidle : (Site.release host ⟨d₁, w₁⟩).2.depot.IsIdle := by
    rw [Site.release_depot]
    exact ⟨hidle₁.listed, hidle₁.slots⟩
  obtain ⟨d₂, w₂, h₂, o₂, -, hsame₂, hrun₂, hfleet₂⟩ :=
    hserve (hnext hfleet₁ (.release 0) trivial) (i := 0) rfl hidle
  rw [hrun₂] at hfleet₂
  obtain ⟨d₃, w₃, h₃, o₃, -, hsame₃, hrun₃, -⟩ :=
    hserve (hnext hfleet₂ .add trivial) (i := 1) rfl ⟨rfl, rfl⟩
  have hend : start.run host moves = ⟨setup, [⟨d₂, [⟨o₁, .finished (.ok h₁)⟩,
      ⟨o₂, .finished (.ok h₂)⟩]⟩, ⟨d₃, [⟨o₃, .finished (.ok h₃)⟩]⟩], w₃⟩ := by
    unfold moves
    rw [Fleet.run_append, Fleet.run_append, Fleet.run_cons, Fleet.run_cons, Fleet.run_cons]
    rw [show Fleet.run host _ (Fleet.servingMoves 0 0 _ _) = _ from hrun₁,
      show Fleet.run host _ (Fleet.servingMoves 0 1 _ _) = _ from hrun₂]
    exact hrun₃
  rw [hend]
  simp [Fleet.handles, hsame₁, hsame₂, hsame₃]

theorem agrees_handles_moves :
    ((start.run host moves).handles order.fingerprint).length = 3 ∧
      ∀ a ∈ (start.run host moves).handles order.fingerprint,
        ∀ b ∈ (start.run host moves).handles order.fingerprint, a.Agrees b := by
  have hempty (name : String) : calm.files.content start.world.outside name = none :=
    plainly_of_none rfl
  exact ⟨length_handles_moves, (Fleet.agrees_handles calm isObedient_files.toIsOrderly
    measures_driver prepare_depot isShort_of_compiled hempty spares_of_mem_moves).2⟩

end Shelf
end KernelDepot
