/-
What a compilation leaves behind.

The fingerprint of a request covers the includes that its scan has seen, and nothing that the
toolchain asks for besides.  A result that the search path had a share in is handed out to the
one call and kept nowhere.  A result for which the toolchain asked in vain is kept like any
other, also when it asked for an include that a provider has and could not read.
-/
import KernelDepot.Depot.Together
import KernelDepot.Proofs.Depot.Recovery
import KernelDepot.Proofs.Include.Questions
import KernelDepot.Provider.Table

namespace KernelDepot

namespace Site

variable {σ : Type}

def answerSpace (host : Host σ) (s : Site σ) (p : PreparedRequest) : IncludeSpace :=
  { p.space with disk := host.disk (host.compile p.job s.world.outside).2 }

def questions (host : Host σ) (s : Site σ) (p : PreparedRequest) : List IncludeRequest :=
  (host.compile p.job s.world.outside).1.questions
    (Session.answer (s.answerSpace host p) p.source) {}

/-- Whether a request is compiled with an include that its fingerprint does not cover. -/
def StraysFrom (host : Host σ) (s : Site σ) (p : PreparedRequest) : Prop :=
  ∃ r ∈ s.questions host p, (s.answerSpace host p).Unforeseen p.source r

variable {host : Host σ} {s : Site σ} {p : PreparedRequest} {result : Compilation}

theorem extra_eq_nil_iff (h : (s.compile host p).1 = .ok result) :
    result.extra = [] ↔ ¬ s.StraysFrom host p := by
  have hrun := @Session.extra_run (s.answerSpace host p) p.source _
    (host.compile p.job s.world.outside).1 {}
  unfold compile PreparedRequest.compile at h
  simp only at h
  unfold StraysFrom questions
  have hextra : result.extra = ((host.compile p.job s.world.outside).1.run
      (Session.answer (s.answerSpace host p) p.source) {}).2.extra := by
    unfold answerSpace
    split at h
    next => exact nomatch h
    next => rw [← Except.ok.inj h]
  rw [hextra, hrun]
  constructor
  · rintro ⟨-, hforeseen⟩ ⟨r, hr, hu⟩
    exact hforeseen r hr hu
  · intro hnone
    exact ⟨rfl, fun r hr hu => hnone ⟨r, hr, hu⟩⟩

end Site

namespace Stage

/-- Whether a call is on its way out and keeps nothing. -/
def isLeaving : Stage → Bool
  | holding _ (.load _ false) | holding _ (.unlock _) | holding _ (.leave _) | finished _ => true
  | _ => false

theorem goesOut_of_isLeaving {stage : Stage} (h : stage.isLeaving) : stage.goesOut = false := by
  cases stage with
  | holding n task =>
    cases task with
    | restore | compile | store => exact absurd h Bool.false_ne_true
    | _ => rfl
  | _ => rfl

end Stage

namespace Call

variable {σ β : Type} {host : Host σ} {order : KeyedRequest} {s : Site σ}

/-- Until it has been at the toolchain a call enters nothing into the index. -/
theorem index_act (stage : Stage) (h : 6 ≤ (act host order s stage).1.rank) :
    (act host order s stage).2.depot.index = s.depot.index := by
  have hr : stage.rank ≠ 0 := by
    intro hr
    obtain ⟨outcome, rfl⟩ := Stage.eq_finished_of_rank hr
    exact absurd (show 6 ≤ 0 from h) (Nat.not_succ_le_zero 5)
  have hmoves := moves_act host order s stage hr
  rcases hmoves.index_cases with hindex | ⟨n, m, rfl, -, -⟩
  · exact hindex
  · have hlt := rank_act_lt host order s _ hr
    have hrank : (Stage.holding n (.insert m)).rank = 3 := rfl
    omega

/-- On its way out a call neither enters anything into the index nor does it touch anything
but the device. -/
theorem act_of_isLeaving {view : σ → β}
    (hview : ∀ call x, view (host.device call x).2 = view x) {stage : Stage}
    (h : stage.isLeaving) :
    (act host order s stage).1.isLeaving ∧
      (act host order s stage).2.depot.index = s.depot.index ∧
      view (act host order s stage).2.world.outside = view s.world.outside := by
  refine ⟨?_, ?_, outside_act hview order s stage (Stage.goesOut_of_isLeaving h)⟩
  · cases stage with
    | holding n task =>
      cases task with
      | load a shared =>
        unfold act work
        simp only
        generalize s.load host order.fingerprint a = loaded
        obtain ⟨outcome, s₁⟩ := loaded
        cases outcome with
        | error e => rfl
        | ok m =>
          cases shared with
          | true => exact absurd h Bool.false_ne_true
          | false => rfl
      | unlock outcome => rfl
      | leave outcome => rfl
      | _ => exact absurd h Bool.false_ne_true
    | finished outcome => rfl
    | _ => exact absurd h Bool.false_ne_true
  · by_cases hr : stage.rank = 0
    · obtain ⟨outcome, rfl⟩ := Stage.eq_finished_of_rank hr
      rfl
    · rcases (moves_act host order s stage hr).index_cases with hindex | ⟨n, m, rfl, -, -⟩
      · exact hindex
      · exact absurd h Bool.false_ne_true

theorem complete_of_isLeaving {view : σ → β}
    (hview : ∀ call x, view (host.device call x).2 = view x) {stage : Stage}
    (h : stage.isLeaving) :
    (complete host order s stage).2.depot.index = s.depot.index ∧
      view (complete host order s stage).2.world.outside = view s.world.outside := by
  have hend := complete_induction
    (P := fun s' stage => stage.isLeaving ∧ s'.depot.index = s.depot.index ∧
      view s'.world.outside = view s.world.outside)
    (fun s' stage _ hP => by
      obtain ⟨hleaving, hindex, houtside⟩ :=
        @act_of_isLeaving σ β host order s' view hview stage hP.1
      exact ⟨hleaving, hindex.trans hP.2.1, houtside.trans hP.2.2⟩)
    (s := s) ⟨h, rfl, rfl⟩
  exact hend.2

theorem index_complete_of_isLeaving {stage : Stage} (h : stage.isLeaving) :
    (complete host order s stage).2.depot.index = s.depot.index :=
  (@complete_of_isLeaving σ Unit host order s (fun _ => ()) (fun _ _ => rfl) stage h).1

/-- What is known of a call whose result is to be kept. -/
def Keeps (order : KeyedRequest) (s : Site σ) : Stage → Prop
  | .holding _ (.store _) | .holding _ (.load _ true) | .holding _ (.insert _) => True
  | .holding _ (.unlock outcome) | .holding _ (.leave outcome) | .finished outcome =>
    outcome.isOk → (s.depot.find? order.fingerprint).isSome
  | _ => False

theorem keeps_act {stage : Stage} (h : Keeps order s stage) :
    Keeps order (act host order s stage).2 (act host order s stage).1 := by
  cases stage with
  | holding n task =>
    cases task with
    | store a => exact trivial
    | load a shared =>
      cases shared with
      | false => exact h.elim
      | true =>
        unfold act work
        simp only
        generalize s.load host order.fingerprint a = loaded
        obtain ⟨outcome, s₁⟩ := loaded
        cases outcome with
        | error e => exact fun hok => absurd hok Bool.false_ne_true
        | ok m => exact trivial
    | insert m =>
      unfold act work
      simp only
      intro _
      rw [Site.grant_depot, Site.enter_depot]
      cases hm : s.depot.find? order.fingerprint with
      | some present =>
        simp only
        rw [hm]
        rfl
      | none =>
        simp only
        rw [@Depot.find?_of_index_append s.depot _ _ m rfl hm, if_pos rfl]
        rfl
    | unlock outcome => exact h
    | leave outcome => exact h
    | _ => exact h.elim
  | finished outcome => exact h
  | _ => exact h.elim

end Call

namespace Site

variable {σ : Type} {host : Host σ} {s s₁ : Site σ} {path : SearchPath} {request : Request}
  {order : KeyedRequest} {n : Nat} {result : Compilation}

/-- The step of a call after a compilation that succeeded. -/
theorem work_compile (h : (s.compile host order.toPreparedRequest).1 = .ok result) :
    Call.work host order s n .compile =
      if result.extra.isEmpty then
        (.holding n (.store result.artifact), (s.compile host order.toPreparedRequest).2.mapDepot
          (·.count fun c => { c with compilations := c.compilations + 1 }))
      else
        (.holding n (.load result.artifact false),
          ((s.compile host order.toPreparedRequest).2.mapDepot
            (·.count fun c => { c with compilations := c.compilations + 1 })).report
              [.notCacheable]) := by
  unfold Call.work
  generalize s.compile host order.toPreparedRequest = compiled at h ⊢
  obtain ⟨outcome, s₁⟩ := compiled
  cases h
  rfl

/-- A call that has the toolchain succeed keeps nothing if one of the questions was answered
from the search path: the index is as it was, and of the surroundings only the device has
changed since.  If there was no such question then a call that leads to a handle has its
module in the index. -/
theorem getKernel_keeps (hprepare : (s.prepare host path request).1 = .ok order)
    (hreach : Call.advance host Stage.isCompile (s.prepare host path request).2
      ⟨order, .lookup⟩ = (⟨order, .holding n .compile⟩, s₁))
    (hresult : (s₁.compile host order.toPreparedRequest).1 = .ok result) :
    (s₁.StraysFrom host order.toPreparedRequest →
      (s.getKernel host path request).2.depot.index = s.depot.index ∧
        ∀ {β : Type} (view : σ → β), (∀ call x, view (host.device call x).2 = view x) →
          view (s.getKernel host path request).2.world.outside =
            view (s₁.compile host order.toPreparedRequest).2.world.outside) ∧
      (¬ s₁.StraysFrom host order.toPreparedRequest →
        (s.getKernel host path request).1.isOk →
          ((s.getKernel host path request).2.depot.find? order.fingerprint).isSome) := by
  obtain ⟨hindex, hcomplete⟩ := Call.advance_induction
    (P := fun s' stage => 6 ≤ stage.rank → s'.depot.index = s.depot.index)
    (fun s' stage hr h hafter => (Call.index_act stage hafter).trans
      (h (Nat.le_trans hafter (Nat.le_of_lt (Call.rank_act_lt host order s' stage hr)))))
    (show 6 ≤ Stage.rank .lookup → (s.prepare host path request).2.depot.index = _ from
      fun _ => rfl)
  rw [hreach] at hindex hcomplete
  have hindex : s₁.depot.index = s.depot.index := hindex (Nat.le_refl 6)
  have hrank : (Stage.holding n .compile).rank ≠ 0 := Nat.succ_ne_zero 5
  rw [getKernel_of_prepare hprepare, ← hcomplete, Call.complete_eq_of_rank hrank]
  have hwork : Call.act host order s₁ (.holding n .compile) = _ := work_compile hresult
  have hextra := extra_eq_nil_iff hresult
  rw [hwork]
  constructor
  · intro hstrays
    have hsome : result.extra.isEmpty = false := by
      cases he : result.extra with
      | nil => exact absurd hstrays (hextra.mp he)
      | cons d rest => rfl
    rw [hsome, if_neg Bool.false_ne_true]
    refine ⟨?_, fun view hview => (Call.complete_of_isLeaving hview rfl).2⟩
    exact (Call.index_complete_of_isLeaving rfl).trans hindex
  · intro hforeseen
    have hnil : result.extra = [] := hextra.mpr hforeseen
    rw [hnil, List.isEmpty_nil, if_pos rfl]
    exact Call.complete_induction (P := Call.Keeps order) (fun s' stage _ h => Call.keeps_act h)
      trivial

end Site

/-- A call comes to the toolchain if neither the index nor the store has anything for it. -/
theorem Call.advance_to_compile {σ : Type} {host : Host σ} {order : KeyedRequest} {s : Site σ}
    {path : SearchPath} {dirs : List String} (calm : Calm host path dirs) (hidle : s.depot.IsIdle)
    (hfind : s.depot.find? order.fingerprint = none)
    (hstored : s.depot.setup.store.stored? (calm.content s) order.fingerprint = none) :
    ∃ n s', advance host Stage.isCompile s ⟨order, .lookup⟩ =
        (⟨order, .holding n .compile⟩, s') ∧ s'.depot.setup = s.depot.setup := by
  obtain ⟨n, s₁, s₂, hlookup, hjoin, hlock, hrecheck, hworld, arena, hdepot⟩ :=
    acts_to_restore host hfind (hidle.admits order)
  have hcontent : calm.content s₂ = calm.content s := by
    unfold Calm.content
    rw [hworld]
  have hnone : (s₂.restore host order.fingerprint).1 = .ok none := by
    refine (calm.restore_of_none ?_).1
    rw [hcontent, hdepot]
    exact hstored
  have hrestore := act_restore_of_none n hnone
  obtain ⟨hgo₀, hsound⟩ := advance_of_act Stage.isCompile
    (Depot.Sound.of_isIdle hidle order) Nat.noConfusion rfl hlookup
  obtain ⟨hgo₁, hsound⟩ := advance_of_act Stage.isCompile hsound Nat.noConfusion rfl hjoin
  obtain ⟨hgo₂, hsound⟩ := advance_of_act Stage.isCompile hsound Nat.noConfusion rfl hlock
  obtain ⟨hgo₃, hsound⟩ := advance_of_act Stage.isCompile hsound Nat.noConfusion rfl hrecheck
  obtain ⟨hgo₄, -⟩ := advance_of_act Stage.isCompile hsound Nat.noConfusion rfl hrestore
  refine ⟨n, (s₂.restore host order.fingerprint).2.report [.miss], ?_, ?_⟩
  · rw [hgo₀, hgo₁, hgo₂, hgo₃, hgo₄, advance, if_neg Nat.noConfusion]
    rfl
  · have hsetup := setup_act host order s₂ (.holding n .restore)
    rw [hrestore] at hsetup
    rw [hsetup, hdepot]

/-! ## Asking in vain

The only provider below has `extra.h`, and it has `locked.h` but cannot read it. -/

namespace Vain

/-- A toolchain that asks for some includes and goes on whatever it gets. -/
def dialogue (names : List String) : Dialogue :=
  names.foldr (fun name rest => .ask ⟨name, none⟩ fun _ => rest)
    (.done (.ok ⟨[], .ptx, .empty, ""⟩))

def host (names : List String) : Host (String → Option Bytes) :=
  { Shelf.host with compile := fun _ content => (dialogue names, content) }

def answers : AnswerTable where
  id := "p"
  kind := .other
  files := [("extra.h", [])]
  failures := [("locked.h", .custom "locked")]

def path : SearchPath := ⟨[⟨answers.provider, 0, false, 0⟩], 1⟩

def calm (names : List String) : Calm (host names) path Shelf.request.includeDirs where
  disk := {}
  dialogue _ := dialogue names
  driver := Shelf.driver
  files := Shelf.files
  serves _ := .refl _ _ _
  compile_eq _ _ := rfl
  content_compile _ _ := rfl
  content_device _ _ := rfl

def site : Site (String → Option Bytes) := Shelf.site fun _ => none

theorem isNew_site : site.depot.IsNew := Shelf.isNew_site _

def order : KeyedRequest := { Shelf.order with space := ⟨path, {}, []⟩ }

theorem prepares_order :
    ({ setup := Shelf.setup } : Depot).Prepares {} path Shelf.request order where
  request := rfl
  arch := Except.eq_ok_of_toOption (by decide +kernel)
  device := Except.eq_ok_of_toOption (by decide +kernel)
  flags := rfl
  space := rfl
  source := Except.eq_ok_of_toOption (by decide +kernel)
  fingerprint := rfl

theorem prepare_site (names : List String) :
    (site.prepare (host names) path Shelf.request).1 = .ok order :=
  Depot.prepare_eq_ok_iff.mpr prepares_order

def result (extra : List Dependency) : Compilation :=
  ⟨⟨[], .ptx, "sm_80", .ofList [("k", "k")], .empty⟩, extra⟩

theorem reach (names : List String) : ∃ n s₁,
    Call.advance (host names) Stage.isCompile (site.prepare (host names) path Shelf.request).2
        ⟨order, .lookup⟩ = (⟨order, .holding n .compile⟩, s₁) ∧
      s₁.depot.setup = Shelf.setup :=
  Call.advance_to_compile (calm names) isNew_site.toIsIdle rfl (Shelf.stored?_empty _)

def vain : List String := ["nowhere.h", "locked.h"]

theorem resolve_nowhere : path.resolve {} "nowhere.h" = .ok none :=
  Except.eq_ok_of_toOption (by decide +kernel)

theorem resolve_locked : (path.resolve {} "locked.h").toOption = none := by decide +kernel

theorem questions_vain (s : Site (String → Option Bytes)) :
    s.questions (host vain) order.toPreparedRequest =
      [⟨"nowhere.h", none⟩, ⟨"locked.h", none⟩] := rfl

theorem not_straysFrom (s : Site (String → Option Bytes)) :
    ¬ s.StraysFrom (host vain) order.toPreparedRequest := by
  rintro ⟨r, hr, hu⟩
  rw [questions_vain] at hr
  obtain ⟨hit, hhit⟩ := hu.found
  replace hhit : path.resolve {} r.name = .ok (some hit) := hhit
  rcases List.mem_pair.mp hr with rfl | rfl
  · rw [resolve_nowhere] at hhit
    exact nomatch hhit
  · have hlocked := resolve_locked
    rw [hhit] at hlocked
    exact nomatch hlocked

theorem compiles_vain : (calm vain).Compiles Shelf.setup order := by
  refine ⟨result [], ?_, ?_, ?_⟩
  · exact Except.eq_ok_of_toOption (by decide +kernel)
  · exact Except.eq_ok_of_toOption (by decide +kernel)
  · decide +kernel

theorem isOk_getKernel : (site.getKernel (host vain) path Shelf.request).1.isOk := by
  have hprepare : (({ setup := Shelf.setup } : Depot).prepare (calm vain).disk path
      Shelf.request).outcome = .ok order := prepare_site vain
  rw [(Site.isOk_getKernel rfl isNew_site.toIsIdle hprepare).1]
  exact ((calm vain).promises_of_none rfl (Shelf.stored?_empty _)).mpr compiles_vain

theorem straysFrom (s : Site (String → Option Bytes)) :
    s.StraysFrom (host ["extra.h"]) order.toPreparedRequest := by
  have hextra : path.resolve {} "extra.h" = .ok (some ⟨"p", []⟩) :=
    Except.eq_ok_of_toOption (by decide +kernel)
  exact ⟨⟨"extra.h", none⟩, List.mem_singleton.mpr rfl, nofun, nofun, _, hextra⟩

/-- A toolchain that gets what it asks for leaves nothing in the index.  One that asks for an
include that nobody has and for one that cannot be read leaves its module there. -/
theorem isSome_find?_getKernel :
    (site.getKernel (host ["extra.h"]) path Shelf.request).2.depot.index = [] ∧
      site.questions (host vain) order.toPreparedRequest =
        [⟨"nowhere.h", none⟩, ⟨"locked.h", none⟩] ∧
      path.resolve {} "nowhere.h" = .ok none ∧ (path.resolve {} "locked.h").toOption = none ∧
      ((site.getKernel (host vain) path Shelf.request).2.depot.find? order.fingerprint).isSome := by
  refine ⟨?_, questions_vain site, resolve_nowhere, resolve_locked, ?_⟩
  · obtain ⟨n, s₁, hreach, hsetup⟩ := reach ["extra.h"]
    have hcompile : (s₁.compile (host ["extra.h"]) order.toPreparedRequest).1 =
        .ok (result [⟨"extra.h", "p", [], none⟩]) := by
      have hpath : (calm ["extra.h"]).Searches order := rfl
      rw [Calm.compile_fst hpath hsetup]
      exact Except.eq_ok_of_toOption (by decide +kernel)
    exact ((Site.getKernel_keeps (prepare_site _) hreach hcompile).1 (straysFrom s₁)).1
  · obtain ⟨n, s₁, hreach, hsetup⟩ := reach vain
    obtain ⟨result, hresult, -⟩ := compiles_vain
    have hcompile : (s₁.compile (host vain) order.toPreparedRequest).1 = .ok result := by
      have hpath : (calm vain).Searches order := rfl
      rw [Calm.compile_fst hpath hsetup]
      exact hresult
    exact (Site.getKernel_keeps (prepare_site _) hreach hcompile).2 (not_straysFrom s₁)
      isOk_getKernel

end Vain
end KernelDepot
