/-
What a depot has counted.

A call adds to the counters, and what it has added so far, its bill, depends on the stage that
it has reached: `Stage.Allows` says what the bill may be.  A call is served once at most, from
memory, from the store or by the toolchain, and it is served if it succeeds.  What holds of
every bill holds of the counters of a depot, after any calls.
-/
import KernelDepot.Proofs.Depot.Alone
import KernelDepot.Proofs.Depot.Surroundings

namespace KernelDepot

namespace Counters

instance : Add Counters where
  add a b :=
    { memoryHits := a.memoryHits + b.memoryHits
      diskHits := a.diskHits + b.diskHits
      compilations := a.compilations + b.compilations
      diskWrites := a.diskWrites + b.diskWrites
      corruptRecoveries := a.corruptRecoveries + b.corruptRecoveries
      persistenceFailures := a.persistenceFailures + b.persistenceFailures }

theorem add_def (a b : Counters) : a + b =
    { memoryHits := a.memoryHits + b.memoryHits
      diskHits := a.diskHits + b.diskHits
      compilations := a.compilations + b.compilations
      diskWrites := a.diskWrites + b.diskWrites
      corruptRecoveries := a.corruptRecoveries + b.corruptRecoveries
      persistenceFailures := a.persistenceFailures + b.persistenceFailures } :=
  rfl

theorem add_assoc (a b c : Counters) : a + b + c = a + (b + c) := by
  simp only [add_def, Nat.add_assoc]

/-- How often something was served. -/
def served (c : Counters) : Nat := c.memoryHits + c.diskHits + c.compilations

/-- What holds of the bill of every call. -/
structure IsFair (bill : Counters) : Prop where
  served : bill.served ≤ 1
  stored : bill.diskWrites + bill.persistenceFailures ≤ bill.compilations
  looked : bill.memoryHits + bill.diskHits + bill.corruptRecoveries ≤ 1

end Counters

/-- The work of the toolchain that led to something. -/
def Depot.successes (d : Depot) : Nat := (d.runs.filter (·.succeeded)).length

/-- What is added to the counters of a depot, where compilations are those that the toolchain
was successful with. -/
structure Depot.Adds (d d' : Depot) (bill : Counters) : Prop where
  counters : d'.counters = d.counters + bill
  successes : d'.successes = d.successes + bill.compilations

/-- What the bill of a call may be at a stage. -/
def Stage.Allows (bill : Counters) : Stage → Prop
  | .lookup | .join | .holding _ .lock | .holding _ .recheck | .holding _ .restore => bill = {}
  | .holding _ .compile => bill.IsFair ∧ bill.served = 0
  | .holding _ (.store _) =>
    bill.IsFair ∧ bill.served = 1 ∧ bill.diskWrites + bill.persistenceFailures < bill.compilations
  | .holding _ (.load ..) | .holding _ (.insert _) => bill.IsFair ∧ bill.served = 1
  | .holding _ (.unlock outcome) | .holding _ (.leave outcome) | .finished outcome =>
    bill.IsFair ∧ (outcome.isOk → bill.served = 1)

namespace Depot

theorem Adds.refl (d : Depot) : d.Adds d {} := ⟨rfl, rfl⟩

theorem Adds.trans {d d' d'' : Depot} {bill bill' : Counters} (h : d.Adds d' bill)
    (h' : d'.Adds d'' bill') : d.Adds d'' (bill + bill') := by
  refine ⟨?_, ?_⟩
  · rw [h'.counters, h.counters, Counters.add_assoc]
  · rw [h'.successes, h.successes, Nat.add_assoc]
    rfl

/-- What has no share in the counters and the runs adds nothing. -/
theorem Adds.same {d d' d'' : Depot} {bill : Counters} (h : d.Adds d' bill)
    (hcounters : d''.counters = d'.counters) (hruns : d''.runs = d'.runs) : d.Adds d'' bill := by
  refine ⟨hcounters.trans h.counters, ?_⟩
  rw [Depot.successes, hruns]
  exact h.successes

/-- Counting changes nothing but the counters. -/
theorem adds_count {d : Depot} {change : Counters → Counters} {bill : Counters}
    (h : ∀ c, change c = c + bill) (hbill : bill.compilations = 0) : d.Adds (d.count change) bill :=
  ⟨h _, by rw [hbill]; rfl⟩

end Depot

namespace Site

variable {σ : Type} {host : Host σ} {s : Site σ}

theorem adds_serveHit (m : LoadedModule) (entry : String) (event : Event) :
    s.depot.Adds (s.serveHit host m entry event).2.depot { memoryHits := 1 } := by
  rw [serveHit_depot]
  exact Depot.adds_count (fun _ => rfl) rfl

/-- A damaged artifact is counted, and then there is nothing to load. -/
theorem adds_restore (f : Fingerprint) :
    s.depot.Adds (s.restore host f).2.depot {} ∨ (s.restore host f).1 = .ok none ∧
      s.depot.Adds (s.restore host f).2.depot { corruptRecoveries := 1 } := by
  rcases @restore_depot σ host s f with h | ⟨hnone, h⟩
  · exact .inl (h ▸ .refl _)
  · exact .inr ⟨hnone, h ▸ Depot.adds_count (fun _ => rfl) rfl⟩

theorem adds_persist (f : Fingerprint) (a : Artifact) :
    s.depot.Adds (s.persist host f a).depot {} ∨
      s.depot.Adds (s.persist host f a).depot { diskWrites := 1 } ∨
      s.depot.Adds (s.persist host f a).depot { persistenceFailures := 1 } := by
  rw [persist_depot]
  split
  · exact .inr (.inl (Depot.adds_count (fun _ => rfl) rfl))
  · exact .inl (.refl _)
  · exact .inr (.inr (Depot.adds_count (fun _ => rfl) rfl))

/-- The toolchain is successful exactly if there is a result. -/
theorem successes_compile (p : PreparedRequest) :
    (s.compile host p).2.depot.successes =
      s.depot.successes + if (s.compile host p).1.isOk then 1 else 0 := by
  unfold compile PreparedRequest.compile Depot.successes
  simp only
  generalize (Program.run _ _ _ : Except String ToolchainOutput × Session) = result
  obtain ⟨outcome, session⟩ := result
  cases outcome with
  | error log => simp [Except.isOk, Except.toBool]
  | ok output => simp [Except.isOk, Except.toBool]

theorem adds_compile_of_error {p : PreparedRequest} {e : Failure}
    (h : (s.compile host p).1 = .error e) : s.depot.Adds (s.compile host p).2.depot {} :=
  ⟨rfl, by rw [successes_compile, h]; rfl⟩

theorem adds_compile_of_ok {p : PreparedRequest} {result : Compilation}
    (h : (s.compile host p).1 = .ok result) :
    s.depot.Adds ((s.compile host p).2.depot.count
      fun c => { c with compilations := c.compilations + 1 }) { compilations := 1 } := by
  have hruns := @successes_compile σ host s p
  rw [h] at hruns
  exact ⟨rfl, hruns⟩

end Site

/-! ## One call -/

namespace Counters

theorem isFair_zero : ({} : Counters).IsFair := ⟨by decide, by decide, by decide⟩

theorem IsFair.compiled {bill : Counters} (h : bill.IsFair) (hserved : bill.served = 0) :
    (bill + { compilations := 1 }).IsFair ∧ (bill + { compilations := 1 }).served = 1 ∧
      (bill + { compilations := 1 }).diskWrites +
          (bill + { compilations := 1 }).persistenceFailures <
        (bill + { compilations := 1 }).compilations := by
  obtain ⟨-, hstored, hlooked⟩ := h
  rw [add_def]
  unfold Counters.served at hserved ⊢
  refine ⟨⟨?_, ?_, ?_⟩, ?_, ?_⟩ <;> simp only [Counters.served] <;> omega

theorem IsFair.tried {bill attempt : Counters} (h : bill.IsFair) (hserved : bill.served = 1)
    (hroom : bill.diskWrites + bill.persistenceFailures < bill.compilations)
    (hattempt : attempt = {} ∨ attempt = { diskWrites := 1 } ∨
      attempt = { persistenceFailures := 1 }) :
    (bill + attempt).IsFair ∧ (bill + attempt).served = 1 := by
  obtain ⟨-, -, hlooked⟩ := h
  unfold Counters.served at hserved
  rw [add_def]
  rcases hattempt with rfl | rfl | rfl <;>
    refine ⟨⟨?_, ?_, ?_⟩, ?_⟩ <;> simp only [Counters.served] <;> omega

end Counters

namespace Call

variable {σ : Type} {host : Host σ} {order : KeyedRequest} {start : Depot} {s : Site σ}

/-- What a call has added since some time is what its stage allows. -/
def Accounts (start : Depot) (s : Site σ) (stage : Stage) : Prop :=
  ∃ bill, start.Adds s.depot bill ∧ stage.Allows bill

theorem accounts_work {n : Nat} {task : Task} (h : Accounts start s (.holding n task)) :
    Accounts start (work host order s n task).2 (work host order s n task).1 := by
  obtain ⟨bill, hadds, hallows⟩ := h
  have hworks := works_work host order s n task
  generalize work host order s n task = worked at hworks ⊢
  obtain ⟨after, s'⟩ := worked
  have hfailed : (false = true) → bill.served = 1 := fun h => absurd h Bool.false_ne_true
  cases hworks with
  | lock => exact ⟨bill, hadds.same rfl rfl, hallows⟩
  | refuse failure hfailure =>
    obtain rfl : bill = {} := hallows
    exact ⟨{}, hadds, Counters.isFair_zero, hfailed⟩
  | find m hfailure hm =>
    obtain rfl : bill = {} := hallows
    exact ⟨_, hadds.trans (Site.adds_serveHit m _ _), ⟨by decide, by decide, by decide⟩,
      fun _ => rfl⟩
  | search hfailure hm => exact ⟨bill, hadds, hallows⟩
  | restoreFailed e he =>
    obtain rfl : bill = {} := hallows
    rcases @Site.adds_restore σ host s order.fingerprint with hsame | ⟨hnone, -⟩
    · exact ⟨_, hadds.trans hsame, Counters.isFair_zero, hfailed⟩
    · exact nomatch he.symm.trans hnone
  | restored m hm =>
    obtain rfl : bill = {} := hallows
    rcases @Site.adds_restore σ host s order.fingerprint with hsame | ⟨hnone, -⟩
    · have hhit : (s.restore host order.fingerprint).2.depot.Adds (Depot.count _ _)
          { diskHits := 1 } := Depot.adds_count (fun _ => rfl) rfl
      exact ⟨_, (hadds.trans hsame).trans hhit, ⟨by decide, by decide, by decide⟩, rfl⟩
    · exact nomatch hm.symm.trans hnone
  | missed hm =>
    obtain rfl : bill = {} := hallows
    rcases @Site.adds_restore σ host s order.fingerprint with hsame | ⟨-, hdamaged⟩
    · exact ⟨_, hadds.trans hsame, Counters.isFair_zero, rfl⟩
    · exact ⟨_, hadds.trans hdamaged, ⟨by decide, by decide, by decide⟩, rfl⟩
  | compileRefused failure he =>
    exact ⟨_, (hadds.trans (Site.adds_compile_of_error he)).same rfl rfl, hallows.1, hfailed⟩
  | compileFailed e he hne =>
    exact ⟨_, hadds.trans (Site.adds_compile_of_error he), hallows.1, hfailed⟩
  | compiled result hresult hextra =>
    exact ⟨_, hadds.trans (Site.adds_compile_of_ok hresult), hallows.1.compiled hallows.2⟩
  | compiledOnce result hresult hextra =>
    obtain ⟨hfair, hserved, -⟩ := hallows.1.compiled hallows.2
    exact ⟨_, hadds.trans (Site.adds_compile_of_ok hresult), hfair, hserved⟩
  | store a =>
    obtain ⟨hfair, hserved, hroom⟩ := hallows
    rcases @Site.adds_persist σ host s order.fingerprint a with h | h | h
    · exact ⟨_, hadds.trans h, hfair.tried hserved hroom (.inl rfl)⟩
    · exact ⟨_, hadds.trans h, hfair.tried hserved hroom (.inr (.inl rfl))⟩
    · exact ⟨_, hadds.trans h, hfair.tried hserved hroom (.inr (.inr rfl))⟩
  | loadFailed a shared e he => exact ⟨bill, hadds.same rfl rfl, hallows.1, hfailed⟩
  | loaded a m hm => exact ⟨bill, hadds.same rfl rfl, hallows⟩
  | loadedOnce a m hm =>
    refine ⟨bill, ?_, hallows.1, fun _ => hallows.2⟩
    rw [Site.grant_depot]
    exact hadds.same rfl rfl
  | insert m =>
    refine ⟨bill, ?_, hallows.1, fun _ => hallows.2⟩
    rw [Site.grant_depot, Site.enter_depot]
    cases s.depot.find? order.fingerprint <;> exact hadds.same rfl rfl
  | unlock outcome => exact ⟨bill, hadds.same rfl rfl, hallows⟩
  | leave outcome => exact ⟨bill, hadds.same rfl rfl, hallows⟩

theorem accounts_act {stage : Stage} (h : Accounts start s stage) :
    Accounts start (act host order s stage).2 (act host order s stage).1 := by
  cases stage with
  | lookup =>
    obtain ⟨bill, hadds, hallows⟩ := h
    obtain rfl : bill = {} := hallows
    unfold act
    cases s.depot.find? order.fingerprint with
    | some m =>
      exact ⟨_, hadds.trans (Site.adds_serveHit m _ _), ⟨by decide, by decide, by decide⟩,
        fun _ => rfl⟩
    | none => exact ⟨{}, hadds, rfl⟩
  | join =>
    obtain ⟨bill, hadds, hallows⟩ := h
    exact ⟨bill, hadds.same rfl rfl, hallows⟩
  | holding n task => exact accounts_work h
  | finished outcome => exact h

theorem accounts_complete {stage : Stage} (h : Accounts start s stage) :
    Accounts start (complete host order s stage).2
      (.finished (complete host order s stage).1) :=
  complete_induction (fun _ _ _ => accounts_act) h

end Call

namespace Site

variable {σ : Type} {host : Host σ}

/-- A call adds a fair bill, on which it is served if it succeeds. -/
theorem accounts_getKernel (s : Site σ) (path : SearchPath) (request : Request) :
    Call.Accounts s.depot (s.getKernel host path request).2
      (.finished (s.getKernel host path request).1) := by
  cases hprepare : (s.prepare host path request).1 with
  | error e =>
    rw [getKernel_of_prepare_error hprepare]
    exact ⟨{}, .refl _, Counters.isFair_zero, fun h => absurd h Bool.false_ne_true⟩
  | ok order =>
    rw [getKernel_of_prepare hprepare]
    exact Call.accounts_complete ⟨{}, .refl _, rfl⟩

/-! ## Any number of calls -/

/-- What happens to a depot that has one caller at a time. -/
inductive Visit (σ : Type) where
  | get (path : SearchPath) (request : Request)
  | release
  /-- Something happens outside. -/
  | outside (change : σ → σ)

def Visit.isGet : Visit σ → Bool
  | get .. => true
  | _ => false

def visit (host : Host σ) (s : Site σ) : Visit σ → Site σ
  | .get path request => (s.getKernel host path request).2
  | .release => (s.release host).2
  | .outside change => { s with world := { s.world with outside := change s.world.outside } }

def receive (host : Host σ) (s : Site σ) (visits : List (Visit σ)) : Site σ :=
  visits.foldl (visit host) s

/-- The books of a depot that has served some calls. -/
structure Balances (d : Depot) (calls : Nat) : Prop where
  compilations : d.counters.compilations = d.successes
  stored : d.counters.diskWrites + d.counters.persistenceFailures ≤ d.counters.compilations
  looked : d.counters.memoryHits + d.counters.diskHits + d.counters.corruptRecoveries ≤ calls

theorem Balances.add {d d' : Depot} {calls : Nat} {bill : Counters} (h : Balances d calls)
    (hadds : d.Adds d' bill) (hfair : bill.IsFair) : Balances d' (calls + 1) := by
  obtain ⟨hcompilations, hstored, hlooked⟩ := h
  obtain ⟨hserved, hstored', hlooked'⟩ := hfair
  obtain ⟨hcounters, hsuccesses⟩ := hadds
  rw [Counters.add_def] at hcounters
  refine ⟨?_, ?_, ?_⟩ <;> simp only [hcounters, hsuccesses] <;> omega

theorem Balances.visit (host : Host σ) {s : Site σ} {calls : Nat} (h : Balances s.depot calls)
    (v : Visit σ) :
    Balances (s.visit host v).depot (calls + if v.isGet then 1 else 0) := by
  cases v with
  | get path request =>
    obtain ⟨bill, hadds, hfair, -⟩ := @accounts_getKernel σ host s path request
    exact h.add hadds hfair
  | release =>
    show Balances (s.release host).2.depot calls
    rw [release_depot]
    exact ⟨h.compilations, h.stored, h.looked⟩
  | outside change => exact h

theorem Balances.receive (host : Host σ) {s : Site σ} {calls : Nat} (h : Balances s.depot calls)
    (visits : List (Visit σ)) :
    Balances (s.receive host visits).depot (calls + visits.countP Visit.isGet) := by
  induction visits generalizing s calls with
  | nil => exact h
  | cons v visits ih =>
    have hall := ih (h.visit host v)
    rw [List.countP_cons, ← Nat.add_assoc, Nat.add_right_comm]
    exact hall

/-- After any calls to a new depot the books balance, and the next call adds to at most one of
the three ways to be served, exactly once if it succeeds. -/
theorem balances_receive (host : Host σ) (setup : Setup) (world : World σ)
    (visits : List (Visit σ)) :
    Balances (receive host ⟨{ setup }, world⟩ visits).depot (visits.countP Visit.isGet) ∧
    ∀ path request, ∃ bill : Counters,
      ((receive host ⟨{ setup }, world⟩ visits).getKernel host path request).2.depot.counters =
        (receive host ⟨{ setup }, world⟩ visits).depot.counters + bill ∧
      bill.served ≤ 1 ∧
      (((receive host ⟨{ setup }, world⟩ visits).getKernel host path request).1.isOk →
        bill.served = 1) := by
  refine ⟨?_, fun path request => ?_⟩
  · have hnew : Balances ({ setup } : Depot) 0 := ⟨rfl, Nat.le_refl 0, Nat.le_refl 0⟩
    have hall := Balances.receive host (s := ⟨{ setup }, world⟩) hnew visits
    rwa [Nat.zero_add] at hall
  · obtain ⟨bill, hadds, hfair, hok⟩ := @accounts_getKernel σ host
      (receive host ⟨{ setup }, world⟩ visits) path request
    exact ⟨bill, hadds.counters, hfair.served, hok⟩

end Site
end KernelDepot
