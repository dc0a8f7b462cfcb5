/-
Serving a request, one step at a time.

A call goes through the same stages in the same order: look into the index, take the
slot of the fingerprint, lock it, look again, try the store, compile, store the
result, load it, enter it into the index, unlock the slot, leave it.  Each step is
done at once; between the steps of one call there may be steps of others.  A call that
finds what it needs goes straight on to the end, and `rank` says how far that is.

A result that depends on an include which the fingerprint does not cover is loaded for
this one call and kept nowhere.  Trouble with the store never ends a call.
-/
import KernelDepot.Depot.Prepare

namespace KernelDepot

abbrev Outcome := Except Failure KernelHandle

inductive Task where
  | lock
  | recheck
  | restore
  | compile
  | store (artifact : Artifact)
  /-- Load an artifact that was just compiled, for the index or for this call only. -/
  | load (artifact : Artifact) (shared : Bool)
  | insert (loaded : LoadedModule)
  | unlock (outcome : Outcome)
  | leave (outcome : Outcome)

inductive Stage where
  | lookup
  | join
  | holding (slot : Nat) (task : Task)
  | finished (outcome : Outcome)

/-- The number of steps that a call has in front of it from a task, at most. -/
def Task.rank : Task → Nat
  | lock => 9
  | recheck => 8
  | restore => 7
  | compile => 6
  | store _ => 5
  | load .. => 4
  | insert _ => 3
  | unlock _ => 2
  | leave _ => 1

def Stage.rank : Stage → Nat
  | lookup => 11
  | join => 10
  | holding _ task => task.rank
  | finished _ => 0

structure Call where
  order : KeyedRequest
  stage : Stage

structure Site (σ : Type) where
  depot : Depot
  world : World σ

namespace Site

variable {σ : Type}

def mapDepot (s : Site σ) (change : Depot → Depot) : Site σ := { s with depot := change s.depot }

def report (s : Site σ) (events : List Event) : Site σ :=
  { s with world := s.world.report events }

def hold (s : Site σ) (key : ModuleKey) : Site σ := { s with world := s.world.hold key }

def letGo (host : Host σ) (s : Site σ) (key : ModuleKey) : Site σ :=
  { s with world := s.world.letGo host.device key }

/-- Make a handle from a module that is held for it.  If the module lacks the entry the
hold is given up. -/
def grant (host : Host σ) (s : Site σ) (m : LoadedModule) (entry : String) : Outcome × Site σ :=
  match KernelHandle.of m entry with
  | .ok handle => (.ok handle, s)
  | .error e => (.error (.device e), s.letGo host m.key)

/-- Enter a module into the index, which holds it from then on.  If the fingerprint has
a module already, that one stays and is handed out. -/
def enter (host : Host σ) (s : Site σ) (f : Fingerprint) (m : LoadedModule) :
    LoadedModule × Site σ :=
  match s.depot.find? f with
  | some present => (present, (s.hold present.key).letGo host m.key)
  | none =>
    (m, (s.mapDepot fun d => { d with index := d.index ++ [(f, m)] }).hold m.key)

def file {α : Type} (host : Host σ) (s : Site σ) (p : Filing α) : α × Site σ :=
  let (result, world) := s.world.file host.files p
  (result, { s with world })

def load (host : Host σ) (s : Site σ) (f : Fingerprint) (artifact : Artifact) :
    Except DeviceFailure LoadedModule × Site σ :=
  let setup := s.depot.setup
  let (result, world) := s.world.load host.device setup.deviceId setup.device f artifact
  (result, { s with world })

/-- Load the stored artifact of a fingerprint.  A damaged one and one that the driver
refuses for its own fault are removed, and then, as with one that cannot be read, there
is nothing to load. -/
def restore (host : Host σ) (s : Site σ) (f : Fingerprint) :
    Except DeviceFailure (Option LoadedModule) × Site σ :=
  let store := s.depot.setup.store
  let recovered (s : Site σ) : Site σ :=
    s.mapDepot (·.count fun c => { c with corruptRecoveries := c.corruptRecoveries + 1 })
  let (found, s) := s.file host (store.load f)
  let s := s.report (ArtifactStore.loadEvents found)
  match found with
  | .ok none => (.ok none, s)
  | .error (.damaged ..) => (.ok none, (recovered s).report [.artifactDamaged])
  | .error _ => (.ok none, s.report [.artifactUnreadable])
  | .ok (some artifact) =>
    match s.load host f artifact with
    | (.ok m, s) => (.ok (some m), s.report [.diskHit])
    | (.error e, s) =>
      if e.isArtifactFault then
        let (_, s) := ((recovered s).report [.artifactRejected]).file host (store.remove f)
        (.ok none, s)
      else (.error e, s)

/-- Compile a request, with the includes as they are now. -/
def compile (host : Host σ) (s : Site σ) (p : PreparedRequest) :
    Except Failure Compilation × Site σ :=
  let (dialogue, outside) := host.compile p.job s.world.outside
  let space := { p.space with disk := host.disk outside }
  let verbose := s.depot.setup.verbose || p.request.verbose
  let report := PreparedRequest.compile { p with space } verbose dialogue
  let s : Site σ :=
    { depot := { s.depot with runs := s.depot.runs ++ [report.run] }
      world := { s.world with outside } }
  (report.outcome, s.report report.events)

def persist (host : Host σ) (s : Site σ) (f : Fingerprint) (artifact : Artifact) : Site σ :=
  let store := s.depot.setup.store
  let (result, s) := s.file host (store.store f artifact)
  let s := s.report (store.storeEvents result)
  match result with
  | .ok true => s.mapDepot (·.count fun c => { c with diskWrites := c.diskWrites + 1 })
  | .ok false => s
  | .error _ =>
    (s.mapDepot (·.count fun c => { c with persistenceFailures := c.persistenceFailures + 1 }))
      |>.report [.notPersisted]

def serveHit (host : Host σ) (s : Site σ) (m : LoadedModule) (entry : String) (event : Event) :
    Outcome × Site σ :=
  ((s.mapDepot (·.count fun c => { c with memoryHits := c.memoryHits + 1 })).report [event]
    |>.hold m.key).grant host m entry

end Site

namespace Call

variable {σ : Type}

def entry (c : Call) : String := c.order.request.entries.headD ""

def isBlocked (c : Call) (d : Depot) : Bool :=
  match c.stage with
  | .holding slot .lock => d.arena.isLocked slot
  | _ => false

/-- Do the next step of a call that has taken a slot and need not wait. -/
def work (host : Host σ) (order : KeyedRequest) (s : Site σ) (slot : Nat) : Task → Stage × Site σ :=
  let f := order.fingerprint
  let entry := order.request.entries.headD ""
  let setSlot (s : Site σ) (change : Slot → Slot) : Site σ :=
    s.mapDepot (·.mapArena (·.update slot change))
  fun
  | .lock => (.holding slot .recheck, setSlot s fun slot => { slot with locked := true })
  | .recheck =>
    match s.depot.arena.failure? slot with
    | some failure => (.holding slot (.unlock (.error (.compile failure))), s)
    | none =>
      match s.depot.find? f with
      | some m =>
        let (outcome, s) := s.serveHit host m entry .memoryHitAfterWait
        (.holding slot (.unlock outcome), s)
      | none => (.holding slot .restore, s)
  | .restore =>
    match s.restore host f with
    | (.error e, s) => (.holding slot (.unlock (.error (.device e))), s)
    | (.ok (some m), s) =>
      (.holding slot (.insert m),
        s.mapDepot (·.count fun c => { c with diskHits := c.diskHits + 1 }))
    | (.ok none, s) => (.holding slot .compile, s.report [.miss])
  | .compile =>
    match s.compile host order.toPreparedRequest with
    | (.error (.compile failure), s) =>
      (.holding slot (.unlock (.error (.compile failure))),
        setSlot s fun slot => { slot with failure := some failure })
    | (.error e, s) => (.holding slot (.unlock (.error e)), s)
    | (.ok result, s) =>
      let s := s.mapDepot (·.count fun c => { c with compilations := c.compilations + 1 })
      if result.extra.isEmpty then (.holding slot (.store result.artifact), s)
      else (.holding slot (.load result.artifact false), s.report [.notCacheable])
  | .store artifact => (.holding slot (.load artifact true), s.persist host f artifact)
  | .load artifact shared =>
    match s.load host f artifact with
    | (.error e, s) => (.holding slot (.unlock (.error (.device e))), s)
    | (.ok m, s) =>
      if shared then (.holding slot (.insert m), s)
      else
        let (outcome, s) := s.grant host m entry
        (.holding slot (.unlock outcome), s)
  | .insert m =>
    let (m, s) := s.enter host f m
    let (outcome, s) := s.grant host m entry
    (.holding slot (.unlock outcome), s)
  | .unlock outcome =>
    (.holding slot (.leave outcome), setSlot s fun slot => { slot with locked := false })
  | .leave outcome => (.finished outcome, s.mapDepot (·.mapArena (·.leave f slot)))

def act (host : Host σ) (order : KeyedRequest) (s : Site σ) : Stage → Stage × Site σ
  | .lookup =>
    match s.depot.find? order.fingerprint with
    | some m =>
      let (outcome, s) := s.serveHit host m (order.request.entries.headD "") .memoryHit
      (.finished outcome, s)
    | none => (.join, s)
  | .join =>
    let (slot, arena) := s.depot.arena.join order.fingerprint
    (.holding slot .lock, s.mapDepot ({ · with arena }))
  | .holding slot task => work host order s slot task
  | .finished outcome => (.finished outcome, s)

theorem rank_work_lt (host : Host σ) (order : KeyedRequest) (s : Site σ) (slot : Nat)
    (task : Task) : (work host order s slot task).1.rank < task.rank := by
  cases task <;> simp only [work] <;> (repeat' split) <;> simp [Stage.rank, Task.rank]

theorem rank_act_lt (host : Host σ) (order : KeyedRequest) (s : Site σ) (stage : Stage)
    (h : stage.rank ≠ 0) : (act host order s stage).1.rank < stage.rank := by
  cases stage with
  | lookup => simp only [act]; split <;> simp [Stage.rank]
  | join => simp [act, Stage.rank, Task.rank]
  | holding slot task => exact rank_work_lt host order s slot task
  | finished outcome => exact absurd rfl h

/-- Do steps of a call until it has ended, has to wait, or is at a stage to stop at. -/
def advance (host : Host σ) (stop : Stage → Bool) (s : Site σ) (c : Call) : Call × Site σ :=
  if c.stage.rank = 0 then (c, s)
  else if stop c.stage || c.isBlocked s.depot then (c, s)
  else
    let next := act host c.order s c.stage
    advance host stop next.2 { c with stage := next.1 }
termination_by c.stage.rank
decreasing_by exact rank_act_lt host c.order s c.stage (by assumption)

/-- Do all steps of a call that is alone, so that it never has to wait. -/
def complete (host : Host σ) (order : KeyedRequest) (s : Site σ) (stage : Stage) :
    Outcome × Site σ :=
  if h : stage.rank = 0 then
    match stage, h with
    | .finished outcome, _ => (outcome, s)
  else
    let next := act host order s stage
    complete host order next.2 next.1
termination_by stage.rank
decreasing_by exact rank_act_lt host order s stage h

end Call

namespace Site

variable {σ : Type}

def prepare (host : Host σ) (s : Site σ) (path : SearchPath) (request : Request) :
    Except Failure KeyedRequest × Site σ :=
  let prepared := s.depot.prepare (host.disk s.world.outside) path request
  (prepared.outcome, s.report prepared.events)

def fingerprint (host : Host σ) (s : Site σ) (path : SearchPath) (request : Request) :
    Except Failure Fingerprint × Site σ :=
  let (prepared, s) := s.prepare host path request
  (prepared.map (·.fingerprint), s)

/-- The kernel of a request, from the index, the store or the toolchain. -/
def getKernel (host : Host σ) (s : Site σ) (path : SearchPath) (request : Request) :
    Outcome × Site σ :=
  match s.prepare host path request with
  | (.error e, s) => (.error e, s)
  | (.ok order, s) => Call.complete host order s .lookup

def letGoAll (host : Host σ) (s : Site σ) (keys : List ModuleKey) : Site σ :=
  keys.foldl (fun s key => s.letGo host key) s

/-- Empty the index.  Modules to which there are handles stay on the device. -/
def release (host : Host σ) (s : Site σ) : Nat × Site σ :=
  let released := s.depot.index
  let emptied := s.mapDepot fun d => { d with index := [] }
  let reported := if released.isEmpty then emptied else emptied.report [.released]
  (released.length, reported.letGoAll host (released.map fun entry => entry.2.key))

end Site
end KernelDepot
