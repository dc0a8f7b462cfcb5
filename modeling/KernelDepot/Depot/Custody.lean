/-
Depots, the handles that they gave out, and the modules on the devices.

Depots are opened on the devices of a facility, serve requests one after the other, are
emptied, and are closed.  The handles that they give out are copied, exchanged for handles
to other entries of their modules, used and dropped, in any order, and some outlive their
depot.
-/
import KernelDepot.Depot.Loader
import KernelDepot.Depot.Machine

namespace KernelDepot

/-- What depots on several devices work with.  The setup of a depot says which device it is
on, which directory it has and which toolchain. -/
structure Facility (σ : Type) where
  disk : σ → Disk
  device : Nat → DriverHandler σ
  files : Setup → FileHandler σ
  compile : Setup → Job → σ → Dialogue × σ

def Facility.host {σ : Type} (p : Facility σ) (setup : Setup) : Host σ where
  disk := p.disk
  files := p.files setup
  device := p.device setup.deviceId
  compile := p.compile setup

def Machine.facility (toolchain : ToolchainIdentity → Toolchain) : Facility Machine where
  disk m := m.disk
  device := device
  files setup := files setup.store.dir
  compile setup job m := ((toolchain setup.toolchain).compile job, m)

/-- The modules that an index refers to. -/
def Depot.modules (d : Depot) : List LoadedModule := d.index.map Prod.snd

structure Custody (σ : Type) where
  depots : List Depot := []
  /-- The handles that were not dropped yet. -/
  handles : List KernelHandle := []
  world : World σ

namespace Custody

variable {σ : Type}

inductive Move (σ : Type) where
  /-- A depot is opened. -/
  | add (setup : Setup)
  | get (i : Nat) (path : SearchPath) (request : Request)
  | release (i : Nat)
  | close (i : Nat)
  | copy (j : Nat)
  | sibling (j : Nat) (entry : String)
  | drop (j : Nat)
  | launch (j : Nat) (shape : LaunchShape)
  | fill (j : Nat) (name : String) (bytes : Bytes)
  /-- Something happens outside. -/
  | outside (change : σ → σ)

def get (p : Facility σ) (c : Custody σ) (i : Nat) (path : SearchPath) (request : Request) :
    Custody σ :=
  match c.depots[i]? with
  | none => c
  | some d =>
    let (outcome, s) := Site.getKernel (p.host d.setup) ⟨d, c.world⟩ path request
    { depots := c.depots.set i s.depot
      handles := c.handles ++ outcome.toOption.toList
      world := s.world }

def release (p : Facility σ) (c : Custody σ) (i : Nat) : Custody σ :=
  match c.depots[i]? with
  | none => c
  | some d =>
    let (_, s) := Site.release (p.host d.setup) ⟨d, c.world⟩
    { c with depots := c.depots.set i s.depot, world := s.world }

def close (p : Facility σ) (c : Custody σ) (i : Nat) : Custody σ :=
  match c.depots[i]? with
  | none => c
  | some d =>
    let s := Site.close (p.host d.setup) ⟨d, c.world⟩
    { c with depots := c.depots.eraseIdx i, world := s.world }

/-- Keep a further handle to the module of a handle, if there is one. -/
def share (c : Custody σ) (j : Nat) (further : KernelHandle → Option KernelHandle) : Custody σ :=
  match c.handles[j]?.bind further with
  | none => c
  | some h => { c with handles := c.handles ++ [h], world := c.world.hold h.loaded.key }

def drop (p : Facility σ) (c : Custody σ) (j : Nat) : Custody σ :=
  match c.handles[j]? with
  | none => c
  | some h =>
    { c with
      handles := c.handles.eraseIdx j
      world := c.world.letGo (p.device h.loaded.key.device) h.loaded.key }

/-- Do something with the device that the module of a handle is on. -/
def drive {α : Type} (p : Facility σ) (c : Custody σ) (h : KernelHandle) (work : Driving α) :
    α × World σ :=
  c.world.drive (p.device h.loaded.key.device) work

def use {α : Type} (p : Facility σ) (c : Custody σ) (j : Nat)
    (work : KernelHandle → Driving α) : Custody σ :=
  match c.handles[j]? with
  | none => c
  | some h => { c with world := (c.drive p h (work h)).2 }

def next (p : Facility σ) (c : Custody σ) : Move σ → Custody σ
  | .add setup => { c with depots := c.depots ++ [{ setup }] }
  | .get i path request => c.get p i path request
  | .release i => c.release p i
  | .close i => c.close p i
  | .copy j => c.share j some
  | .sibling j entry => c.share j (·.sibling? entry)
  | .drop j => c.drop p j
  | .launch j shape => c.use p j (·.function.launch shape)
  | .fill j name bytes => c.use p j (·.loaded.fill name bytes)
  | .outside change => { c with world := { c.world with outside := change c.world.outside } }

def run (p : Facility σ) (c : Custody σ) (moves : List (Move σ)) : Custody σ :=
  moves.foldl (next p) c

/-- The request of a move as it is prepared. -/
def prepared? (p : Facility σ) (c : Custody σ) : Move σ → Option KeyedRequest
  | .get i path request =>
    c.depots[i]?.bind fun d =>
      (Site.prepare (p.host d.setup) ⟨d, c.world⟩ path request).1.toOption
  | _ => none

/-- The requests that are prepared in a run. -/
def orders (p : Facility σ) (c : Custody σ) : List (Move σ) → List KeyedRequest
  | [] => []
  | move :: moves => (c.prepared? p move).toList ++ orders p (c.next p move) moves

/-- The modules that somebody refers to, once for every index and every handle that does. -/
def referenced (c : Custody σ) : List LoadedModule :=
  c.depots.flatMap Depot.modules ++ c.handles.map KernelHandle.loaded

end Custody
end KernelDepot
