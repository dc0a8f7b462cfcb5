/-
Modules on a device.

Loading an artifact checks its architecture, makes the context current, loads the
image, and looks up every entry and every constant that the artifact lists.  A module
that lacks one of them is unloaded again, so a load that fails leaves nothing behind
on a device whose driver does what it is asked to.

An unload that fails is reported and otherwise passed over; when the driver is
shutting down already it is not even reported.
-/
import KernelDepot.Artifact
import KernelDepot.Device.Driver
import KernelDepot.Event
import KernelDepot.Failure
import KernelDepot.Fingerprint

namespace KernelDepot

structure KernelFunction where
  entry : String
  symbol : String
  handle : Nat
  occupancy : Occupancy
  deriving DecidableEq, Repr

/-- What tells loaded modules apart: a device and a handle on it. -/
structure ModuleKey where
  device : Nat
  handle : Nat
  deriving DecidableEq, Repr

structure LoadedModule where
  key : ModuleKey
  fingerprint : Fingerprint
  arch : String
  functions : NameTable KernelFunction
  constants : NameTable DeviceGlobal
  deriving DecidableEq, Repr

structure DeviceReport (α : Type) where
  events : List Event
  outcome : Except DeviceFailure α

def DeviceInfo.check (device : DeviceInfo) (target : Arch) (format : ImageFormat) :
    Except DeviceFailure Unit :=
  let runs := match format with
    | .ptx => target.ptxRunsOn device.arch
    | .cubin => target.cubinRunsOn device.arch
  if runs then .ok ()
  else .error ⟨.archMismatch target.text device.arch.text,
    format.extension ++ " artifact for " ++ target.text ++ " is not loadable on " ++ device.name,
    none⟩

namespace LoadedModule

def function? (m : LoadedModule) (entry : String) : Option KernelFunction :=
  m.functions.find? entry

def constant? (m : LoadedModule) (name : String) : Option DeviceGlobal := m.constants.find? name

def bindContext : Driving (Except DeviceFailure Unit) := do
  match (← DriverCall.bind.make) with
  | .ok () => return .ok ()
  | .error status =>
    return .error ⟨.invalidContext, "failed to make the device context current", some status⟩

def loadFailure (device : DeviceInfo) (target : Arch) (status : DriverStatus) : DeviceFailure :=
  if status.code = DriverStatus.noBinaryForDevice then
    ⟨.archMismatch target.text device.arch.text,
      "driver found no compatible binary in the image", some status⟩
  else .ofStatus status "failed to load module image"

def symbolFailure (status : DriverStatus) (name symbol : String) : DeviceFailure :=
  if status.code = DriverStatus.notFound then
    ⟨.missingSymbol name, "symbol '" ++ symbol ++ "' not present in module", some status⟩
  else .ofStatus status ("lookup of '" ++ symbol ++ "' failed")

def findFunction (handle : Nat) (entry symbol : String) :
    Driving (Except DeviceFailure KernelFunction) := do
  match (← (DriverCall.getFunction handle symbol).make) with
  | .error status => return .error (symbolFailure status entry symbol)
  | .ok function =>
    match (← (DriverCall.occupancy function).make) with
    | .error status =>
      return .error (.ofStatus status ("occupancy query failed for '" ++ entry ++ "'"))
    | .ok occupancy => return .ok ⟨entry, symbol, function, occupancy⟩

def findGlobal (handle : Nat) (name symbol : String) :
    Driving (Except DeviceFailure DeviceGlobal) := do
  match (← (DriverCall.getGlobal handle symbol).make) with
  | .error status => return .error (symbolFailure status name symbol)
  | .ok global => return .ok global

/-- Look up a list of symbols in order, up to the first that fails. -/
def findAll {α : Type} (find : String → String → Driving (Except DeviceFailure α)) :
    List (String × String) → Driving (Except DeviceFailure (List (String × α)))
  | [] => return .ok []
  | (name, symbol) :: rest => do
    match (← find name symbol) with
    | .error e => return .error e
    | .ok value =>
      match (← findAll find rest) with
      | .error e => return .error e
      | .ok values => return .ok ((name, value) :: values)

def findSymbols (handle : Nat) (artifact : Artifact) :
    Driving (Except DeviceFailure
      (List (String × KernelFunction) × List (String × DeviceGlobal))) := do
  match (← findAll (findFunction handle) artifact.entries.entries) with
  | .error e => return .error e
  | .ok functions =>
    match (← findAll (findGlobal handle) artifact.constants.entries) with
    | .error e => return .error e
    | .ok globals => return .ok (functions, globals)

def unloadEvents : Except DriverStatus Unit → List Event
  | .ok () => [.moduleUnloaded]
  | .error status => if status.code = DriverStatus.deinitialized then [] else [.unloadFailed]

def unload (handle : Nat) : Driving (List Event) := do
  match (← DriverCall.bind.make) with
  | .error status => return unloadEvents (.error status)
  | .ok () => return unloadEvents (← (DriverCall.unload handle).make)

/-- Load an artifact for a fingerprint on the device number `id`. -/
def load (id : Nat) (device : DeviceInfo) (fingerprint : Fingerprint) (artifact : Artifact) :
    Driving (DeviceReport LoadedModule) := do
  let failed (e : DeviceFailure) : DeviceReport LoadedModule := ⟨[], .error e⟩
  match Arch.parse artifact.arch with
  | .error e => return failed ⟨.invalidImage, e.message, none⟩
  | .ok target =>
    match device.check target artifact.format with
    | .error e => return failed e
    | .ok () =>
      match (← bindContext) with
      | .error e => return failed e
      | .ok () =>
        match (← (DriverCall.load artifact.image).make) with
        | .error status => return failed (loadFailure device target status)
        | .ok handle =>
          match (← findSymbols handle artifact) with
          | .error e =>
            let events ← unload handle
            return ⟨events, .error e⟩
          | .ok (functions, globals) =>
            return ⟨[.moduleLoaded], .ok
              { key := ⟨id, handle⟩
                fingerprint
                arch := artifact.arch
                functions := .ofList functions
                constants := .ofList globals }⟩

/-- Copy bytes into a constant; there must be as many as the variable has. -/
def fill (m : LoadedModule) (name : String) (bytes : Bytes) : Driving (Except Failure Unit) := do
  match m.constant? name with
  | none =>
    return .error (.device ⟨.missingSymbol name,
      "constant was not requested when the kernel was loaded", none⟩)
  | some global =>
    if global.size ≠ bytes.length then
      return .error (.settings (.constantSize name global.size bytes.length))
    else
      match (← bindContext) with
      | .error e => return .error (.device e)
      | .ok () =>
        match (← (DriverCall.copy global.address bytes).make) with
        | .ok () => return .ok ()
        | .error status =>
          return .error (.device (.ofStatus status ("copy to constant '" ++ name ++ "' failed")))

end LoadedModule

def KernelFunction.launch (f : KernelFunction) (shape : LaunchShape) :
    Driving (Except DeviceFailure Unit) := do
  match (← LoadedModule.bindContext) with
  | .error e => return .error e
  | .ok () =>
    match (← (DriverCall.launch f.handle shape).make) with
    | .ok () => return .ok ()
    | .error status => return .error (.ofStatus status ("launch of '" ++ f.entry ++ "' failed"))

end KernelDepot
