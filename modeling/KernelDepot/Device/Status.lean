/-
Driver statuses and what they mean for a module that is being loaded.

A driver answers a failed call with a status code, a symbolic name and a
description.  Only a few codes matter to a loader: those of a lost context and
those of a damaged image.  A failure blames the artifact when loading a fresh one
could succeed, which is the case for a damaged image and for a missing symbol.
-/
import KernelDepot.Number.Decimal

namespace KernelDepot

structure DriverStatus where
  code : Int
  name : String
  description : String
  deriving DecidableEq, Repr

inductive DeviceFault where
  | invalidContext
  /-- The artifact is for an architecture that the device cannot run. -/
  | archMismatch (artifact device : String)
  | invalidImage
  | missingSymbol (name : String)
  | driver
  deriving DecidableEq, Repr

def DeviceFault.text : DeviceFault → String
  | invalidContext => "invalid device context"
  | archMismatch artifact device =>
    "artifact built for " ++ artifact ++ " cannot run on " ++ device ++ " device"
  | invalidImage => "invalid module image"
  | missingSymbol name => "missing symbol '" ++ name ++ "'"
  | driver => "driver error"

namespace DriverStatus

/-! ### Codes that a loader tells apart -/

def notInitialized : Int := 3

def deinitialized : Int := 4

def invalidImage : Int := 200

def invalidContext : Int := 201

/-- Nothing in the image runs on the device. -/
def noBinaryForDevice : Int := 209

/-- Intermediate code could not be compiled. -/
def invalidPtx : Int := 218

def unsupportedPtxVersion : Int := 222

def notFound : Int := 500

def contextIsDestroyed : Int := 709

/-! ### Further codes of a simulated driver -/

def invalidValue : Int := 1

def invalidHandle : Int := 400

def classify (s : DriverStatus) : DeviceFault :=
  if s.code ∈ [notInitialized, deinitialized, invalidContext, contextIsDestroyed] then
    .invalidContext
  else if s.code ∈ [invalidImage, invalidPtx, unsupportedPtxVersion] then .invalidImage
  else .driver

/-- The written form: name, code and the description if there is one. -/
def text (s : DriverStatus) : String :=
  s.name ++ " (" ++ Number.signedText s.code ++ ")" ++
    (if s.description.isEmpty then "" else ": " ++ s.description)

end DriverStatus

/-- A failure to load, fill or launch something on the device. -/
structure DeviceFailure where
  fault : DeviceFault
  detail : String
  /-- The status of the driver call that failed, if one did. -/
  status : Option DriverStatus
  deriving DecidableEq, Repr

namespace DeviceFailure

def ofStatus (status : DriverStatus) (detail : String) : DeviceFailure :=
  ⟨status.classify, detail, some status⟩

/-- Whether the artifact is to blame, so that a fresh one could be loaded. -/
def isArtifactFault (f : DeviceFailure) : Bool :=
  match f.fault with
  | .invalidImage | .missingSymbol _ => true
  | _ => false

def message (f : DeviceFailure) : String :=
  "Device load failed (" ++ f.fault.text ++ "): " ++ f.detail ++
    (match f.status with
      | some s => " [" ++ s.text ++ "]"
      | none => "")

end DeviceFailure
end KernelDepot
