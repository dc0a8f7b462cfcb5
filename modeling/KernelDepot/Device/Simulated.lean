/-
A driver over tables in memory.

It loads listings.  Every entry and every global of a listing and the module itself
get a number each, counted up from one and never given twice, also by loads that fail
later on.  The address of a global is its number with eight zero bits behind it, as far
as 64 bits hold it.  A module keeps its functions and globals until it is unloaded, and
the contents that were copied into its globals go with it.

For each kind of call a status can be set with which every call of that kind fails
before it reaches the tables; such a call is not counted.
-/
import KernelDepot.Device.Driver
import KernelDepot.Image.Listing
import KernelDepot.NameTable

namespace KernelDepot

structure SymbolTable where
  functions : NameTable Nat := .empty
  globals : NameTable DeviceGlobal := .empty
  deriving DecidableEq, Repr

structure SimulatedDriver where
  device : DeviceInfo := ⟨0, "Mock Device", (8, 0)⟩
  modules : List (Nat × SymbolTable) := []
  /-- The contents that were copied to the device, by address. -/
  memory : List (Nat × Bytes) := []
  next : Nat := 1
  losesContext : Bool := false
  /-- The statuses with which calls fail at once. -/
  refusals : List (DriverCall.Kind × DriverStatus) := []
  binds : Nat := 0
  loads : Nat := 0
  launches : Nat := 0
  deriving DecidableEq, Repr

namespace SimulatedDriver

def ofCapability (major minor : Nat) : SimulatedDriver :=
  { device := ⟨0, "Mock Device", (major, minor)⟩ }

/-- Let the calls of one kind fail, or let them through again. -/
def refuse (d : SimulatedDriver) (kind : DriverCall.Kind) (status : Option DriverStatus) :
    SimulatedDriver :=
  let others := d.refusals.filter fun r => r.1 ≠ kind
  { d with refusals := others ++ (status.map fun s => (kind, s)).toList }

def lostContext : DriverStatus :=
  ⟨DriverStatus.invalidContext, "CUDA_ERROR_INVALID_CONTEXT", "invalid device context"⟩

def invalidImage (fault : Listing.Fault) : DriverStatus :=
  ⟨DriverStatus.invalidImage, "CUDA_ERROR_INVALID_IMAGE",
    "device kernel image is invalid: " ++ fault.text⟩

/-- The status of an image that the device cannot run. -/
def noBinary : DriverStatus :=
  ⟨DriverStatus.noBinaryForDevice, "CUDA_ERROR_NO_BINARY_FOR_GPU",
    "no kernel image is available for execution on the device"⟩

def unknownHandle (what : String) : DriverStatus :=
  ⟨DriverStatus.invalidHandle, "CUDA_ERROR_INVALID_HANDLE", what⟩

def unknownSymbol : DriverStatus :=
  ⟨DriverStatus.notFound, "CUDA_ERROR_NOT_FOUND", "named symbol not found"⟩

def unknownAddress : DriverStatus :=
  ⟨DriverStatus.invalidValue, "CUDA_ERROR_INVALID_VALUE", "invalid device pointer"⟩

def addressOf (number : Nat) : Nat := number * 256 % Number.limit64

/-- What has been read of a listing: its symbols, its architecture, and the next
number to give out. -/
structure Intake where
  symbols : SymbolTable
  target : Option Arch
  next : Nat
  deriving DecidableEq, Repr

def Intake.add (i : Intake) : Listing.Item → Intake
  | .blank => i
  | .target arch => { i with target := some arch }
  | .entry name =>
    { i with
      symbols := { i.symbols with functions := i.symbols.functions.insert name i.next }
      next := i.next + 1 }
  | .global name size =>
    { i with
      symbols := { i.symbols with
        globals := i.symbols.globals.insert name ⟨addressOf i.next, size⟩ }
      next := i.next + 1 }

/-- Take in lines up to the first faulty one.  The numbers given out so far are gone
even if a line is faulty. -/
def takeIn (i : Intake) : List (List Char) → Except Listing.Fault Unit × Intake
  | [] => (.ok (), i)
  | line :: rest =>
    match Listing.item line with
    | .error fault => (.error fault, i)
    | .ok item => takeIn (i.add item) rest

def load (d : SimulatedDriver) (image : Bytes) : Except DriverStatus Nat × SimulatedDriver :=
  match Listing.body image with
  | .error fault => (.error (invalidImage fault), d)
  | .ok lines =>
    let (result, i) := takeIn ⟨{}, none, d.next⟩ lines
    let used := { d with next := i.next }
    match result, i.target with
    | .error fault, _ => (.error (invalidImage fault), used)
    | .ok (), none => (.error (invalidImage .missingTarget), used)
    | .ok (), some target =>
      if target.ptxRunsOn d.device.arch then
        (.ok i.next, { used with
          next := i.next + 1
          modules := d.modules ++ [(i.next, i.symbols)]
          loads := d.loads + 1 })
      else (.error noBinary, used)

def symbols? (d : SimulatedDriver) (handle : Nat) : Option SymbolTable := d.modules.lookup handle

def symbol {α : Type} (d : SimulatedDriver) (handle : Nat) (table : SymbolTable → NameTable α)
    (name : String) : Except DriverStatus α :=
  match d.symbols? handle with
  | none => .error (unknownHandle "invalid module")
  | some symbols =>
    match (table symbols).find? name with
    | none => .error unknownSymbol
    | some value => .ok value

def unload (d : SimulatedDriver) (handle : Nat) : Except DriverStatus Unit × SimulatedDriver :=
  match d.symbols? handle with
  | none => (.error (unknownHandle "invalid module"), d)
  | some symbols =>
    let addresses := symbols.globals.values.map (·.address)
    (.ok (), { d with
      modules := d.modules.filter fun m => m.1 ≠ handle
      memory := d.memory.filter fun cell => cell.1 ∉ addresses })

/-- Whether an address belongs to a global that has room for some bytes. -/
def hasRoom (d : SimulatedDriver) (address size : Nat) : Bool :=
  d.modules.any fun m => m.2.globals.values.any fun g => g.address = address ∧ size ≤ g.size

def hasFunction (d : SimulatedDriver) (function : Nat) : Bool :=
  d.modules.any fun m => m.2.functions.values.any (· = function)

/-- The bytes last copied to an address. -/
def read (d : SimulatedDriver) (address : Nat) : Option Bytes := d.memory.lookup address

def perform : DriverHandler SimulatedDriver
  | .bind, d =>
    let counted := { d with binds := d.binds + 1 }
    (if d.losesContext then .error lostContext else .ok (), counted)
  | .load image, d => d.load image
  | .getFunction handle name, d => (d.symbol handle (·.functions) name, d)
  | .getGlobal handle name, d => (d.symbol handle (·.globals) name, d)
  | .occupancy _, d => (.ok ⟨216, 256⟩, d)
  | .unload handle, d => d.unload handle
  | .copy address bytes, d =>
    if d.hasRoom address bytes.length then
      (.ok (), { d with
        memory := (address, bytes) :: d.memory.filter fun cell => cell.1 ≠ address })
    else (.error unknownAddress, d)
  | .launch function _, d =>
    if d.hasFunction function then (.ok (), { d with launches := d.launches + 1 })
    else (.error (unknownHandle "invalid function"), d)

def answer : DriverHandler SimulatedDriver := fun call d =>
  match d.refusals.lookup call.kind with
  | some status => (.error status, d)
  | none => perform call d

end SimulatedDriver
end KernelDepot
