/-
Calls to a device driver.

A driver is bound to one device.  It answers calls, each of which can fail with a
status; a call that succeeds has an answer of its own type.  What follows a call may
depend on its answer, so an operation on the device is a program of calls, and the
driver is whatever answers them.  The context of the device is made current before
every other call of an operation.
-/
import KernelDepot.Arch
import KernelDepot.Device.Launch
import KernelDepot.Device.Status
import KernelDepot.Program
import KernelDepot.Text.Utf8

namespace KernelDepot

structure DeviceInfo where
  ordinal : Nat
  name : String
  capability : Nat × Nat
  deriving DecidableEq, Repr

def DeviceInfo.arch (d : DeviceInfo) : Arch := .sm d.capability.1 d.capability.2

structure DeviceGlobal where
  address : Nat
  size : Nat
  deriving DecidableEq, Repr

/-- The launch shape that a driver suggests for a function. -/
structure Occupancy where
  minGridSize : Nat
  blockSize : Nat
  deriving DecidableEq, Repr

/-- A call to a driver.  Modules and functions are named by handles. -/
inductive DriverCall where
  | bind
  | load (image : Bytes)
  | getFunction (handle : Nat) (name : String)
  | getGlobal (handle : Nat) (name : String)
  | occupancy (function : Nat)
  | unload (handle : Nat)
  | copy (address : Nat) (bytes : Bytes)
  | launch (function : Nat) (shape : LaunchShape)
  deriving DecidableEq, Repr

namespace DriverCall

abbrev Answer : DriverCall → Type
  | bind | unload _ | copy .. | launch .. => Unit
  | load _ | getFunction .. => Nat
  | getGlobal .. => DeviceGlobal
  | occupancy _ => Occupancy

abbrev Reply (call : DriverCall) : Type := Except DriverStatus call.Answer

inductive Kind where
  | bind
  | load
  | getFunction
  | getGlobal
  | occupancy
  | unload
  | copy
  | launch
  deriving DecidableEq, Repr

def kind : DriverCall → Kind
  | bind => .bind
  | load _ => .load
  | getFunction .. => .getFunction
  | getGlobal .. => .getGlobal
  | occupancy _ => .occupancy
  | unload _ => .unload
  | copy .. => .copy
  | launch .. => .launch

end DriverCall

abbrev Driving (α : Type) := Program DriverCall DriverCall.Reply α

def DriverCall.make (call : DriverCall) : Driving call.Reply := Program.question call

abbrev DriverHandler (σ : Type) := Program.Handler DriverCall DriverCall.Reply σ

end KernelDepot
