/-
A simulated machine.

A machine has a disk, some simulated drivers, and the next ticket for the name of a
temporary file.  It serves as the surroundings of any number of depots, all of them in
one process.
-/
import KernelDepot.Depot.World
import KernelDepot.Device.Simulated

namespace KernelDepot

structure Machine where
  disk : Disk := {}
  drivers : List SimulatedDriver := []
  /-- The next ticket for a temporary file.  The number of the process may be any that the
names of other files do not hold; the serial number is a 64-bit counter that wraps around. -/
  ticket : Ticket := ⟨20011, 0⟩

namespace Machine

def changed (m : Machine) : Except FileFault Disk → Except FileFault Unit × Machine
  | .ok disk => (.ok (), { m with disk })
  | .error e => (.error e, m)

def files (dir : String) : FileHandler Machine
  | .isFile name, m => (m.disk.isFile (Path.join dir name), m)
  | .read name, m => (m.disk.read (Path.join dir name), m)
  | .write name content, m => m.changed (m.disk.write (Path.join dir name) content)
  | .rename source target, m =>
    m.changed (m.disk.rename (Path.join dir source) (Path.join dir target))
  | .delete name, m => m.changed (m.disk.delete (Path.join dir name))
  | .list, m => (m.disk.list dir, m)
  | .size name, m => (m.disk.size (Path.join dir name), m)
  | .ticket, m =>
    (m.ticket, { m with ticket.serial := (m.ticket.serial + 1) % Number.limit64 })

/-- Answer a call to one of the drivers.  A driver that is not there has no context. -/
def device (id : Nat) : DriverHandler Machine := fun call m =>
  match m.drivers[id]? with
  | none => (.error SimulatedDriver.lostContext, m)
  | some d =>
    let (reply, d) := SimulatedDriver.answer call d
    (reply, { m with drivers := m.drivers.set id d })

def host (id : Nat) (dir : String) (toolchain : Toolchain) : Host Machine where
  disk m := m.disk
  files := files dir
  device := device id
  compile job m := (toolchain.compile job, m)

end Machine
end KernelDepot
