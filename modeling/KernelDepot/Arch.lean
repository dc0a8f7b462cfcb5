/-
Target architectures.

An architecture is written as a family and a compute capability: `sm_80` is real
machine code, `compute_80` is virtual, and a final `a` restricts either to exactly
that capability.  The last digit is the minor version and the digits in front of
it are the major version, which is never zero.
-/
import KernelDepot.Number.Decimal
import KernelDepot.Text.Search

namespace KernelDepot

structure Arch where
  major : Nat
  minor : Nat
  /-- Virtual code that is compiled for the device when it is loaded. -/
  isVirtual : Bool
  /-- Uses features of exactly this compute capability. -/
  isSpecific : Bool
  deriving DecidableEq, Repr

inductive ArchFault where
  | unknownFamily (text : String)
  | malformed (text : String) (cause : Option Number.Fault)
  deriving DecidableEq, Repr

def ArchFault.message : ArchFault → String
  | .unknownFamily s =>
    "unsupported target architecture '" ++ s ++ "' (expected sm_XY or compute_XY)"
  | .malformed s none => "malformed target architecture '" ++ s ++ "'"
  | .malformed s (some cause) => "malformed target architecture '" ++ s ++ "': " ++ cause.message

namespace Arch

/-- The real architecture of a compute capability. -/
def sm (major minor : Nat) : Arch := ⟨major, minor, false, false⟩

def toVirtual (t : Arch) : Arch := { t with isVirtual := true }

def toSpecific (t : Arch) : Arch := { t with isSpecific := true }

def capability (t : Arch) : Nat × Nat := (t.major, t.minor)

def capabilityLe (a b : Nat × Nat) : Bool := a.1 < b.1 || (a.1 == b.1 && a.2 ≤ b.2)

/-- Whether intermediate code for `t` can be compiled for `device`: any device of
an equal or newer capability accepts it, unless it is restricted. -/
def ptxRunsOn (t device : Arch) : Bool :=
  if t.isSpecific then device.capability == t.capability
  else capabilityLe t.capability device.capability

/-- Whether machine code for `t` runs on `device`: only within one major version,
from the same minor version upwards. -/
def cubinRunsOn (t device : Arch) : Bool :=
  if t.isSpecific then device.capability == t.capability
  else device.major == t.major && t.minor ≤ device.minor

def chars (t : Arch) : List Char :=
  (if t.isVirtual then "compute_".toList else "sm_".toList) ++
    (Number.decimal t.major ++ Number.decimal t.minor) ++ (if t.isSpecific then ['a'] else [])

def text (t : Arch) : String := String.ofList t.chars

/-- The family a text starts with, and what follows it. -/
def family? (cs : List Char) : Option (Bool × List Char) :=
  match Text.after? "sm_".toList cs with
  | some rest => some (false, rest)
  | none => (Text.after? "compute_".toList cs).map fun rest => (true, rest)

def parse (s : String) : Except ArchFault Arch :=
  match family? s.toList with
  | none => .error (.unknownFamily s)
  | some (isVirtual, rest) =>
    let (digits, isSpecific) := match Text.before? ['a'] rest with
      | some front => (front, true)
      | none => (rest, false)
    if digits.length < 2 ∨ ¬ digits.all Char.isDigit then .error (.malformed s none)
    else
      let cut := digits.length - 1
      match Number.parseUnsigned 10 Number.limit32 (digits.take cut),
          Number.parseUnsigned 10 Number.limit32 (digits.drop cut) with
      | .error e, _ => .error (.malformed s (some e))
      | .ok _, .error e => .error (.malformed s (some e))
      | .ok major, .ok minor =>
        if major = 0 then .error (.malformed s none)
        else .ok ⟨major, minor, isVirtual, isSpecific⟩

end Arch
end KernelDepot
