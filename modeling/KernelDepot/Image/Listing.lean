/-
Images that list their symbols.

A simulated toolchain emits, and a simulated driver loads, an image that is a text:
a first line that marks it, the architecture it is for, and one line for every entry
and every global with its size.  Blank lines are skipped, and any other line makes the
image invalid.
-/
import KernelDepot.Arch
import KernelDepot.Text.Blank
import KernelDepot.Text.Lines
import KernelDepot.Text.Utf8

namespace KernelDepot
namespace Listing

def header : String := "// mock-ptx"

def constantSize : Nat := 4

/-- A listing for an architecture, with its entries and its globals. -/
def render (arch : String) (entries : List String) (globals : List (String × Nat)) : String :=
  header ++ "\n.target " ++ arch ++ "\n" ++
    String.join (entries.map fun name => ".entry " ++ name ++ "\n") ++
    String.join (globals.map fun (name, size) =>
      ".global " ++ name ++ " " ++ Number.decimalText size ++ "\n")

inductive Item where
  | blank
  | target (arch : Arch)
  | entry (name : String)
  | global (name : String) (size : Nat)
  deriving DecidableEq, Repr

inductive Fault where
  | notText
  | missingHeader
  | badTarget
  | badSize
  | unknownLine
  | missingTarget
  deriving DecidableEq, Repr

def Fault.text : Fault → String
  | notText => "not UTF-8"
  | missingHeader => "missing header"
  | badTarget => "bad target"
  | badSize => "bad global size"
  | unknownLine => "unrecognized directive"
  | missingTarget => "missing target"

/-- Read a line.  What follows the size of a global is not looked at. -/
def item (line : List Char) : Except Fault Item :=
  match (Text.words line).map String.ofList with
  | [] => .ok .blank
  | [".target", arch] =>
    match Arch.parse arch with
    | .ok arch => .ok (.target arch)
    | .error _ => .error .badTarget
  | [".entry", name] => .ok (.entry name)
  | ".global" :: name :: size :: _ =>
    match Number.parseUnsigned 10 Number.limit64 size.toList with
    | .ok size => .ok (.global name size)
    | .error _ => .error .badSize
  | _ => .error .unknownLine

/-- The lines of a listing behind the first one, which marks it. -/
def body (image : Bytes) : Except Fault (List (List Char)) :=
  match Text.strict? image with
  | none => .error .notText
  | some text =>
    match Text.lines text with
    | [] => .error .missingHeader
    | first :: rest => if first = header.toList then .ok rest else .error .missingHeader

end Listing
end KernelDepot
