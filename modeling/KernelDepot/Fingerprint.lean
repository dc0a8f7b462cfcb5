/-
Fingerprints.

A fingerprint is thirty-two bytes, written as sixty-four lowercase hexadecimal
digits.  Reading one takes exactly sixty-four ASCII characters, two for each byte.
-/
import KernelDepot.Digest.Hex
import KernelDepot.Digest.Sha256

namespace KernelDepot

/-- A digest that identifies the inputs of one compilation. -/
structure Fingerprint where
  bytes : Bytes
  length_bytes : bytes.length = 32
  deriving DecidableEq, Repr

inductive FingerprintFault where
  | size (text : String)
  | digit (text : String) (cause : Number.Fault)
  deriving DecidableEq, Repr

def FingerprintFault.message : FingerprintFault → String
  | size text => "expected 64 hex characters, got '" ++ text ++ "'"
  | digit text cause => "invalid hex in '" ++ text ++ "': " ++ cause.message

namespace Fingerprint

def digits (f : Fingerprint) : List Char := Hex.encode f.bytes

/-- The written form, which also names the files of a stored artifact. -/
def hex (f : Fingerprint) : String := String.ofList f.digits

/-- The first eight digits, for reports. -/
def short (f : Fingerprint) : String := String.ofList (f.digits.take 8)

/-- The order of the bytes, the first that differs deciding. -/
def le (a b : Fingerprint) : Bool := decide (a.bytes ≤ b.bytes)

/-- The digest of a byte sequence. -/
def ofPreimage (preimage : Bytes) : Fingerprint :=
  ⟨Sha256.digest preimage, Sha256.length_digest preimage⟩

def parse (s : String) : Except FingerprintFault Fingerprint :=
  let cs := s.toList
  if hs : cs.length = 64 then
    if cs.all fun c => decide (c.toNat < 128) then
      match h : Hex.decode cs with
      | .error cause => .error (.digit s cause)
      | .ok bytes => .ok ⟨bytes, by rw [Hex.length_decode h, hs]⟩
    else .error (.size s)
  else .error (.size s)

end Fingerprint

structure ToolchainIdentity where
  name : String
  version : String
  deriving DecidableEq, Repr

def ToolchainIdentity.text (t : ToolchainIdentity) : String := t.name ++ " " ++ t.version

end KernelDepot
