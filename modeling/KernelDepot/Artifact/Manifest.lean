/-
Manifests of stored artifacts.

A manifest says everything about an artifact except its image: the fingerprint it
belongs to, the format and the architecture, the symbols, and the size and the digest
by which the image is recognised.  It is written as a JSON object with its fields in a
fixed order, and read from any JSON that has them.
-/
import KernelDepot.Artifact
import KernelDepot.Failure
import KernelDepot.Fingerprint.Preimage
import KernelDepot.Json.Layout
import KernelDepot.Json.Value

namespace KernelDepot

/-- What is stored beside an image. -/
structure Manifest where
  version : Nat
  fingerprint : String
  format : ImageFormat
  arch : String
  entries : NameTable String
  constants : NameTable String
  imageSize : Nat
  /-- The SHA-256 digest of the image in hexadecimal. -/
  imageDigest : String
  deriving DecidableEq, Repr

namespace Manifest

def digestOf (image : Bytes) : String := String.ofList (Hex.encode (Sha256.digest image))

def ofArtifact (fingerprint : Fingerprint) (a : Artifact) : Manifest where
  version := Preimage.formatVersion
  fingerprint := fingerprint.hex
  format := a.format
  arch := a.arch
  entries := a.entries
  constants := a.constants
  imageSize := a.image.length
  imageDigest := digestOf a.image

def artifact (m : Manifest) (image : Bytes) : Artifact :=
  ⟨image, m.format, m.arch, m.entries, m.constants⟩

/-- What is wrong with a manifest found under a fingerprint, beside an image. -/
def damage? (m : Manifest) (fingerprint : Fingerprint) (image : Bytes) : Option Damage :=
  if m.version ≠ Preimage.formatVersion then some (.version m.version Preimage.formatVersion)
  else if m.fingerprint ≠ fingerprint.hex then some .foreign
  else if m.imageSize ≠ image.length then some (.imageSize image.length m.imageSize)
  else if m.imageDigest ≠ digestOf image then some .imageChecksum
  else none

theorem damage?_ofArtifact (fingerprint : Fingerprint) (a : Artifact) :
    (ofArtifact fingerprint a).damage? fingerprint a.image = none := by
  simp [damage?, ofArtifact]

theorem artifact_ofArtifact (fingerprint : Fingerprint) (a : Artifact) :
    (ofArtifact fingerprint a).artifact a.image = a := rfl

def chars (m : Manifest) : List Char :=
  Json.object 0 [
    ("version", Number.decimal m.version),
    ("fingerprint", Json.quote m.fingerprint),
    ("format", Json.quote m.format.extension),
    ("arch", Json.quote m.arch),
    ("entries", Json.textObject 1 m.entries.entries),
    ("constants", Json.textObject 1 m.constants.entries),
    ("image_len", Number.decimal m.imageSize),
    ("image_sha256", Json.quote m.imageDigest)]

def write (m : Manifest) : Bytes := Text.bytes (String.ofList m.chars)

def fieldNames : List String :=
  ["version", "fingerprint", "format", "arch", "entries", "constants", "image_len",
    "image_sha256"]

/-- The format that a value names: its name, or an object with its name and nothing. -/
def format? : Json.Value → Option ImageFormat
  | .text (some name) | .object [(some name, .null)] => ImageFormat.ofName? name
  | _ => none

def ofValue? (value : Json.Value) : Option Manifest := do
  let fields ← value.record? fieldNames
  return {
    version := ← (← fields.lookup "version").natBelow? Number.limit32
    fingerprint := ← (← fields.lookup "fingerprint").text?
    format := ← format? (← fields.lookup "format")
    arch := ← (← fields.lookup "arch").text?
    entries := ← (← fields.lookup "entries").textTable?
    constants := ← (← fields.lookup "constants").textTable?
    imageSize := ← (← fields.lookup "image_len").natBelow? Number.limit64
    imageDigest := ← (← fields.lookup "image_sha256").text? }

def read? (bs : Bytes) : Option Manifest := (Json.read? bs).bind ofValue?

end Manifest
end KernelDepot
