/-
A manifest is read back from what was written of it.

`read?_write` says so of every manifest whose numbers fit into their fields.
-/
import KernelDepot.Artifact.Manifest
import KernelDepot.Proofs.Json.Written
import KernelDepot.Proofs.NameTable

namespace KernelDepot

namespace Json
namespace Value

theorem natBelow?_of_lt {limit n : Nat} (h : n < limit) :
    natBelow? limit (.number (.integer n)) = some n :=
  if_pos h

theorem lt_of_natBelow? {limit n m : Nat} (h : natBelow? limit (.number (.integer n)) = some m) :
    n < limit :=
  Decidable.byContradiction fun hn => nomatch h.symm.trans (if_neg hn)

def ofTable (t : NameTable String) : Value :=
  .object (t.entries.map fun e => (some e.1, .text (some e.2)))

/-- Reading pairs one by one gives them back if each is read back. -/
theorem mapM_pairs {read : Option String × Value → Option (String × String)}
    (hread : ∀ name text, read (some name, .text (some text)) = some (name, text))
    (entries : List (String × String)) :
    (entries.map fun e => ((some e.1, .text (some e.2)) : Option String × Value)).mapM read =
      some entries := by
  induction entries with
  | nil => rfl
  | cons e rest ih =>
    rw [List.map_cons, List.mapM_cons, ih, hread]
    rfl

theorem textTable?_ofTable (t : NameTable String) : textTable? (ofTable t) = some t := by
  rw [ofTable, textTable?, mapM_pairs fun _ _ => rfl]
  exact congrArg some (NameTable.ofList_entries t)

end Value
end Json

namespace Manifest

open Json

/-- The fields of a manifest as JSON values. -/
def fields (m : Manifest) : List (String × Value) := [
  ("version", .number (.integer m.version)),
  ("fingerprint", .text (some m.fingerprint)),
  ("format", .text (some m.format.extension)),
  ("arch", .text (some m.arch)),
  ("entries", .ofTable m.entries),
  ("constants", .ofTable m.constants),
  ("image_len", .number (.integer m.imageSize)),
  ("image_sha256", .text (some m.imageDigest))]

def value (m : Manifest) : Value := .object (m.fields.map fun field => (some field.1, field.2))

theorem reads_chars (m : Manifest) : Reads m.chars m.value :=
  reads_object (
    .cons ⟨rfl, reads_decimal _⟩ <| .cons ⟨rfl, reads_quote _⟩ <| .cons ⟨rfl, reads_quote _⟩ <|
    .cons ⟨rfl, reads_quote _⟩ <| .cons ⟨rfl, reads_textObject _ _⟩ <|
    .cons ⟨rfl, reads_textObject _ _⟩ <| .cons ⟨rfl, reads_decimal _⟩ <|
    .cons ⟨rfl, reads_quote _⟩ .nil)

theorem format?_extension (f : ImageFormat) : format? (.text (some f.extension)) = some f :=
  ImageFormat.ofName?_extension f

theorem record?_value (m : Manifest) : m.value.record? fieldNames = some m.fields := rfl

theorem bind_eq_some {α β : Type} {x : Option α} {a : α} {next : α → Option β} {b : β}
    (hx : x = some a) (hnext : next a = some b) : (x >>= next) = some b := by
  rw [hx]
  exact hnext

theorem ofValue?_value {m : Manifest} (hversion : m.version < Number.limit32)
    (hsize : m.imageSize < Number.limit64) : ofValue? m.value = some m := by
  refine bind_eq_some m.record?_value ?_
  refine bind_eq_some rfl (bind_eq_some (Value.natBelow?_of_lt hversion) ?_)
  refine bind_eq_some rfl (bind_eq_some rfl ?_)
  refine bind_eq_some rfl (bind_eq_some (format?_extension m.format) ?_)
  refine bind_eq_some rfl (bind_eq_some rfl ?_)
  refine bind_eq_some rfl (bind_eq_some (Value.textTable?_ofTable m.entries) ?_)
  refine bind_eq_some rfl (bind_eq_some (Value.textTable?_ofTable m.constants) ?_)
  refine bind_eq_some rfl (bind_eq_some (Value.natBelow?_of_lt hsize) ?_)
  exact bind_eq_some rfl (bind_eq_some rfl rfl)

theorem read?_write {m : Manifest} (hversion : m.version < Number.limit32)
    (hsize : m.imageSize < Number.limit64) : read? m.write = some m := by
  rw [read?, write, read?_bytes m.reads_chars, Option.bind_some, ofValue?_value hversion hsize]

theorem of_bind_eq_some {α β : Type} {x : Option α} {a : α} {next : α → Option β} {b : β}
    (h : (x >>= next) = some b) (hx : x = some a) : next a = some b := by
  rw [hx] at h
  exact h

/-- A manifest is read only if its numbers fit. -/
theorem lt_of_ofValue?_value {m m' : Manifest} (h : ofValue? m.value = some m') :
    m.version < Number.limit32 ∧ m.imageSize < Number.limit64 := by
  have h := of_bind_eq_some h m.record?_value
  have h := of_bind_eq_some h rfl
  obtain ⟨version, hversion, h⟩ := Option.bind_eq_some_iff.mp h
  have h := of_bind_eq_some h rfl
  have h := of_bind_eq_some h rfl
  have h := of_bind_eq_some h rfl
  have h := of_bind_eq_some h (format?_extension m.format)
  have h := of_bind_eq_some h rfl
  have h := of_bind_eq_some h rfl
  have h := of_bind_eq_some h rfl
  have h := of_bind_eq_some h (Value.textTable?_ofTable m.entries)
  have h := of_bind_eq_some h rfl
  have h := of_bind_eq_some h (Value.textTable?_ofTable m.constants)
  have h := of_bind_eq_some h rfl
  obtain ⟨size, hsize, -⟩ := Option.bind_eq_some_iff.mp h
  exact ⟨Value.lt_of_natBelow? hversion, Value.lt_of_natBelow? hsize⟩

/-- What is read of a written manifest is what was written, if anything is. -/
theorem eq_of_read?_write {m m' : Manifest} (h : read? m.write = some m') : m' = m := by
  have hread : read? m.write = ofValue? m.value := by
    rw [read?, write, read?_bytes m.reads_chars, Option.bind_some]
  rw [hread] at h
  obtain ⟨hversion, hsize⟩ := lt_of_ofValue?_value h
  exact (Option.some.inj ((ofValue?_value hversion hsize).symm.trans h)).symm

/-- The manifest of an artifact is read back. -/
theorem read?_write_ofArtifact (f : Fingerprint) {a : Artifact}
    (hsize : a.image.length < Number.limit64) :
    read? (ofArtifact f a).write = some (ofArtifact f a) :=
  read?_write (show Preimage.formatVersion < Number.limit32 by decide) hsize

end Manifest
end KernelDepot
