/-
The files of a store have names of their own.

The manifests and the images of all fingerprints have different names, and the name of a
temporary file is none of these.  Two temporary files have different names if their tickets
differ.
-/
import KernelDepot.Artifact.Store
import KernelDepot.Proofs.Digest.Ordered
import KernelDepot.Proofs.Disk.Path
import KernelDepot.Proofs.Json.Written
import Mathlib.Data.List.TakeDrop

namespace KernelDepot

/-- What stands in front of the last point, and what stands behind it. -/
theorem append_point_inj {x y a b : List Char} (ha : '.' ∉ a) (hb : '.' ∉ b)
    (h : x ++ '.' :: a = y ++ '.' :: b) : x = y ∧ a = b := by
  induction x generalizing y with
  | nil =>
    cases y with
    | nil => exact ⟨rfl, (List.cons.inj h).2⟩
    | cons c y =>
      refine absurd ?_ ha
      rw [(List.cons.inj h).2]
      exact List.mem_append_right _ List.mem_cons_self
  | cons c x ih =>
    cases y with
    | nil =>
      refine absurd ?_ hb
      rw [← (List.cons.inj h).2]
      exact List.mem_append_right _ List.mem_cons_self
    | cons d y =>
      obtain ⟨hc, hrest⟩ := List.cons.inj h
      obtain ⟨hxy, hab⟩ := ih hrest
      exact ⟨by rw [hc, hxy], hab⟩

namespace Number

theorem decimal_injective {m n : Nat} (h : decimal m = decimal n) : m = n := by
  rw [← Json.digitsValue_decimal m, ← Json.digitsValue_decimal n, h]

end Number

namespace ArtifactStore

/-- A ticket can be told from the name of its temporary file. -/
theorem temporaryName_inj {m n : String} {s t : Ticket}
    (h : temporaryName m s = temporaryName n t) : s = t := by
  have hlist (name : String) (u : Ticket) : (temporaryName name u).toList =
      (('.' :: name.toList ++ '.' :: Number.decimal u.process) ++ '.' :: Number.decimal u.serial) ++
        '.' :: ['t', 'm', 'p'] := by
    simp [temporaryName, Ticket.text, Number.decimalText]
  have htmp : '.' ∉ ['t', 'm', 'p'] := by decide
  have hnumber (n : Nat) : '.' ∉ Number.decimal n := Json.not_mem_decimal (by decide) n
  have h₁ := congrArg String.toList h
  rw [hlist, hlist] at h₁
  obtain ⟨h₂, -⟩ := append_point_inj htmp htmp h₁
  obtain ⟨h₃, hserial⟩ := append_point_inj (hnumber _) (hnumber _) h₂
  obtain ⟨-, hprocess⟩ := append_point_inj (hnumber _) (hnumber _) h₃
  cases s
  cases t
  exact (Ticket.mk.injEq ..).mpr
    ⟨Number.decimal_injective hprocess, Number.decimal_injective hserial⟩

/-- A name that starts with a fingerprint says which one. -/
theorem hex_append_inj {f g : Fingerprint} {s t : String} (h : f.hex ++ s = g.hex ++ t) :
    f = g ∧ s = t := by
  have hlist (f : Fingerprint) (s : String) : (f.hex ++ s).toList = f.digits ++ s.toList := by
    simp [Fingerprint.hex]
  have happend := congrArg String.toList h
  rw [hlist, hlist] at happend
  obtain ⟨hdigits, hrest⟩ := List.append_inj happend (by rw [f.length_digits, g.length_digits])
  exact ⟨Fingerprint.digits_injective hdigits, String.toList_inj.mp hrest⟩

theorem manifestName_inj {f g : Fingerprint} (h : manifestName f = manifestName g) : f = g :=
  (hex_append_inj h).1

theorem imageName_eq (f : Fingerprint) (format : ImageFormat) :
    imageName f format = f.hex ++ ("." ++ format.extension) :=
  String.append_assoc ..

theorem imageName_inj {f g : Fingerprint} {a b : ImageFormat} (h : imageName f a = imageName g b) :
    f = g ∧ a = b := by
  rw [imageName_eq, imageName_eq] at h
  obtain ⟨hf, hformat⟩ := hex_append_inj h
  exact ⟨hf, by cases a <;> cases b <;> first | rfl | exact absurd hformat (by decide)⟩

theorem imageName_ne_manifestName (f g : Fingerprint) (format : ImageFormat) :
    imageName f format ≠ manifestName g := by
  rw [imageName_eq]
  intro h
  have hrest := (hex_append_inj h).2
  cases format <;> exact absurd hrest (by decide)

/-- A temporary file is neither a manifest nor an image: no fingerprint starts with a point. -/
theorem temporaryName_ne_hex_append (name : String) (t : Ticket) (f : Fingerprint) (s : String) :
    temporaryName name t ≠ f.hex ++ s := by
  intro h
  have hhead := congrArg (fun name => name.toList.head?) h
  obtain ⟨bytes, hlength⟩ := f
  cases bytes with
  | nil => exact absurd hlength (by decide)
  | cons b rest =>
    have hdigit : ∀ n < 16, Hex.digit n ≠ '.' := by decide
    have hb := b.toNat_lt
    refine hdigit (b.toNat / 16) (by omega) ?_
    simpa [temporaryName, Fingerprint.hex, Fingerprint.digits, Hex.encode, Hex.byteDigits,
      eq_comm] using hhead

/-- Whether a name is not that of a temporary file. -/
def IsLasting (name : String) : Prop := ∀ other t, name ≠ temporaryName other t

theorem isLasting_manifestName (f : Fingerprint) : IsLasting (manifestName f) :=
  fun other t h => temporaryName_ne_hex_append other t f _ h.symm

theorem isLasting_imageName (f : Fingerprint) (format : ImageFormat) :
    IsLasting (imageName f format) := fun other t h =>
  temporaryName_ne_hex_append other t f _ (h.symm.trans (imageName_eq f format))

theorem mem_namesOf {f : Fingerprint} {name : String} :
    name ∈ namesOf f ↔ name = manifestName f ∨ ∃ format, name = imageName f format := by
  unfold namesOf
  rw [List.mem_append, List.mem_map, List.mem_singleton, or_comm]
  refine or_congr_right ⟨?_, ?_⟩
  · rintro ⟨format, -, rfl⟩
    exact ⟨format, rfl⟩
  · rintro ⟨format, rfl⟩
    exact ⟨format, by cases format <;> decide, rfl⟩

theorem isLasting_of_mem_namesOf {f : Fingerprint} {name : String} (h : name ∈ namesOf f) :
    IsLasting name := by
  rcases mem_namesOf.mp h with rfl | ⟨format, rfl⟩
  · exact isLasting_manifestName f
  · exact isLasting_imageName f format

/-! ## Plain names

All files of a store are in its directory, the temporary ones too. -/

theorem exists_extension {f : Fingerprint} {name : String} (h : name ∈ namesOf f) :
    ∃ ext ∈ [".json", ".ptx", ".cubin"], name = f.hex ++ ext := by
  rcases mem_namesOf.mp h with rfl | ⟨format, rfl⟩
  · exact ⟨".json", by decide, rfl⟩
  · exact ⟨"." ++ format.extension, by cases format <;> decide, imageName_eq f format⟩

theorem exists_eq_hex_append {f : Fingerprint} {name : String} (h : name ∈ namesOf f) :
    ∃ ext : String, name = f.hex ++ ext ∧ '/' ∉ ext.toList := by
  have hslash : ∀ ext ∈ [".json", ".ptx", ".cubin"], '/' ∉ ext.toList := by decide
  obtain ⟨ext, hext, rfl⟩ := exists_extension h
  exact ⟨ext, rfl, hslash ext hext⟩

theorem slash_not_mem_hex (f : Fingerprint) : '/' ∉ f.hex.toList := by
  rw [Fingerprint.hex, String.toList_ofList]
  exact fun hmem => absurd (Hex.isDigit_of_mem_encode hmem) (by decide)

theorem length_hex (f : Fingerprint) : f.hex.length = 64 := by
  rw [Fingerprint.hex, String.length_ofList, f.length_digits]

theorem isPlain_of_mem_namesOf {f : Fingerprint} {name : String} (h : name ∈ namesOf f) :
    Path.IsPlain name := by
  obtain ⟨ext, rfl, hext⟩ := exists_eq_hex_append h
  refine Path.isPlain_of_length ?_ ?_
  · rw [String.length_append, length_hex]
    omega
  · rw [String.toList_append, List.mem_append, not_or]
    exact ⟨slash_not_mem_hex f, hext⟩

theorem isPlain_manifestName (f : Fingerprint) : Path.IsPlain (manifestName f) :=
  isPlain_of_mem_namesOf (mem_namesOf.mpr (.inl rfl))

theorem isPlain_imageName (f : Fingerprint) (format : ImageFormat) :
    Path.IsPlain (imageName f format) :=
  isPlain_of_mem_namesOf (mem_namesOf.mpr (.inr ⟨format, rfl⟩))

theorem isPlain_temporaryName {f : Fingerprint} {name : String} (h : name ∈ namesOf f)
    (t : Ticket) : Path.IsPlain (temporaryName name t) := by
  have hname := (isPlain_of_mem_namesOf h).slash_not_mem
  have hnumber (n : Nat) : '/' ∉ Number.decimal n := Json.not_mem_decimal (by decide) n
  refine Path.isPlain_of_length ?_ ?_
  · simp only [temporaryName, String.length_append]
    have htmp : ".tmp".length = 4 := rfl
    omega
  · simp [temporaryName, Ticket.text, Number.decimalText, hname, hnumber]

/-! ## Extensions -/

theorem extensionOfName?_append {front ext : List Char} (hfront : front ≠ []) (hext : '.' ∉ ext) :
    Path.extensionOfName? (String.ofList (front ++ '.' :: ext)) = some (String.ofList ext) := by
  have hrest : ∀ c ∈ ext.reverse, decide (c ≠ '.') = true := fun c hc =>
    decide_eq_true fun heq => hext (heq ▸ List.mem_reverse.mp hc)
  have hspan : (ext.reverse ++ '.' :: front.reverse).span (· ≠ '.') =
      (ext.reverse, '.' :: front.reverse) := by
    rw [List.span_eq_takeWhile_dropWhile, List.takeWhile_append_of_pos hrest,
      List.dropWhile_append_of_pos hrest]
    simp
  unfold Path.extensionOfName?
  rw [String.toList_ofList, List.reverse_append, List.reverse_cons, List.append_assoc,
    List.singleton_append, hspan]
  simp [hfront]

theorem extensionOfName?_hex_append (f : Fingerprint) {ext : String} (hext : '.' ∉ ext.toList) :
    Path.extensionOfName? (f.hex ++ ("." ++ ext)) = some ext := by
  have hdigits : f.digits ≠ [] := by
    intro h
    have hlength := f.length_digits
    rw [h] at hlength
    exact absurd hlength (by decide)
  have hname : f.hex ++ ("." ++ ext) = String.ofList (f.digits ++ '.' :: ext.toList) := by
    apply String.toList_inj.mp
    simp [Fingerprint.hex]
  rw [hname, extensionOfName?_append hdigits hext, String.ofList_toList]

theorem isImageName_imageName (f : Fingerprint) (format : ImageFormat) :
    isImageName (imageName f format) = true := by
  unfold isImageName
  rw [imageName_eq, extensionOfName?_hex_append f (by cases format <;> decide)]
  cases format <;> rfl

theorem isImageName_manifestName (f : Fingerprint) : isImageName (manifestName f) = false := by
  have hname : manifestName f = f.hex ++ ("." ++ "json") := rfl
  unfold isImageName
  rw [hname, extensionOfName?_hex_append f (by decide)]
  rfl

theorem isImageName_temporaryName (name : String) (t : Ticket) :
    isImageName (temporaryName name t) = false := by
  have hname : temporaryName name t =
      String.ofList (("." ++ name ++ "." ++ t.text).toList ++ '.' :: ['t', 'm', 'p']) := by
    apply String.toList_inj.mp
    simp [temporaryName]
  unfold isImageName
  rw [hname, extensionOfName?_append (by simp) (by decide)]
  rfl

theorem isStoreName_imageName (f : Fingerprint) (format : ImageFormat) :
    isStoreName (imageName f format) = true := by
  unfold isStoreName
  rw [isImageName_imageName, Bool.true_or]

theorem isStoreName_manifestName (f : Fingerprint) : isStoreName (manifestName f) = true := by
  have hname : manifestName f = f.hex ++ ("." ++ "json") := rfl
  unfold isStoreName
  rw [isImageName_manifestName, hname, extensionOfName?_hex_append f (by decide)]
  rfl

end ArtifactStore
end KernelDepot
