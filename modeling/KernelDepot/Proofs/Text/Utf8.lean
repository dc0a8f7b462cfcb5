/-
Reading back the encoding of a text.

The reader goes through the bytes of one character and then stands between characters
again: `decodeFrom_encodeChar`.  The four lengths of an encoding are four cases, and in each
of them the bytes after the first are followed by `decodeFrom_next` and `decodeFrom_last`.
-/
import KernelDepot.Text.Utf8

namespace KernelDepot
namespace Text

theorem bytes_ofList (cs : List Char) :
    bytes (String.ofList cs) = cs.flatMap String.utf8EncodeChar := by
  rw [bytes, String.toByteArray_ofList, List.utf8Encode, List.data_toByteArray]

theorem length_bytes_append (a b : String) :
    (bytes (a ++ b)).length = (bytes a).length + (bytes b).length := by
  simp [bytes, String.toByteArray_append]

theorem length_bytes_le (s : String) : (bytes s).length ≤ 4 * s.length := by
  have hlist (cs : List Char) : (bytes (String.ofList cs)).length ≤ 4 * cs.length := by
    rw [bytes_ofList]
    induction cs with
    | nil => exact Nat.le_refl 0
    | cons c cs ih =>
      have hchar : (String.utf8EncodeChar c).length ≤ 4 := by
        rw [String.length_utf8EncodeChar]
        exact c.utf8Size_le_four
      rw [List.flatMap_cons, List.length_append, List.length_cons]
      omega
  have hs := hlist s.toList
  rwa [String.ofList_toList, String.length_toList] at hs

/-- A text whose characters are a byte each, and none is zero. -/
def IsAscii (s : String) : Prop := ∀ c ∈ s.toList, c.toNat ≠ 0 ∧ c.toNat < 128

instance (s : String) : Decidable (IsAscii s) :=
  List.decidableBAll (fun c : Char => c.toNat ≠ 0 ∧ c.toNat < 128) s.toList

theorem isAscii_append {a b : String} : IsAscii (a ++ b) ↔ IsAscii a ∧ IsAscii b := by
  unfold IsAscii
  rw [String.toList_append]
  exact List.forall_mem_append

theorem IsAscii.length_bytes {s : String} (h : IsAscii s) : (bytes s).length = s.length := by
  have hlist (cs : List Char) (h : ∀ c ∈ cs, c.toNat < 128) :
      (bytes (String.ofList cs)).length = cs.length := by
    rw [bytes_ofList]
    induction cs with
    | nil => rfl
    | cons c cs ih =>
      obtain ⟨hc, hcs⟩ := List.forall_mem_cons.mp h
      have hsize : (String.utf8EncodeChar c).length = 1 := by
        rw [String.length_utf8EncodeChar, Char.utf8Size, if_pos]
        exact UInt32.le_iff_toNat_le.mpr (Nat.le_of_lt_succ hc)
      rw [List.flatMap_cons, List.length_append, List.length_cons, hsize, ih hcs, Nat.add_comm]
  have hs := hlist s.toList fun c hc => (h c hc).2
  rwa [String.ofList_toList, String.length_toList] at hs

namespace Utf8

theorem decodeFrom_next {state : Partial} {b : UInt8} {rest : Bytes}
    (hlow : state.low ≤ b.toNat) (hhigh : b.toNat ≤ state.high) (howed : 1 < state.owed) :
    decodeFrom (some state) (b :: rest) =
      decodeFrom (some ⟨state.owed - 1, state.bits * 64 + (b.toNat - 0x80), 0x80, 0xBF⟩) rest := by
  simp only [decodeFrom]
  rw [if_pos ⟨hlow, hhigh⟩, if_neg (Nat.not_le.mpr howed)]

theorem decodeFrom_last {state : Partial} {b : UInt8} {rest : Bytes}
    (hlow : state.low ≤ b.toNat) (hhigh : b.toNat ≤ state.high) (howed : state.owed ≤ 1) :
    decodeFrom (some state) (b :: rest) =
      some (Char.ofNat (state.bits * 64 + (b.toNat - 0x80))) :: decodeFrom none rest := by
  simp only [decodeFrom]
  rw [if_pos ⟨hlow, hhigh⟩, if_pos howed]

theorem decodeFrom_lead {state : Partial} {b : UInt8} {rest : Bytes} (h : lead b = .lead state) :
    decodeFrom none (b :: rest) = decodeFrom (some state) rest := by
  simp only [decodeFrom, h]

theorem decodeFrom_single {c : Char} {b : UInt8} {rest : Bytes} (h : lead b = .single c) :
    decodeFrom none (b :: rest) = some c :: decodeFrom none rest := by
  simp only [decodeFrom, h]

theorem toNat_ofNat {n : Nat} (h : n < 256) : (UInt8.ofNat n).toNat = n := by
  rw [UInt8.toNat_ofNat']
  exact Nat.mod_eq_of_lt h

/-- The lead byte of a character of two bytes. -/
theorem lead_two {b : UInt8} (hlow : 0xC2 ≤ b.toNat) (hhigh : b.toNat < 0xE0) :
    lead b = .lead ⟨1, b.toNat - 0xC0, 0x80, 0xBF⟩ := by
  simp only [lead]
  rw [if_neg (by omega), if_neg (by omega), if_pos hhigh]

/-- The lead byte of a character of three bytes narrows the range of the next byte where the
first bits are the least, and where they are those of a surrogate. -/
theorem lead_three {b : UInt8} (hlow : 0xE0 ≤ b.toNat) (hhigh : b.toNat < 0xF0) :
    lead b = .lead ⟨2, b.toNat - 0xE0, if b.toNat = 0xE0 then 0xA0 else 0x80,
      if b.toNat = 0xED then 0x9F else 0xBF⟩ := by
  simp only [lead]
  rw [if_neg (by omega), if_neg (by omega), if_neg (by omega)]
  by_cases hleast : b.toNat = 0xE0
  · rw [if_pos hleast, if_pos hleast, if_neg (by omega), hleast]
  · rw [if_neg hleast, if_neg hleast]
    by_cases hsurrogate : b.toNat = 0xED
    · rw [if_pos hsurrogate, if_pos hsurrogate, hsurrogate]
    · rw [if_neg hsurrogate, if_neg hsurrogate, if_pos hhigh]

/-- The lead byte of a character of four bytes narrows the range of the next byte at both
ends of the range of characters. -/
theorem lead_four {b : UInt8} (hlow : 0xF0 ≤ b.toNat) (hhigh : b.toNat ≤ 0xF4) :
    lead b = .lead ⟨3, b.toNat - 0xF0, if b.toNat = 0xF0 then 0x90 else 0x80,
      if b.toNat = 0xF4 then 0x8F else 0xBF⟩ := by
  simp only [lead]
  rw [if_neg (by omega), if_neg (by omega), if_neg (by omega), if_neg (by omega),
    if_neg (by omega), if_neg (by omega)]
  by_cases hleast : b.toNat = 0xF0
  · rw [if_pos hleast, if_pos hleast, if_neg (by omega), hleast]
  · rw [if_neg hleast, if_neg hleast]
    by_cases hlast : b.toNat = 0xF4
    · rw [if_neg (by omega), if_pos hlast, if_pos hlast, hlast]
    · rw [if_pos (by omega), if_neg hlast]

/-- The reader finds a character in its encoding and then stands behind it. -/
theorem decodeFrom_encodeChar (c : Char) (rest : Bytes) :
    decodeFrom none (String.utf8EncodeChar c ++ rest) = some c :: decodeFrom none rest := by
  have hvalid : c.toNat < 0xD800 ∨ 0xDFFF < c.toNat ∧ c.toNat < 0x110000 := c.valid
  have hchar : Char.ofNat c.toNat = c := Char.ofNat_toNat c
  unfold String.utf8EncodeChar
  simp only [show c.val.toNat = c.toNat from rfl]
  generalize c.toNat = n at hvalid hchar ⊢
  have hlast : (UInt8.ofNat (n % 64 + 128)).toNat = n % 64 + 128 := toNat_ofNat (by omega)
  have hmiddle : (UInt8.ofNat (n / 64 % 64 + 128)).toNat = n / 64 % 64 + 128 :=
    toNat_ofNat (by omega)
  by_cases h₁ : n ≤ 127
  · have hb : (UInt8.ofNat n).toNat = n := toNat_ofNat (by omega)
    have hlead : lead (UInt8.ofNat n) = .single c := by
      simp only [lead, hb]
      rw [if_pos (by omega), hchar]
    rw [if_pos h₁, List.singleton_append, decodeFrom_single hlead]
  rw [if_neg h₁]
  by_cases h₂ : n ≤ 2047
  · have hb : (UInt8.ofNat (n / 64 % 32 + 192)).toNat = n / 64 % 32 + 192 := toNat_ofNat (by omega)
    have hn : (n / 64 % 32 + 192 - 0xC0) * 64 + (n % 64 + 128 - 0x80) = n := by omega
    rw [if_pos h₂, List.cons_append, List.cons_append, List.nil_append,
      decodeFrom_lead (lead_two (by omega) (by omega)), hb,
      decodeFrom_last (by simp only; omega) (by simp only; omega) (by simp only; omega), hlast, hn,
      hchar]
  rw [if_neg h₂]
  by_cases h₃ : n ≤ 65535
  · have hb : (UInt8.ofNat (n / 4096 % 16 + 224)).toNat = n / 4096 % 16 + 224 :=
      toNat_ofNat (by omega)
    have hn : ((n / 4096 % 16 + 224 - 0xE0) * 64 + (n / 64 % 64 + 128 - 0x80)) * 64 +
        (n % 64 + 128 - 0x80) = n := by omega
    rw [if_pos h₃, List.cons_append, List.cons_append, List.cons_append, List.nil_append,
      decodeFrom_lead (lead_three (by omega) (by omega)), hb,
      decodeFrom_next (by simp only; split <;> omega) (by simp only; split <;> omega)
        (by simp only; omega), hmiddle,
      decodeFrom_last (by simp only; omega) (by simp only; omega) (by simp only; omega), hlast, hn,
      hchar]
  · have hb : (UInt8.ofNat (n / 262144 % 8 + 240)).toNat = n / 262144 % 8 + 240 :=
      toNat_ofNat (by omega)
    have hb₂ : (UInt8.ofNat (n / 4096 % 64 + 128)).toNat = n / 4096 % 64 + 128 :=
      toNat_ofNat (by omega)
    have hn : (((n / 262144 % 8 + 240 - 0xF0) * 64 + (n / 4096 % 64 + 128 - 0x80)) * 64 +
        (n / 64 % 64 + 128 - 0x80)) * 64 + (n % 64 + 128 - 0x80) = n := by omega
    rw [if_neg h₃, List.cons_append, List.cons_append, List.cons_append, List.cons_append,
      List.nil_append, decodeFrom_lead (lead_four (by omega) (by omega)), hb,
      decodeFrom_next (by simp only; split <;> omega) (by simp only; split <;> omega)
        (by simp only; omega), hb₂,
      decodeFrom_next (by simp only; omega) (by simp only; omega) (by simp only; omega), hmiddle,
      decodeFrom_last (by simp only; omega) (by simp only; omega) (by simp only; omega), hlast, hn,
      hchar]

theorem decode_bytes (cs : List Char) : decode (bytes (String.ofList cs)) = cs.map some := by
  rw [bytes_ofList, decode]
  induction cs with
  | nil => rfl
  | cons c rest ih => rw [List.flatMap_cons, decodeFrom_encodeChar, ih, List.map_cons]

end Utf8
end Text
end KernelDepot
