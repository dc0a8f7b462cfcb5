/-
Fingerprints in the order of their texts.

A greater digit is a greater character, and the two digits of a byte go from high to low.  So
bytes are in the order of their digits, and fingerprints in the order of their texts
(`hex_lt_hex_iff`).  A text is compared by its characters or by its bytes with the same result.
-/
import KernelDepot.Proofs.Digest.Spelled
import KernelDepot.Proofs.Text.Order

namespace KernelDepot

namespace Hex

theorem digit_lt_digit : ∀ n < 16, ∀ m < n, digit m < digit n := by decide

theorem isOrderedCode_byteDigits : IsOrderedCode byteDigits where
  ne_nil _ := List.cons_ne_nil _ _
  append_lt_append {a b} hab xs ys := by
    have hlt : a.toNat < b.toNat := UInt8.lt_iff_toNat_lt.mp hab
    have hb := b.toNat_lt
    refine List.cons_lt_cons_iff.mpr ?_
    by_cases hhigh : a.toNat / 16 = b.toNat / 16
    · have hlow : a.toNat % 16 < b.toNat % 16 := by omega
      refine .inr ⟨congrArg digit hhigh, List.cons_lt_cons_iff.mpr (.inl ?_)⟩
      exact digit_lt_digit _ (Nat.mod_lt _ (by decide)) _ hlow
    · exact .inl (digit_lt_digit _ (by omega) _ (by omega))

theorem isDigit_of_mem_encode {bs : Bytes} {c : Char} (h : c ∈ encode bs) : IsDigit c := by
  have hdigit : ∀ n < 16, IsDigit (digit n) := by decide
  obtain ⟨b, -, hb⟩ := List.mem_flatMap.mp h
  have hlt := b.toNat_lt
  rcases List.mem_pair.mp hb with rfl | rfl
  · exact hdigit _ (by omega)
  · exact hdigit _ (by omega)

theorem encode_lt_encode_iff {as bs : Bytes} : encode as < encode bs ↔ as < bs :=
  isOrderedCode_byteDigits.flatMap_lt_flatMap_iff

end Hex

namespace Fingerprint

variable {f g : Fingerprint}

theorem parse_hex (f : Fingerprint) : parse f.hex = .ok f := by
  have hdigits : f.hex.toList = Hex.encode f.bytes := String.toList_ofList
  refine parse_eq_ok_iff_decode.mpr ⟨?_, fun c hc => ?_, ?_⟩
  · rw [hdigits]
    exact f.length_digits
  · rw [hdigits] at hc
    exact (Hex.isDigit_of_mem_encode hc).toNat_lt
  · rw [hdigits, Hex.decode_encode]

theorem hex_lt_hex_iff : f.hex < g.hex ↔ f.bytes < g.bytes := by
  rw [String.lt_iff, hex, hex, String.toList_ofList, String.toList_ofList]
  exact Hex.encode_lt_encode_iff

theorem le_iff : f.le g ↔ f.hex ≤ g.hex := by
  have hle : f.hex ≤ g.hex ↔ ¬ g.hex < f.hex := Iff.rfl
  rw [hle, hex_lt_hex_iff, List.not_lt, le, decide_eq_true_iff]

end Fingerprint
end KernelDepot
