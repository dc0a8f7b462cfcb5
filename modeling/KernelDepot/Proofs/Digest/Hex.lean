/-
Bytes are read back from their hexadecimal digits.
-/
import KernelDepot.Fingerprint

namespace KernelDepot

namespace Hex

theorem digitValue?_digit : ∀ n < 16, Number.digitValue? 16 (digit n) = some n := by decide

theorem digit_ne_plus : ∀ n < 16, digit n ≠ '+' := by decide

theorem byteOf_digits (b : UInt8) :
    byteOf (digit (b.toNat / 16)) (digit (b.toNat % 16)) = .ok b := by
  have hb := b.toNat_lt
  have hhigh := digitValue?_digit (b.toNat / 16) (by omega)
  have hlow := digitValue?_digit (b.toNat % 16) (by omega)
  have hplus := digit_ne_plus (b.toNat / 16) (by omega)
  have hsum : b.toNat / 16 * 16 + b.toNat % 16 = b.toNat := by omega
  have hparse : Number.parseUnsigned 16 256 [digit (b.toNat / 16), digit (b.toNat % 16)] =
      .ok b.toNat := by
    rw [Number.parseUnsigned.eq_4 _ _ _ (by simp) (by simp) (fun _ h => hplus (List.cons.inj h).1)]
    simp only [Number.parseDigits, hhigh, hlow, Nat.zero_mul, Nat.zero_add, hsum]
    rw [if_pos (by omega), if_pos (by omega)]
  rw [byteOf, hparse]
  exact congrArg Except.ok UInt8.ofNat_toNat

theorem decode_encode (bs : Bytes) : decode (encode bs) = .ok bs := by
  induction bs with
  | nil => rfl
  | cons b rest ih =>
    have hencode : encode (b :: rest) =
        digit (b.toNat / 16) :: digit (b.toNat % 16) :: encode rest := rfl
    rw [hencode, decode, byteOf_digits, ih]
    rfl

theorem encode_injective : Function.Injective encode := fun bs cs h =>
  Except.ok.inj ((decode_encode bs).symm.trans ((congrArg decode h).trans (decode_encode cs)))

end Hex

namespace Fingerprint

theorem length_digits (f : Fingerprint) : f.digits.length = 64 := by
  rw [digits, Hex.length_encode, f.length_bytes]

theorem digits_injective {f g : Fingerprint} (h : f.digits = g.digits) : f = g := by
  have hbytes : f.bytes = g.bytes := Hex.encode_injective h
  cases f
  cases g
  exact (mk.injEq ..).mpr hbytes

end Fingerprint
end KernelDepot
