/-
Bytes in hexadecimal.

Every byte is written as two lowercase digits.  Reading takes two characters at a
time and accepts either case; a plus sign may stand in front of a single digit.
-/
import KernelDepot.Text.Utf8
import KernelDepot.Number.Decimal

namespace KernelDepot
namespace Hex

def digit (n : Nat) : Char := if n < 10 then Char.ofNat (0x30 + n) else Char.ofNat (0x57 + n)

def byteDigits (b : UInt8) : List Char := [digit (b.toNat / 16), digit (b.toNat % 16)]

def encode (bs : Bytes) : List Char := bs.flatMap byteDigits

def byteOf (high low : Char) : Except Number.Fault UInt8 :=
  (Number.parseUnsigned 16 256 [high, low]).map UInt8.ofNat

/-- The bytes that pairs of characters stand for.  A single character at the end
is a numeral of its own. -/
def decode : List Char → Except Number.Fault Bytes
  | [] => .ok []
  | [c] => (Number.parseUnsigned 16 256 [c]).map fun n => [UInt8.ofNat n]
  | high :: low :: rest => do
    let b ← byteOf high low
    let bs ← decode rest
    return b :: bs

theorem length_encode (bs : Bytes) : (encode bs).length = 2 * bs.length := by
  induction bs with
  | nil => rfl
  | cons b rest ih =>
    simp only [encode, List.flatMap_cons, List.length_append, List.length_cons] at ih ⊢
    simp [byteDigits] at ih ⊢
    omega

/-- As many bytes are read as there are pairs of characters. -/
theorem length_decode {cs : List Char} {bs : Bytes} (h : decode cs = .ok bs) :
    bs.length = (cs.length + 1) / 2 := by
  fun_induction decode cs generalizing bs with
  | case1 =>
    simp only [Except.ok.injEq] at h
    simp [← h]
  | case2 c =>
    cases hp : Number.parseUnsigned 16 256 [c] <;> simp [hp, Except.map] at h
    simp [← h]
  | case3 high low rest ih =>
    cases hb : byteOf high low with
    | error e => simp [hb, bind, Except.bind] at h
    | ok b =>
      cases hr : decode rest with
      | error e => simp [hb, hr, bind, Except.bind] at h
      | ok bs' =>
        simp only [hb, hr, bind, Except.bind, pure, Except.pure, Except.ok.injEq] at h
        have := ih hr
        simp only [← h, List.length_cons, this]
        omega

end Hex
end KernelDepot
