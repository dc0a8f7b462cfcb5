/-
The fields of a preimage can be told apart.

A preimage is the encoding of a list of records, each a tag with a value, and the
theorem this file exists for is `encode_injective`: two lists of records with the same
encoding are equal.  Every length is written in eight bytes, so the statement is about
records of fewer than `2 ^ 64` bytes, which is all that an address can reach.

The sizes of the lists are written in four bytes only and a longer list wraps around.
Nothing here depends on them: the items of a list are the records of one tag in a row,
and `append_inj_of_head` separates them from what follows by the tag alone.
-/
import KernelDepot.Fingerprint.Preimage
import Mathlib.Algebra.Group.Nat.Defs

namespace KernelDepot
namespace Preimage

abbrev Record := String × Bytes

def encode (records : List Record) : Bytes := records.flatMap fun r => field r.1 r.2

/-- A record whose lengths can be written in eight bytes. -/
def Record.Fits (r : Record) : Prop := (Text.bytes r.1).length < 2 ^ 64 ∧ r.2.length < 2 ^ 64

@[simp] theorem encode_nil : encode [] = [] := rfl

@[simp] theorem encode_cons (r : Record) (rest : List Record) :
    encode (r :: rest) = field r.1 r.2 ++ encode rest := rfl

@[simp] theorem encode_append (a b : List Record) : encode (a ++ b) = encode a ++ encode b :=
  List.flatMap_append

/-! ## Numbers of a fixed width -/

theorem length_littleEndian (count n : Nat) : (littleEndian count n).length = count := by
  simp [littleEndian]

/-- The bytes of a number are its remainder by 256 and the bytes of the quotient. -/
theorem littleEndian_succ (count n : Nat) :
    littleEndian (count + 1) n = UInt8.ofNat n :: littleEndian count (n / 256) := by
  have htail (i : Nat) : n >>> (8 * (i + 1)) = (n / 256) >>> (8 * i) := by
    rw [Nat.mul_add, Nat.add_comm, Nat.shiftRight_add, Nat.shiftRight_eq_div_pow n]
  unfold littleEndian
  rw [List.range_succ_eq_map, List.map_cons, List.map_map, Nat.mul_zero, Nat.shiftRight_zero]
  refine congrArg _ (List.map_congr_left fun i _ => ?_)
  exact congrArg UInt8.ofNat (htail i)

theorem littleEndian_injective {count a b : Nat} (ha : a < 256 ^ count) (hb : b < 256 ^ count)
    (h : littleEndian count a = littleEndian count b) : a = b := by
  induction count generalizing a b with
  | zero => simp only [Nat.pow_zero] at ha hb; omega
  | succ count ih =>
    rw [littleEndian_succ, littleEndian_succ] at h
    obtain ⟨hhead, htail⟩ := List.cons.inj h
    have hmod : a % 256 = b % 256 := by simpa using congrArg UInt8.toNat hhead
    rw [Nat.pow_succ] at ha hb
    have hdiv : a / 256 = b / 256 :=
      ih (Nat.div_lt_of_lt_mul (by omega)) (Nat.div_lt_of_lt_mul (by omega)) htail
    omega

/-! ## Unique decoding -/

/-- A value after its length is separated from whatever follows. -/
theorem sized_append_inj {u v r s : Bytes} (hu : u.length < 2 ^ 64) (hv : v.length < 2 ^ 64)
    (h : littleEndian 8 u.length ++ (u ++ r) = littleEndian 8 v.length ++ (v ++ s)) :
    u = v ∧ r = s := by
  obtain ⟨hsize, hrest⟩ := List.append_inj h (by simp only [length_littleEndian])
  have hlen : u.length = v.length :=
    littleEndian_injective (by simpa using hu) (by simpa using hv) hsize
  exact List.append_inj hrest hlen

/-- A record is separated from whatever follows. -/
theorem field_append_inj {a b : Record} {r s : Bytes} (ha : Record.Fits a) (hb : Record.Fits b)
    (h : field a.1 a.2 ++ r = field b.1 b.2 ++ s) : a = b ∧ r = s := by
  simp only [field, List.append_assoc] at h
  obtain ⟨htag, h⟩ := sized_append_inj ha.1 hb.1 h
  obtain ⟨hvalue, h⟩ := sized_append_inj ha.2 hb.2 h
  exact ⟨Prod.ext (Text.bytes_injective htag) hvalue, h⟩

theorem field_ne_nil (tag : String) (value : Bytes) : field tag value ≠ [] := by
  intro h
  have hlen := congrArg List.length h
  simp only [field, List.length_append, length_littleEndian, List.length_nil] at hlen
  omega

/-- Two lists of records with the same encoding are equal. -/
theorem encode_injective {a b : List Record} (ha : ∀ r ∈ a, Record.Fits r)
    (hb : ∀ r ∈ b, Record.Fits r) (h : encode a = encode b) : a = b := by
  induction a generalizing b with
  | nil =>
    cases b with
    | nil => rfl
    | cons r b =>
      rw [encode_nil, encode_cons] at h
      exact absurd (List.append_eq_nil_iff.mp h.symm).1 (field_ne_nil _ _)
  | cons q a ih =>
    cases b with
    | nil =>
      rw [encode_nil, encode_cons] at h
      exact absurd (List.append_eq_nil_iff.mp h).1 (field_ne_nil _ _)
    | cons r b =>
      rw [encode_cons, encode_cons] at h
      obtain ⟨hhead, htail⟩ :=
        field_append_inj (ha q List.mem_cons_self) (hb r List.mem_cons_self) h
      rw [hhead, ih (fun x hx => ha x (List.mem_cons_of_mem _ hx))
        (fun x hx => hb x (List.mem_cons_of_mem _ hx)) htail]

/-- Where the records of one kind end is seen from the first record of another kind. -/
theorem append_inj_of_head {p : Record → Prop} {a b r s : List Record} (ha : ∀ x ∈ a, p x)
    (hb : ∀ x ∈ b, p x) (hr : ∀ x ∈ r.head?, ¬ p x) (hs : ∀ x ∈ s.head?, ¬ p x)
    (h : a ++ r = b ++ s) : a = b ∧ r = s := by
  induction a generalizing b with
  | nil =>
    cases b with
    | nil => exact ⟨rfl, h⟩
    | cons y b =>
      have hy : r.head? = some y := by rw [← List.nil_append r, h]; rfl
      exact absurd (hb y List.mem_cons_self) (hr y hy)
  | cons x a ih =>
    cases b with
    | nil =>
      have hx : s.head? = some x := by rw [← List.nil_append s, ← h]; rfl
      exact absurd (ha x List.mem_cons_self) (hs x hx)
    | cons y b =>
      obtain ⟨hhead, htail⟩ := List.cons.inj h
      obtain ⟨hab, hrs⟩ := ih (fun z hz => ha z (List.mem_cons_of_mem _ hz))
        (fun z hz => hb z (List.mem_cons_of_mem _ hz)) htail
      exact ⟨by rw [hhead, hab], hrs⟩

end Preimage
end KernelDepot
