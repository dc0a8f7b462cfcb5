/-
Orders that a code keeps.

Letters are written one after the other, each by a code of its own.  If the codes of two letters
decide which of them is less, whatever is written behind them, then two rows of letters are in
the order of what is written for them: this is `IsOrderedCode.flatMap_lt_flatMap_iff`.  The
encoding of a character in UTF-8 is such a code, so texts are in the order of their bytes.
-/
import KernelDepot.Proofs.Text.Utf8

namespace KernelDepot

/-- A code in which a letter that is less stays less, whatever follows. -/
structure IsOrderedCode {α β : Type} [LT α] [LT β] (code : α → List β) : Prop where
  ne_nil : ∀ a, code a ≠ []
  append_lt_append : ∀ {a b}, a < b → ∀ xs ys, code a ++ xs < code b ++ ys

namespace IsOrderedCode

variable {α β : Type} [LT α] [LT β] {code : α → List β} {as bs : List α}

theorem flatMap_lt_flatMap (h : IsOrderedCode code) (hlt : as < bs) :
    as.flatMap code < bs.flatMap code := by
  induction hlt with
  | @nil b bs =>
    obtain ⟨x, xs, hcode⟩ := List.exists_cons_of_ne_nil (h.ne_nil b)
    rw [List.flatMap_nil, List.flatMap_cons, hcode]
    exact List.nil_lt_cons x _
  | rel hab =>
    rw [List.flatMap_cons, List.flatMap_cons]
    exact h.append_lt_append hab _ _
  | cons _ ih =>
    rw [List.flatMap_cons, List.flatMap_cons]
    exact List.append_left_lt ih

theorem flatMap_lt_flatMap_iff [Std.Trichotomous (α := List α) (· < ·)]
    [Std.Asymm (α := β) (· < ·)] (h : IsOrderedCode code) :
    as.flatMap code < bs.flatMap code ↔ as < bs := by
  refine ⟨fun hlt => ?_, h.flatMap_lt_flatMap⟩
  rcases Std.lt_trichotomy as bs with hless | rfl | hmore
  · exact hless
  · exact absurd hlt (List.lt_irrefl _)
  · exact absurd hlt (List.lt_asymm (h.flatMap_lt_flatMap hmore))

end IsOrderedCode

/-! ## Texts -/

namespace Text

namespace Utf8

variable {m n : Nat} {xs ys : Bytes}

theorem cons_ofNat_lt_cons_ofNat_iff (hm : m < 256) (hn : n < 256) :
    UInt8.ofNat m :: xs < UInt8.ofNat n :: ys ↔ m < n ∨ m = n ∧ xs < ys := by
  rw [List.cons_lt_cons_iff, UInt8.lt_iff_toNat_lt, ← UInt8.toNat_inj, toNat_ofNat hm,
    toNat_ofNat hn]

/-- The last six bits of two numbers, each in a byte of its own, decide where the bits before
them do not. -/
theorem cons_lt_cons_of_lt (h : m < n ∨ m = n ∧ xs < ys) : m / 64 < n / 64 ∨ m / 64 = n / 64 ∧
    UInt8.ofNat (m % 64 + 128) :: xs < UInt8.ofNat (n % 64 + 128) :: ys := by
  rw [cons_ofNat_lt_cons_ofNat_iff (by omega) (by omega)]
  rcases h with h | ⟨rfl, h⟩
  · omega
  · exact .inr ⟨rfl, .inr ⟨rfl, h⟩⟩

/-- Two characters of two bytes. -/
theorem lt_two (h : m < n) (hn : n < 0x800) :
    UInt8.ofNat (m / 64 % 32 + 192) :: UInt8.ofNat (m % 64 + 128) :: xs <
      UInt8.ofNat (n / 64 % 32 + 192) :: UInt8.ofNat (n % 64 + 128) :: ys := by
  refine (cons_ofNat_lt_cons_ofNat_iff (by omega) (by omega)).mpr ?_
  exact (cons_lt_cons_of_lt (.inl h)).imp (by omega) (And.imp_left (by omega))

/-- Two characters of three bytes. -/
theorem lt_three (h : m < n) (hn : n < 0x10000) :
    UInt8.ofNat (m / 4096 % 16 + 224) :: UInt8.ofNat (m / 64 % 64 + 128) ::
        UInt8.ofNat (m % 64 + 128) :: xs <
      UInt8.ofNat (n / 4096 % 16 + 224) :: UInt8.ofNat (n / 64 % 64 + 128) ::
        UInt8.ofNat (n % 64 + 128) :: ys := by
  have hlead (k : Nat) : k / 4096 = k / 64 / 64 := by omega
  rw [hlead, hlead]
  refine (cons_ofNat_lt_cons_ofNat_iff (by omega) (by omega)).mpr ?_
  exact (cons_lt_cons_of_lt (cons_lt_cons_of_lt (.inl h))).imp (by omega)
    (And.imp_left (by omega))

/-- Two characters of four bytes. -/
theorem lt_four (h : m < n) (hn : n < 0x110000) :
    UInt8.ofNat (m / 262144 % 8 + 240) :: UInt8.ofNat (m / 4096 % 64 + 128) ::
        UInt8.ofNat (m / 64 % 64 + 128) :: UInt8.ofNat (m % 64 + 128) :: xs <
      UInt8.ofNat (n / 262144 % 8 + 240) :: UInt8.ofNat (n / 4096 % 64 + 128) ::
        UInt8.ofNat (n / 64 % 64 + 128) :: UInt8.ofNat (n % 64 + 128) :: ys := by
  have hsecond (k : Nat) : k / 4096 = k / 64 / 64 := by omega
  have hlead (k : Nat) : k / 262144 = k / 64 / 64 / 64 := by omega
  rw [hsecond, hsecond, hlead, hlead]
  refine (cons_ofNat_lt_cons_ofNat_iff (by omega) (by omega)).mpr ?_
  exact (cons_lt_cons_of_lt (cons_lt_cons_of_lt (cons_lt_cons_of_lt (.inl h)))).imp (by omega)
    (And.imp_left (by omega))

/-- A character that is less has fewer bytes, and then a lesser lead byte, or as many, and then
the first that differs is less. -/
theorem encodeChar_append_lt {a b : Char} (hab : a < b) (xs ys : Bytes) :
    String.utf8EncodeChar a ++ xs < String.utf8EncodeChar b ++ ys := by
  have hab : a.toNat < b.toNat := hab
  have hvalid : b.toNat < 0xD800 ∨ 0xDFFF < b.toNat ∧ b.toNat < 0x110000 := b.valid
  unfold String.utf8EncodeChar
  simp only [show ∀ c : Char, c.val.toNat = c.toNat from fun _ => rfl]
  generalize a.toNat = m at hab ⊢
  generalize b.toNat = n at hab hvalid ⊢
  have hlead {k l : Nat} (xs ys : Bytes) (hkl : k < l) (hl : l < 256) :
      UInt8.ofNat k :: xs < UInt8.ofNat l :: ys :=
    (cons_ofNat_lt_cons_ofNat_iff (Nat.lt_trans hkl hl) hl).mpr (.inl hkl)
  -- In each case of the greater character the other one is shorter, or of the same length.
  by_cases hn₁ : n ≤ 127
  · rw [if_pos hn₁, if_pos (by omega)]
    exact hlead xs ys hab (by omega)
  rw [if_neg hn₁]
  by_cases hn₂ : n ≤ 2047
  · rw [if_pos hn₂]
    by_cases hm₁ : m ≤ 127
    · rw [if_pos hm₁]
      exact hlead _ _ (by omega) (by omega)
    · rw [if_neg hm₁, if_pos (by omega)]
      exact lt_two hab (by omega)
  rw [if_neg hn₂]
  by_cases hn₃ : n ≤ 65535
  · rw [if_pos hn₃]
    by_cases hm₂ : m ≤ 2047
    · split <;> exact hlead _ _ (by omega) (by omega)
    · rw [if_neg (by omega), if_neg hm₂, if_pos (by omega)]
      exact lt_three hab (by omega)
  · rw [if_neg hn₃]
    by_cases hm₃ : m ≤ 65535
    · split
      · exact hlead _ _ (by omega) (by omega)
      · split <;> exact hlead _ _ (by omega) (by omega)
    · rw [if_neg (by omega), if_neg (by omega), if_neg hm₃]
      exact lt_four hab (by omega)

theorem isOrderedCode_encodeChar : IsOrderedCode String.utf8EncodeChar where
  ne_nil c := by
    rw [ne_eq, ← List.length_eq_zero_iff, String.length_utf8EncodeChar]
    exact Nat.pos_iff_ne_zero.mp c.utf8Size_pos
  append_lt_append := encodeChar_append_lt

end Utf8

theorem bytes_lt_bytes_iff {s t : String} : bytes s < bytes t ↔ s < t := by
  have hbytes (s : String) : bytes s = s.toList.flatMap String.utf8EncodeChar := by
    rw [← bytes_ofList, String.ofList_toList]
  rw [hbytes, hbytes, Utf8.isOrderedCode_encodeChar.flatMap_lt_flatMap_iff]
  rfl

end Text
end KernelDepot
