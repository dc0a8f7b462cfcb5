/-
Numerals that are read back.

A number is written without a sign, so the reader of numerals goes straight to the digits.  What
it reads is below its limit, and a single digit is below the base.  Digits are read exactly if
their value is below the limit, and digits without a zero in front are those that their value is
written with.
-/
import KernelDepot.Proofs.Json.Written
import KernelDepot.Proofs.Text.Words
import Mathlib.Algebra.Group.Nat.Defs

namespace KernelDepot
namespace Number

theorem toNat_of_isDigit {c : Char} (h : c.isDigit = true) : 48 ≤ c.toNat ∧ c.toNat ≤ 57 := by
  simpa [Char.isDigit, UInt32.le_iff_toNat_le] using h

theorem isBlank_of_isDigit {c : Char} (h : c.isDigit = true) : Text.isBlank c = false := by
  have hrange := toNat_of_isDigit h
  simp [Text.isBlank]
  omega

theorem isWord_decimal (n : Nat) : Text.IsWord (decimal n) :=
  ⟨Json.decimal_ne_nil n, fun _ hc => isBlank_of_isDigit (Json.isDigit_of_mem_decimal hc)⟩

theorem length_decimal_le {n places : Nat} (h : n < 10 ^ (places + 1)) :
    (decimal n).length ≤ places + 1 := by
  induction places generalizing n with
  | zero =>
    have hdigit : n < 10 := h
    unfold decimal
    rw [if_pos hdigit]
    exact Nat.le_refl 1
  | succ places ih =>
    unfold decimal
    split
    · exact Nat.le_add_left 1 _
    · have hrest := ih (Nat.div_lt_of_lt_mul (by rwa [Nat.pow_succ'] at h))
      rw [List.length_append, List.length_singleton]
      omega

theorem parseUnsigned_cons_of_ne {base limit : Nat} {c : Char} (rest : List Char) (hc : c ≠ '+') :
    parseUnsigned base limit (c :: rest) = parseDigits base limit 0 (c :: rest) :=
  parseUnsigned.eq_4 base limit (c :: rest) (List.cons_ne_nil c rest)
    (fun heq => hc (List.cons.inj heq).1) fun _ heq => hc (List.cons.inj heq).1

theorem parseUnsigned_of_forall_isDigit {base limit : Nat} {cs : List Char} (hne : cs ≠ [])
    (h : ∀ c ∈ cs, c.isDigit = true) :
    parseUnsigned base limit cs = parseDigits base limit 0 cs := by
  cases cs with
  | nil => exact absurd rfl hne
  | cons c rest =>
    have hc : c ≠ '+' := by
      rintro rfl
      exact absurd (h '+' List.mem_cons_self) (by decide)
    exact parseUnsigned_cons_of_ne rest hc

theorem parseUnsigned_decimal {limit n : Nat} (h : n < limit) :
    parseUnsigned 10 limit (decimal n) = .ok n := by
  rw [parseUnsigned_of_forall_isDigit (Json.decimal_ne_nil n) fun _ => Json.isDigit_of_mem_decimal]
  exact parseDigits_decimal h

theorem parseDigits_lt {base limit acc n : Nat} {cs : List Char} (hacc : acc < limit)
    (h : parseDigits base limit acc cs = .ok n) : n < limit := by
  induction cs generalizing acc with
  | nil =>
    rw [← Except.ok.inj h]
    exact hacc
  | cons c rest ih =>
    rw [parseDigits] at h
    split at h
    · cases h
    · split at h
      next hlt => exact ih hlt h
      next => cases h

theorem parseUnsigned_lt {base limit n : Nat} {cs : List Char} (hlimit : 0 < limit)
    (h : parseUnsigned base limit cs = .ok n) : n < limit := by
  unfold parseUnsigned at h
  split at h
  · cases h
  · cases h
  · exact parseDigits_lt hlimit h
  · exact parseDigits_lt hlimit h

theorem isSome_of_parseDigits {base limit acc n : Nat} {cs : List Char}
    (h : parseDigits base limit acc cs = .ok n) :
    ∀ c ∈ cs, (digitValue? base c).isSome = true := by
  induction cs generalizing acc with
  | nil => exact fun c hc => absurd hc List.not_mem_nil
  | cons c rest ih =>
    rw [parseDigits] at h
    split at h
    · cases h
    · next d hd =>
      split at h
      · exact List.forall_mem_cons.mpr ⟨Option.isSome_of_eq_some hd, ih h⟩
      · cases h

/-- A numeral has nothing but digits and a sign. -/
theorem eq_plus_or_isSome_of_parseUnsigned {base limit n : Nat} {cs : List Char}
    (h : parseUnsigned base limit cs = .ok n) :
    ∀ c ∈ cs, c = '+' ∨ (digitValue? base c).isSome = true := by
  unfold parseUnsigned at h
  split at h
  · cases h
  · cases h
  · exact List.forall_mem_cons.mpr ⟨.inl rfl, fun c hc => .inr (isSome_of_parseDigits h c hc)⟩
  · exact fun c hc => .inr (isSome_of_parseDigits h c hc)

theorem parseUnsigned_singleton_lt {limit n : Nat} {c : Char} (hc : c.isDigit = true)
    (h : parseUnsigned 10 limit [c] = .ok n) : n < 10 := by
  have hdigit : ∀ d ∈ [c], d.isDigit = true := fun d hd => List.mem_singleton.mp hd ▸ hc
  rw [parseUnsigned_of_forall_isDigit (List.cons_ne_nil c []) hdigit, parseDigits] at h
  split at h
  · cases h
  · next d hd =>
    have hlt : d < 10 := of_decide_eq_true (Option.filter_eq_some_iff.mp hd).2
    split at h
    · have hvalue : 0 * 10 + d = n := Except.ok.inj h
      omega
    · cases h

/-! ## The value of digits -/

/-- The value of digits that follow digits of value `acc`. -/
def valueFrom (acc : Nat) (digits : List Char) : Nat :=
  digits.foldl (fun acc c => acc * 10 + (c.toNat - 0x30)) acc

theorem digitsValue_eq (digits : List Char) : Json.digitsValue digits = valueFrom 0 digits := rfl

theorem valueFrom_cons (acc : Nat) (c : Char) (rest : List Char) :
    valueFrom acc (c :: rest) = valueFrom (acc * 10 + (c.toNat - 0x30)) rest := by
  unfold valueFrom
  rw [List.foldl_cons]

theorem le_valueFrom (acc : Nat) (digits : List Char) : acc ≤ valueFrom acc digits := by
  induction digits generalizing acc with
  | nil => exact Nat.le_refl _
  | cons c rest ih =>
    rw [valueFrom_cons]
    exact Nat.le_trans (by omega) (ih _)

theorem digitValue?_of_isDigit {c : Char} (h : c.isDigit = true) :
    digitValue? 10 c = some (c.toNat - 0x30) := by
  have hrange := toNat_of_isDigit h
  unfold digitValue?
  simp only
  rw [if_pos hrange]
  refine Option.filter_eq_some_iff.mpr ⟨rfl, decide_eq_true ?_⟩
  omega

/-- The reader looks at the value after every digit, but the last value is the greatest. -/
theorem parseDigits_eq_ok_iff {limit acc n : Nat} {digits : List Char}
    (hdigits : ∀ c ∈ digits, c.isDigit = true) (hacc : acc < limit) :
    parseDigits 10 limit acc digits = .ok n ↔ valueFrom acc digits = n ∧ n < limit := by
  induction digits generalizing acc with
  | nil =>
    rw [parseDigits, Except.ok.injEq]
    exact ⟨fun h => ⟨h, h ▸ hacc⟩, And.left⟩
  | cons c rest ih =>
    obtain ⟨hc, hrest⟩ := List.forall_mem_cons.mp hdigits
    rw [parseDigits, digitValue?_of_isDigit hc, valueFrom_cons]
    simp only
    by_cases hlt : acc * 10 + (c.toNat - 0x30) < limit
    · rw [if_pos hlt]
      exact ih hrest hlt
    · rw [if_neg hlt]
      constructor
      · intro h
        cases h
      · rintro ⟨rfl, hn⟩
        exact absurd (Nat.lt_of_le_of_lt (le_valueFrom _ rest) hn) hlt

theorem parseUnsigned_eq_ok_iff {limit n : Nat} {digits : List Char} (hlimit : 0 < limit)
    (hne : digits ≠ []) (hdigits : ∀ c ∈ digits, c.isDigit = true) :
    parseUnsigned 10 limit digits = .ok n ↔ Json.digitsValue digits = n ∧ n < limit := by
  rw [parseUnsigned_of_forall_isDigit hne hdigits, digitsValue_eq]
  exact parseDigits_eq_ok_iff hdigits hlimit

theorem digitChar_of_isDigit {c : Char} (h : c.isDigit = true) :
    digitChar (c.toNat - 0x30) = c := by
  have hrange := toNat_of_isDigit h
  have hsum : 0x30 + (c.toNat - 0x30) = c.toNat := by omega
  rw [digitChar, hsum, Char.ofNat_toNat]

theorem decimal_append {acc : Nat} {digits : List Char} (hacc : 0 < acc)
    (hdigits : ∀ c ∈ digits, c.isDigit = true) :
    decimal acc ++ digits = decimal (valueFrom acc digits) := by
  induction digits generalizing acc with
  | nil => exact List.append_nil _
  | cons c rest ih =>
    obtain ⟨hc, hrest⟩ := List.forall_mem_cons.mp hdigits
    have hrange := toNat_of_isDigit hc
    have hfront : (acc * 10 + (c.toNat - 0x30)) / 10 = acc := by omega
    have hlast : (acc * 10 + (c.toNat - 0x30)) % 10 = c.toNat - 0x30 := by omega
    have hwritten : decimal (acc * 10 + (c.toNat - 0x30)) = decimal acc ++ [c] := by
      rw [decimal, if_neg (by omega), hfront, hlast, digitChar_of_isDigit hc]
    rw [valueFrom_cons, ← ih (by omega) hrest, hwritten, List.append_assoc, List.singleton_append]

/-- Digits without a zero in front are written for their value. -/
theorem decimal_digitsValue {c : Char} {rest : List Char} (hzero : c ≠ '0')
    (hdigits : ∀ d ∈ c :: rest, d.isDigit = true) :
    decimal (Json.digitsValue (c :: rest)) = c :: rest := by
  obtain ⟨hc, hrest⟩ := List.forall_mem_cons.mp hdigits
  have hrange := toNat_of_isDigit hc
  have hpos : 0 < c.toNat - 0x30 := by
    refine Nat.sub_pos_of_lt (Nat.lt_of_le_of_ne hrange.1 fun h => hzero ?_)
    exact Char.toNat_inj.mp h.symm
  have hwritten : decimal (c.toNat - 0x30) = [c] := by
    rw [decimal, if_pos (by omega), digitChar_of_isDigit hc]
  rw [digitsValue_eq, valueFrom_cons, Nat.zero_mul, Nat.zero_add, ← decimal_append hpos hrest,
    hwritten, List.singleton_append]

end Number
end KernelDepot
