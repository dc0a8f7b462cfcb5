/-
Texts that are read as fingerprints.

Two characters are read as a byte if the second is a digit and the first is a digit or a plus
sign, and a sign counts as a zero.  So sixty-four characters are read if each is a digit, or a
sign in an even place.  The written form of what was read is the text in lowercase with zeros for
signs.  This is `isOk_parse_iff_isSpelled`; it makes a text with a sign, which is no row of
sixty-four digits, a further spelling of a fingerprint that has one.
-/
import KernelDepot.Proofs.Digest.Hex
import KernelDepot.Proofs.Number

namespace KernelDepot

namespace Hex

/-- A hexadecimal digit in either case. -/
def IsDigit (c : Char) : Prop :=
  ('0' ≤ c ∧ c ≤ '9') ∨ ('a' ≤ c ∧ c ≤ 'f') ∨ ('A' ≤ c ∧ c ≤ 'F')

instance : DecidablePred IsDigit := fun c =>
  inferInstanceAs (Decidable (('0' ≤ c ∧ c ≤ '9') ∨ ('a' ≤ c ∧ c ≤ 'f') ∨ ('A' ≤ c ∧ c ≤ 'F')))

/-- Pairs of digits, in which a sign may stand for the first digit. -/
def IsSpelled (cs : List Char) : Prop :=
  ∀ i c, cs[i]? = some c → IsDigit c ∨ c = '+' ∧ i % 2 = 0

/-- What is written for a character that was read. -/
def settle (c : Char) : Char := if c = '+' then '0' else c.toLower

/-! ## Digits -/

theorem IsDigit.toNat_lt {c : Char} (h : IsDigit c) : c.toNat < 128 := by
  simp only [IsDigit, Char.le_def, UInt32.le_iff_toNat_le] at h
  have hval : c.toNat = c.val.toNat := rfl
  have h9 : '9'.val.toNat = 57 := rfl
  have hf : 'f'.val.toNat = 102 := rfl
  have hF : 'F'.val.toNat = 70 := rfl
  omega

theorem digitValue?_ofNat : ∀ k < 128,
    (Number.digitValue? 16 (Char.ofNat k) = none ∧ ¬ IsDigit (Char.ofNat k)) ∨
      ∃ n < 16, Number.digitValue? 16 (Char.ofNat k) = some n ∧ IsDigit (Char.ofNat k) ∧
        digit n = (Char.ofNat k).toLower := by
  decide +kernel

/-- A character has a value exactly if it is a digit, and then the digit of this value is the
character in lowercase. -/
theorem digitValue?_cases (c : Char) :
    (Number.digitValue? 16 c = none ∧ ¬ IsDigit c) ∨
      ∃ n < 16, Number.digitValue? 16 c = some n ∧ IsDigit c ∧ digit n = c.toLower := by
  by_cases hc : c.toNat < 128
  · have hcases := digitValue?_ofNat c.toNat hc
    rwa [Char.ofNat_toNat] at hcases
  · refine .inl ⟨?_, fun hdigit => ?_⟩
    · unfold Number.digitValue?
      simp only
      rw [if_neg (by omega), if_neg (by omega), if_neg (by omega)]
      rfl
    · exact hc hdigit.toNat_lt

theorem settle_of_isDigit {c : Char} (h : IsDigit c) : settle c = c.toLower :=
  if_neg (by rintro rfl; exact absurd h (by decide))

/-! ## Bytes -/

theorem byteDigits_injective {a b : UInt8} (h : byteDigits a = byteDigits b) : a = b := by
  obtain ⟨hhigh, hrest⟩ := List.cons.inj h
  have hread := byteOf_digits a
  rw [hhigh, (List.cons.inj hrest).1, byteOf_digits b] at hread
  exact (Except.ok.inj hread).symm

theorem byteDigits_ofNat {m n : Nat} (hm : m < 16) (hn : n < 16) :
    byteDigits (UInt8.ofNat (m * 16 + n)) = [digit m, digit n] := by
  have hvalue : (UInt8.ofNat (m * 16 + n)).toNat = m * 16 + n := by
    rw [UInt8.toNat_ofNat', Nat.mod_eq_of_lt (by omega)]
  have hhigh : (m * 16 + n) / 16 = m := by omega
  have hlow : (m * 16 + n) % 16 = n := by omega
  rw [byteDigits, hvalue, hhigh, hlow]

/-- A pair is read if it is spelled like a byte. -/
theorem exists_byteOf {high low : Char} (hhigh : IsDigit high ∨ high = '+') (hlow : IsDigit low) :
    ∃ b, byteOf high low = .ok b ∧ byteDigits b = [settle high, settle low] := by
  rcases digitValue?_cases low with ⟨-, hnot⟩ | ⟨n, hn, hvalue, -, hdigit⟩
  · exact absurd hlow hnot
  have hlast : settle low = digit n := (settle_of_isDigit hlow).trans hdigit.symm
  rcases hhigh with hhigh | rfl
  · rcases digitValue?_cases high with ⟨-, hnot⟩ | ⟨m, hm, hvalue', -, hdigit'⟩
    · exact absurd hhigh hnot
    have hplus : high ≠ '+' := by
      rintro rfl
      exact absurd hhigh (by decide)
    have hparse : Number.parseUnsigned 16 256 [high, low] = .ok (m * 16 + n) := by
      rw [Number.parseUnsigned_cons_of_ne _ hplus]
      simp only [Number.parseDigits, hvalue, hvalue', Nat.zero_mul, Nat.zero_add]
      rw [if_pos (by omega), if_pos (by omega)]
    refine ⟨UInt8.ofNat (m * 16 + n), by rw [byteOf, hparse]; rfl, ?_⟩
    rw [byteDigits_ofNat hm hn, hlast, settle_of_isDigit hhigh, hdigit']
  · have hparse : Number.parseUnsigned 16 256 ['+', low] = .ok n := by
      simp only [Number.parseUnsigned, Number.parseDigits, hvalue, Nat.zero_mul, Nat.zero_add]
      rw [if_pos (by omega)]
    refine ⟨UInt8.ofNat (0 * 16 + n), by rw [byteOf, hparse, Nat.zero_mul, Nat.zero_add]; rfl, ?_⟩
    rw [byteDigits_ofNat (by decide) hn, hlast]
    rfl

/-- A pair that is read is spelled like a byte. -/
theorem spelled_of_byteOf {high low : Char} {b : UInt8} (h : byteOf high low = .ok b) :
    (IsDigit high ∨ high = '+') ∧ IsDigit low := by
  have hdigit (c : Char) (hc : Number.digitValue? 16 c ≠ none) : IsDigit c := by
    rcases digitValue?_cases c with ⟨hnone, -⟩ | ⟨n, -, -, hdigit, -⟩
    · exact absurd hnone hc
    · exact hdigit
  by_cases hplus : high = '+'
  · subst hplus
    refine ⟨.inr rfl, hdigit low fun hlow => ?_⟩
    simp only [byteOf, Number.parseUnsigned, Number.parseDigits, hlow, Except.map] at h
    cases h
  · unfold byteOf at h
    rw [Number.parseUnsigned_cons_of_ne _ hplus] at h
    refine ⟨.inl (hdigit high fun hhigh => ?_), hdigit low fun hlow => ?_⟩
    · simp only [Number.parseDigits, hhigh, Except.map] at h
      cases h
    · simp only [Number.parseDigits, hlow] at h
      split at h
      · cases h
      · split at h <;> cases h

theorem byteOf_eq_ok_iff {high low : Char} {b : UInt8} : byteOf high low = .ok b ↔
    ((IsDigit high ∨ high = '+') ∧ IsDigit low) ∧ byteDigits b = [settle high, settle low] := by
  constructor
  · intro h
    obtain ⟨hhigh, hlow⟩ := spelled_of_byteOf h
    obtain ⟨b', hread, hdigits⟩ := exists_byteOf hhigh hlow
    obtain rfl := Except.ok.inj (h.symm.trans hread)
    exact ⟨⟨hhigh, hlow⟩, hdigits⟩
  · rintro ⟨⟨hhigh, hlow⟩, hdigits⟩
    obtain ⟨b', hread, hdigits'⟩ := exists_byteOf hhigh hlow
    rwa [byteDigits_injective (hdigits.trans hdigits'.symm)]

/-! ## Rows of digits -/

theorem isSpelled_nil : IsSpelled [] := by
  intro i c hc
  cases hc

theorem isSpelled_cons_cons {high low : Char} {rest : List Char} :
    IsSpelled (high :: low :: rest) ↔
      ((IsDigit high ∨ high = '+') ∧ IsDigit low) ∧ IsSpelled rest := by
  constructor
  · intro h
    refine ⟨⟨(h 0 high rfl).imp_right And.left, ?_⟩, fun i c hc => ?_⟩
    · exact (h 1 low rfl).resolve_right fun hodd => absurd hodd.2 (by decide)
    · refine (h (i + 2) c hc).imp_right fun hplus => ⟨hplus.1, ?_⟩
      rw [← hplus.2, Nat.add_mod_right]
  · rintro ⟨⟨hhigh, hlow⟩, hrest⟩ i c hc
    match i with
    | 0 =>
      obtain rfl := Option.some.inj hc
      exact hhigh.imp_right fun hplus => ⟨hplus, rfl⟩
    | 1 =>
      obtain rfl := Option.some.inj hc
      exact .inl hlow
    | i + 2 =>
      refine (hrest i c hc).imp_right fun hplus => ⟨hplus.1, ?_⟩
      rw [Nat.add_mod_right, hplus.2]

/-- Pairs are read as bytes exactly if they are spelled so, and the digits of the bytes are the
characters as they are written again. -/
theorem decode_eq_ok_iff {cs : List Char} (heven : cs.length % 2 = 0) {bs : Bytes} :
    decode cs = .ok bs ↔ IsSpelled cs ∧ encode bs = cs.map settle := by
  induction cs using decode.induct generalizing bs with
  | case1 =>
    constructor
    · intro h
      obtain rfl := Except.ok.inj h
      exact ⟨isSpelled_nil, rfl⟩
    · rintro ⟨-, hdigits⟩
      exact congrArg Except.ok (encode_injective hdigits).symm
  | case2 c => exact absurd heven Nat.one_ne_zero
  | case3 high low rest ih =>
    -- Both the reader and the writer take one pair at a time.
    have heven : rest.length % 2 = 0 := by
      rw [List.length_cons, List.length_cons] at heven
      omega
    have hencode (b : UInt8) (bs : Bytes) : encode (b :: bs) = byteDigits b ++ encode bs := rfl
    rw [decode, isSpelled_cons_cons]
    constructor
    · intro h
      cases hb : byteOf high low with
      | error e => rw [hb] at h; cases h
      | ok b =>
        cases hrest : decode rest with
        | error e => rw [hb, hrest] at h; cases h
        | ok bs' =>
          rw [hb, hrest] at h
          obtain rfl := Except.ok.inj h
          obtain ⟨hpair, hdigits⟩ := byteOf_eq_ok_iff.mp hb
          obtain ⟨hspelled, hdigits'⟩ := (ih heven).mp hrest
          exact ⟨⟨hpair, hspelled⟩, by rw [hencode, hdigits, hdigits']; rfl⟩
    · rintro ⟨⟨hpair, hspelled⟩, hdigits⟩
      cases bs with
      | nil => cases hdigits
      | cons b bs =>
        rw [hencode] at hdigits
        obtain ⟨hhigh, hrow⟩ := List.cons.inj hdigits
        obtain ⟨hlow, hrow⟩ := List.cons.inj hrow
        have hb : byteOf high low = .ok b :=
          byteOf_eq_ok_iff.mpr ⟨hpair, by rw [byteDigits, hhigh, hlow]⟩
        rw [hb, (ih heven).mpr ⟨hspelled, hrow⟩]
        rfl

theorem exists_decode {cs : List Char} (heven : cs.length % 2 = 0) (h : IsSpelled cs) :
    ∃ bs, decode cs = .ok bs := by
  induction cs using decode.induct with
  | case1 => exact ⟨[], rfl⟩
  | case2 c => exact absurd heven Nat.one_ne_zero
  | case3 high low rest ih =>
    obtain ⟨⟨hhigh, hlow⟩, hrest⟩ := isSpelled_cons_cons.mp h
    obtain ⟨b, hb, -⟩ := exists_byteOf hhigh hlow
    obtain ⟨bs, hbs⟩ := ih (by rw [List.length_cons, List.length_cons] at heven; omega) hrest
    exact ⟨b :: bs, by rw [decode, hb, hbs]; rfl⟩

theorem IsSpelled.toNat_lt {cs : List Char} (h : IsSpelled cs) {c : Char} (hc : c ∈ cs) :
    c.toNat < 128 := by
  obtain ⟨i, hi⟩ := List.mem_iff_getElem?.mp hc
  rcases h i c hi with hdigit | ⟨rfl, -⟩
  · exact hdigit.toNat_lt
  · decide

/-- Without signs only digits are left. -/
theorem isSpelled_iff_of_not_mem {cs : List Char} (h : '+' ∉ cs) :
    IsSpelled cs ↔ ∀ c ∈ cs, IsDigit c := by
  constructor
  · intro hspelled c hc
    obtain ⟨i, hi⟩ := List.mem_iff_getElem?.mp hc
    refine (hspelled i c hi).resolve_right fun hplus => h ?_
    rwa [← hplus.1]
  · exact fun hdigits i c hi => .inl (hdigits c (List.mem_of_getElem? hi))

end Hex

namespace Fingerprint

open Hex

/-- A row of sixty-four digits. -/
def IsHex (s : String) : Prop := s.length = 64 ∧ ∀ c ∈ s.toList, IsDigit c

variable {s t : String} {f g : Fingerprint}

theorem parse_eq_ok_iff_decode : parse s = .ok f ↔ s.toList.length = 64 ∧
    (∀ c ∈ s.toList, c.toNat < 128) ∧ decode s.toList = .ok f.bytes := by
  have hascii : (s.toList.all fun c => decide (c.toNat < 128)) = true ↔
      ∀ c ∈ s.toList, c.toNat < 128 := by
    simp only [List.all_eq_true, decide_eq_true_eq]
  rw [← hascii]
  unfold parse
  simp only
  split
  next hlength =>
    split
    next hall =>
      rw [and_iff_right hlength, and_iff_right hall]
      split
      next cause hcause =>
        rw [hcause]
        exact ⟨nofun, nofun⟩
      next bytes hbytes =>
        have hbytes : decode s.toList = .ok bytes := hbytes
        constructor
        · intro h
          rw [hbytes, ← Except.ok.inj h]
        · intro h
          obtain rfl := Except.ok.inj (hbytes.symm.trans h)
          rfl
    next hall => exact ⟨nofun, fun h => absurd h.2.1 hall⟩
  next hlength => exact ⟨nofun, fun h => absurd h.1 hlength⟩

/-- What is read is spelled like a fingerprint, and is written again as it was spelled. -/
theorem parse_eq_ok_iff : parse s = .ok f ↔
    (s.length = 64 ∧ IsSpelled s.toList) ∧ f.hex = s.map settle := by
  have hhex : f.hex = s.map settle ↔ encode f.bytes = s.toList.map settle := by
    rw [hex, digits, ← String.toList_inj, String.toList_ofList, String.toList_map]
  rw [hhex, parse_eq_ok_iff_decode, ← String.length_toList]
  constructor
  · rintro ⟨hlength, -, hread⟩
    obtain ⟨hspelled, hdigits⟩ := (decode_eq_ok_iff (by rw [hlength])).mp hread
    exact ⟨⟨hlength, hspelled⟩, hdigits⟩
  · rintro ⟨⟨hlength, hspelled⟩, hdigits⟩
    exact ⟨hlength, fun c hc => hspelled.toNat_lt hc,
      (decode_eq_ok_iff (by rw [hlength])).mpr ⟨hspelled, hdigits⟩⟩

theorem isOk_parse_iff : (parse s).isOk ↔ s.length = 64 ∧ IsSpelled s.toList := by
  constructor
  · intro h
    cases hread : parse s with
    | error fault => rw [hread] at h; exact absurd h Bool.false_ne_true
    | ok f => exact (parse_eq_ok_iff.mp hread).1
  · rintro ⟨hlength, hspelled⟩
    rw [← String.length_toList] at hlength
    obtain ⟨bs, hbs⟩ := exists_decode (by rw [hlength]) hspelled
    have hbytes : bs.length = 32 := by rw [length_decode hbs, hlength]
    have hread : parse s = .ok ⟨bs, hbytes⟩ :=
      parse_eq_ok_iff_decode.mpr ⟨hlength, fun c hc => hspelled.toNat_lt hc, hbs⟩
    rw [hread]
    rfl

theorem isHex_iff : IsHex s ↔ (parse s).isOk ∧ '+' ∉ s.toList := by
  constructor
  · rintro ⟨hlength, hdigits⟩
    have hplus : '+' ∉ s.toList := fun h => absurd (hdigits '+' h) (by decide)
    exact ⟨isOk_parse_iff.mpr ⟨hlength, (isSpelled_iff_of_not_mem hplus).mpr hdigits⟩, hplus⟩
  · rintro ⟨hok, hplus⟩
    obtain ⟨hlength, hspelled⟩ := isOk_parse_iff.mp hok
    exact ⟨hlength, (isSpelled_iff_of_not_mem hplus).mp hspelled⟩

theorem settle_of_isHex (h : IsHex s) : s.map settle = s.toLower := by
  have hlower : s.toLower = s.map Char.toLower := rfl
  rw [hlower, ← String.toList_inj, String.toList_map, String.toList_map]
  exact List.map_congr_left fun c hc => settle_of_isDigit (h.2 c hc)

theorem hex_injective (h : f.hex = g.hex) : f = g :=
  digits_injective (String.ofList_injective h)

/-- A text is read exactly if it is spelled like a fingerprint, and is written again as it was
spelled.  Of such texts those without a sign are the rows of digits, which are written again in
lowercase.  Two texts are read as one fingerprint exactly if they are written again alike. -/
theorem isOk_parse_iff_isSpelled (s t : String) :
    ((parse s).isOk ↔ s.length = 64 ∧ IsSpelled s.toList) ∧
      (IsHex s ↔ (parse s).isOk ∧ '+' ∉ s.toList) ∧
      (IsHex s → s.map settle = s.toLower) ∧
      (∀ f, parse s = .ok f → f.hex = s.map settle) ∧
      ∀ f g, parse s = .ok f → parse t = .ok g → (f = g ↔ s.map settle = t.map settle) := by
  have hwritten (s : String) (f : Fingerprint) (h : parse s = .ok f) : f.hex = s.map settle :=
    (parse_eq_ok_iff.mp h).2
  refine ⟨isOk_parse_iff, isHex_iff, settle_of_isHex, hwritten s, fun f g hf hg => ?_⟩
  rw [← hwritten s f hf, ← hwritten t g hg]
  exact ⟨congrArg hex, hex_injective⟩

/-! ### A fingerprint with a further spelling -/

namespace Signed

def fingerprint : Fingerprint := ⟨15 :: List.replicate 31 0, rfl⟩

def plain : String := "0F00000000000000000000000000000000000000000000000000000000000000"

def signed : String := "+f00000000000000000000000000000000000000000000000000000000000000"

theorem parse_plain : parse plain = .ok fingerprint := rfl

theorem parse_signed : parse signed = .ok fingerprint := rfl

/-- A text with a sign is read, and as the same fingerprint as a row of digits. -/
theorem not_isHex_signed : (parse signed).isOk ∧ ¬ IsHex signed ∧
    fingerprint.hex = signed.map settle ∧ signed.map settle = plain.map settle := by
  obtain ⟨-, hhex, -, hwritten, hequal⟩ := isOk_parse_iff_isSpelled signed plain
  refine ⟨by rw [parse_signed]; rfl, fun h => ?_, hwritten _ parse_signed, ?_⟩
  · exact (hhex.mp h).2 (by decide +kernel)
  · exact (hequal _ _ parse_signed parse_plain).mp rfl

end Signed

end Fingerprint
end KernelDepot
