/-
Architectures that are read back.

An architecture that was read has a major version that is not zero and that a machine word holds,
and a minor version of one digit.  Every such architecture is written so that it is read again:
the last digit is the minor version, and the letter of the suffix is no digit.
-/
import KernelDepot.Arch
import KernelDepot.Proofs.Number
import KernelDepot.Proofs.Text.Search

namespace KernelDepot
namespace Arch

/-- What every architecture that can be written has. -/
structure InRange (t : Arch) : Prop where
  major_pos : 0 < t.major
  major_lt : t.major < Number.limit32
  minor_lt : t.minor < 10

/-- The architecture of a family and of the digits behind it. -/
def ofDigits (s : String) (isVirtual isSpecific : Bool) (digits : List Char) :
    Except ArchFault Arch :=
  if digits.length < 2 ∨ ¬ digits.all Char.isDigit then .error (.malformed s none)
  else
    match Number.parseUnsigned 10 Number.limit32 (digits.take (digits.length - 1)),
        Number.parseUnsigned 10 Number.limit32 (digits.drop (digits.length - 1)) with
    | .error e, _ => .error (.malformed s (some e))
    | .ok _, .error e => .error (.malformed s (some e))
    | .ok major, .ok minor =>
      if major = 0 then .error (.malformed s none) else .ok ⟨major, minor, isVirtual, isSpecific⟩

theorem parse_eq (s : String) : parse s =
    match family? s.toList with
    | none => .error (.unknownFamily s)
    | some (isVirtual, rest) =>
      match Text.before? ['a'] rest with
      | some front => ofDigits s isVirtual true front
      | none => ofDigits s isVirtual false rest := by
  unfold parse
  cases family? s.toList with
  | none => rfl
  | some family =>
    simp only
    cases Text.before? ['a'] family.2 <;> rfl

variable {s : String} {t : Arch}

theorem inRange_of_ofDigits {isVirtual isSpecific : Bool} {digits : List Char}
    (h : ofDigits s isVirtual isSpecific digits = .ok t) : t.InRange := by
  unfold ofDigits at h
  split at h
  · exact nomatch h
  · next hdigits =>
    obtain ⟨hlength, hall⟩ := not_or.mp hdigits
    have hone : (digits.drop (digits.length - 1)).length = 1 := by
      rw [List.length_drop]
      omega
    obtain ⟨c, hc⟩ := List.length_eq_one_iff.mp hone
    have hdigit : c.isDigit = true := by
      refine List.all_eq_true.mp (not_not.mp hall) c ?_
      exact List.mem_of_mem_drop (hc ▸ List.mem_cons_self)
    split at h
    · exact nomatch h
    · exact nomatch h
    · next major minor hmajor hminor =>
      split at h
      · exact nomatch h
      · next hne =>
        rw [hc] at hminor
        rw [← Except.ok.inj h]
        exact ⟨Nat.pos_of_ne_zero hne, Number.parseUnsigned_lt (by decide) hmajor,
          Number.parseUnsigned_singleton_lt hdigit hminor⟩

theorem inRange_of_parse (h : parse s = .ok t) : t.InRange := by
  rw [parse_eq] at h
  split at h
  · exact nomatch h
  · split at h
    · exact inRange_of_ofDigits h
    · exact inRange_of_ofDigits h

theorem isDigit_of_mem_digits {c : Char}
    (h : c ∈ Number.decimal t.major ++ Number.decimal t.minor) : c.isDigit = true :=
  (List.mem_append.mp h).elim Json.isDigit_of_mem_decimal Json.isDigit_of_mem_decimal

theorem ofDigits_decimal (s : String) (h : t.InRange) :
    ofDigits s t.isVirtual t.isSpecific (Number.decimal t.major ++ Number.decimal t.minor) =
      .ok t := by
  have hminor : (Number.decimal t.minor).length = 1 := by
    rw [Number.decimal, if_pos h.minor_lt]
    rfl
  have hmajor := List.length_pos_iff.mpr (Json.decimal_ne_nil t.major)
  have hdigits : ¬ ((Number.decimal t.major ++ Number.decimal t.minor).length < 2 ∨
      ¬ (Number.decimal t.major ++ Number.decimal t.minor).all Char.isDigit) := by
    rw [List.length_append, not_or, not_not]
    exact ⟨by omega, List.all_eq_true.mpr fun c hc => isDigit_of_mem_digits hc⟩
  have hcut : (Number.decimal t.major ++ Number.decimal t.minor).length - 1 =
      (Number.decimal t.major).length := by
    rw [List.length_append, hminor, Nat.add_sub_cancel]
  unfold ofDigits
  rw [if_neg hdigits, hcut, List.take_left, List.drop_left,
    Number.parseUnsigned_decimal h.major_lt,
    Number.parseUnsigned_decimal (h.minor_lt.trans (by decide))]
  exact if_neg h.major_pos.ne'

/-- The name of a family. -/
def lead (isVirtual : Bool) : List Char := if isVirtual then "compute_".toList else "sm_".toList

theorem family?_eq_some_iff {cs rest : List Char} {isVirtual : Bool} :
    family? cs = some (isVirtual, rest) ↔ cs = lead isVirtual ++ rest := by
  have hreal (rest : List Char) : Text.after? "sm_".toList ("compute_".toList ++ rest) = none :=
    if_neg (by simp)
  unfold family?
  constructor
  · intro h
    split at h
    next rest' hafter =>
      obtain ⟨rfl, rfl⟩ := Prod.mk.inj (Option.some.inj h)
      exact Text.after?_eq_some_iff.mp hafter
    next =>
      obtain ⟨rest', hafter, heq⟩ := Option.map_eq_some_iff.mp h
      obtain ⟨rfl, rfl⟩ := Prod.mk.inj heq
      exact Text.after?_eq_some_iff.mp hafter
  · rintro rfl
    cases isVirtual with
    | false =>
      have hlead : lead false = "sm_".toList := rfl
      rw [hlead, Text.after?_eq_some_iff.mpr rfl]
    | true =>
      have hlead : lead true = "compute_".toList := rfl
      rw [hlead, hreal, Text.after?_eq_some_iff.mpr rfl]
      rfl

theorem isWord_chars (t : Arch) : Text.IsWord t.chars := by
  have hfamily : Text.IsWord (if t.isVirtual then "compute_".toList else "sm_".toList) := by
    cases t.isVirtual <;> decide +kernel
  refine (hfamily.append fun c hc => ?_).append ?_
  · exact Number.isBlank_of_isDigit (isDigit_of_mem_digits hc)
  · cases t.isSpecific with
    | false => exact nofun
    | true => exact List.forall_mem_singleton.mpr rfl

theorem before?_suffix {digits : List Char} (h : ∀ c ∈ digits, c.isDigit = true)
    (isSpecific : Bool) : Text.before? ['a'] (digits ++ if isSpecific then ['a'] else []) =
      if isSpecific then some digits else none := by
  cases isSpecific with
  | true => exact Text.before?_append digits ['a']
  | false =>
    show Text.before? ['a'] (digits ++ []) = none
    rw [List.append_nil]
    refine Text.before?_eq_none_iff.mpr fun hsuffix => ?_
    exact absurd (h 'a' (hsuffix.subset List.mem_cons_self)) (by decide)

/-- The family and the suffix are told apart from the digits between them. -/
theorem parse_eq_ofDigits {isVirtual isSpecific : Bool} {digits : List Char}
    (hs : s.toList = lead isVirtual ++ (digits ++ if isSpecific then ['a'] else []))
    (h : ∀ c ∈ digits, c.isDigit = true) : parse s = ofDigits s isVirtual isSpecific digits := by
  rw [parse_eq, family?_eq_some_iff.mpr hs]
  simp only [before?_suffix h]
  cases isSpecific with
  | true => rfl
  | false =>
    show ofDigits s isVirtual false (digits ++ []) = _
    rw [List.append_nil]

/-- What is written is read. -/
theorem parse_text (h : t.InRange) : parse t.text = .ok t := by
  have hs : t.text.toList = lead t.isVirtual ++
      ((Number.decimal t.major ++ Number.decimal t.minor) ++
        if t.isSpecific then ['a'] else []) := by
    rw [text, String.toList_ofList, ← List.append_assoc]
    rfl
  rw [parse_eq_ofDigits hs fun c hc => isDigit_of_mem_digits hc]
  exact ofDigits_decimal t.text h

end Arch
end KernelDepot
