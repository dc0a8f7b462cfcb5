/-
How architectures are spelled.

A text is read as an architecture exactly if it is the name of a family, at least two digits, and
perhaps the letter that restricts it, and the digits in front of the last are a number from one on
that 32 bits hold.  Zeros in front do not count, so the architecture is written back as it was
spelled exactly if there are none, and in any case it is read back from what is written.  What a
compilation records is written in this way, and loading it checks the architecture that the
request asked for.  Main statement: `Arch.parse_eq_ok_iff_spells`.
-/
import KernelDepot.Proofs.Arch
import KernelDepot.Proofs.Device.Listed

namespace KernelDepot
namespace Arch

/-- Whether a text spells an architecture with some digits for the major version and one for the
minor version. -/
structure Spells (t : Arch) (front : List Char) (last : Char) (s : String) : Prop where
  text : s.toList = lead t.isVirtual ++ ((front ++ [last]) ++ if t.isSpecific then ['a'] else [])
  front_ne : front ≠ []
  digits : ∀ c ∈ front ++ [last], c.isDigit = true
  major : Json.digitsValue front = t.major
  minor : Json.digitsValue [last] = t.minor
  major_pos : 1 ≤ t.major
  major_lt : t.major < Number.limit32

variable {s : String} {t : Arch} {front : List Char} {last : Char}

theorem digitsValue_singleton_lt (h : last.isDigit = true) : Json.digitsValue [last] < 10 := by
  have hrange := Number.toNat_of_isDigit h
  rw [Number.digitsValue_eq, Number.valueFrom_cons, Nat.zero_mul, Nat.zero_add]
  show last.toNat - 0x30 < 10
  omega

namespace Spells

theorem isDigit_last (h : t.Spells front last s) : last.isDigit = true :=
  h.digits last (List.mem_append_right _ List.mem_cons_self)

theorem inRange (h : t.Spells front last s) : t.InRange where
  major_pos := h.major_pos
  major_lt := h.major_lt
  minor_lt := h.minor ▸ digitsValue_singleton_lt h.isDigit_last

theorem decimal_minor (h : t.Spells front last s) : Number.decimal t.minor = [last] := by
  have hvalue : t.minor = last.toNat - 0x30 := by
    rw [← h.minor, Number.digitsValue_eq, Number.valueFrom_cons, Nat.zero_mul, Nat.zero_add]
    rfl
  have hrange := Number.toNat_of_isDigit h.isDigit_last
  rw [Number.decimal, if_pos h.inRange.minor_lt, hvalue, Number.digitChar_of_isDigit h.isDigit_last]

/-- An architecture is written with the digits that it was spelled with, or with fewer. -/
theorem decimal_major_iff (h : t.Spells front last s) :
    Number.decimal t.major = front ↔ front.head? ≠ some '0' := by
  constructor
  · rintro rfl
    exact Json.head?_decimal_ne h.major_pos
  · intro hzero
    cases hfront : front with
    | nil => exact absurd hfront h.front_ne
    | cons c rest =>
      rw [hfront, List.head?_cons, ne_eq, Option.some.injEq] at hzero
      rw [← h.major, hfront]
      refine Number.decimal_digitsValue hzero fun d hd => h.digits d ?_
      exact List.mem_append_left _ (hfront ▸ hd)

theorem text_eq_iff (h : t.Spells front last s) : t.text = s ↔ front.head? ≠ some '0' := by
  rw [← h.decimal_major_iff, Arch.text, ← String.toList_inj, String.toList_ofList, h.text, chars,
    h.decimal_minor, List.append_assoc]
  show lead t.isVirtual ++ _ = _ ↔ _
  rw [List.append_cancel_left_eq, List.append_cancel_right_eq, List.append_cancel_right_eq]

end Spells

/-! ## What is read -/

theorem ofDigits_concat {isVirtual isSpecific : Bool} (hne : front ≠ [])
    (hdigits : ∀ c ∈ front ++ [last], c.isDigit = true) :
    ofDigits s isVirtual isSpecific (front ++ [last]) = .ok t ↔
      t = ⟨Json.digitsValue front, Json.digitsValue [last], isVirtual, isSpecific⟩ ∧
        1 ≤ Json.digitsValue front ∧ Json.digitsValue front < Number.limit32 := by
  obtain ⟨hfront, hlast⟩ := List.forall_mem_append.mp hdigits
  have hlength := List.length_pos_iff.mpr hne
  have hgood : ¬ ((front ++ [last]).length < 2 ∨ ¬ (front ++ [last]).all Char.isDigit) := by
    rw [List.length_append, not_or, not_not]
    exact ⟨Nat.not_lt.mpr (Nat.add_le_add_right hlength 1), List.all_eq_true.mpr hdigits⟩
  have hcut : (front ++ [last]).length - 1 = front.length := by
    rw [List.length_append]
    exact Nat.add_sub_cancel _ _
  have hlt := digitsValue_singleton_lt (hlast last List.mem_cons_self)
  have hminor : Number.parseUnsigned 10 Number.limit32 [last] = .ok (Json.digitsValue [last]) :=
    (Number.parseUnsigned_eq_ok_iff (by decide) (List.cons_ne_nil _ _) hlast).mpr
      ⟨rfl, hlt.trans (by decide)⟩
  have hmajor (n : Nat) : Number.parseUnsigned 10 Number.limit32 front = .ok n ↔
      Json.digitsValue front = n ∧ n < Number.limit32 :=
    Number.parseUnsigned_eq_ok_iff (by decide) hne hfront
  unfold ofDigits
  rw [if_neg hgood, hcut, List.take_left, List.drop_left, hminor]
  cases hread : Number.parseUnsigned 10 Number.limit32 front with
  | error fault =>
    refine ⟨nofun, fun ⟨_, _, hrange⟩ => ?_⟩
    exact nomatch hread.symm.trans ((hmajor _).mpr ⟨rfl, hrange⟩)
  | ok major =>
    obtain ⟨rfl, hrange⟩ := (hmajor major).mp hread
    simp only
    by_cases hzero : Json.digitsValue front = 0
    · rw [if_pos hzero, hzero]
      exact ⟨nofun, fun h => absurd h.2.1 (by decide)⟩
    · rw [if_neg hzero, Except.ok.injEq, and_iff_left ⟨Nat.pos_of_ne_zero hzero, hrange⟩]
      exact eq_comm

/-- Digits that are read are at least two. -/
theorem exists_of_ofDigits {isVirtual isSpecific : Bool} {digits : List Char}
    (h : ofDigits s isVirtual isSpecific digits = .ok t) :
    ∃ front last, digits = front ++ [last] ∧ front ≠ [] ∧ ∀ c ∈ front ++ [last], c.isDigit := by
  have hgood : ¬ (digits.length < 2 ∨ ¬ digits.all Char.isDigit) := by
    intro hbad
    unfold ofDigits at h
    rw [if_pos hbad] at h
    exact nomatch h
  obtain ⟨hlength, hall⟩ := not_or.mp hgood
  have hall := List.all_eq_true.mp (not_not.mp hall)
  rcases List.eq_nil_or_concat digits with rfl | ⟨front, last, rfl⟩
  · exact absurd (show ([] : List Char).length < 2 by decide) hlength
  · rw [List.concat_eq_append] at hlength hall ⊢
    refine ⟨front, last, rfl, ?_, hall⟩
    rintro rfl
    exact hlength (show ([last] : List Char).length < 2 from Nat.lt_succ_self 1)

theorem exists_spells_of_ofDigits {isVirtual isSpecific : Bool} {digits : List Char}
    (hs : s.toList = lead isVirtual ++ (digits ++ if isSpecific then ['a'] else []))
    (h : ofDigits s isVirtual isSpecific digits = .ok t) :
    ∃ front last, t.Spells front last s := by
  obtain ⟨front, last, rfl, hne, hdigits⟩ := exists_of_ofDigits h
  obtain ⟨rfl, hpos, hlt⟩ := (ofDigits_concat hne hdigits).mp h
  exact ⟨front, last, hs, hne, hdigits, rfl, rfl, hpos, hlt⟩

/-- Only what spells an architecture is read, and as the one that it spells. -/
theorem parse_eq_ok_iff : parse s = .ok t ↔ ∃ front last, t.Spells front last s := by
  constructor
  · intro h
    rw [parse_eq] at h
    split at h
    · exact nomatch h
    next isVirtual rest hfamily =>
      have hs := family?_eq_some_iff.mp hfamily
      split at h
      next front hsuffix =>
        exact exists_spells_of_ofDigits (Text.before?_eq_some_iff.mp hsuffix ▸ hs) h
      · have hs : s.toList = lead isVirtual ++ (rest ++ if false then ['a'] else []) :=
          (List.append_nil rest).symm ▸ hs
        exact exists_spells_of_ofDigits hs h
  · rintro ⟨front, last, h⟩
    rw [parse_eq_ofDigits h.text h.digits, ofDigits_concat h.front_ne h.digits, h.major, h.minor]
    exact ⟨rfl, h.major_pos, h.major_lt⟩

end Arch

/-! ## What is recorded -/

namespace LoadedModule

/-- Whether every load of an artifact checks an architecture against the device, before the first
call. -/
structure Checks (a : Artifact) (t : Arch) : Prop where
  refuses : ∀ id f {info : DeviceInfo} {e}, info.check t a.format = .error e →
    load id info f a = pure ⟨[], .error e⟩
  proceeds : ∀ id f {info : DeviceInfo}, info.check t a.format = .ok () →
    ∃ next, load id info f a = .ask .bind next

theorem checks_of_parse {a : Artifact} {t : Arch} (h : Arch.parse a.arch = .ok t) : Checks a t where
  refuses id f info e he := by
    unfold load
    simp only [h, he]
  proceeds id f info hok := by
    unfold load
    simp only [h, hok]
    exact ⟨_, rfl⟩

end LoadedModule

/-- Every compilation records the architecture of its request as it is written. -/
theorem PreparedRequest.arch_of_outcome {p : PreparedRequest} {verbose : Bool} {dialogue : Dialogue}
    {c : Compilation} (h : (p.compile verbose dialogue).outcome = .ok c) :
    c.artifact.arch = p.arch.text := by
  unfold compile at h
  generalize dialogue.run (Session.answer p.space p.source) {} = result at h
  obtain ⟨result, session⟩ := result
  cases result with
  | error log => exact nomatch h
  | ok output =>
    rw [← Except.ok.inj h]
    rfl

/-- A text is read exactly if it spells an architecture; what is written is read back and is the
text itself if no zero is in front; and it is what a compilation records and a load checks. -/
theorem Arch.parse_eq_ok_iff_spells (s : String) (t : Arch) :
    (parse s = .ok t ↔ ∃ front last, t.Spells front last s) ∧
    (∀ front last, t.Spells front last s →
      parse t.text = .ok t ∧ (t.text = s ↔ front.head? ≠ some '0')) ∧
    ∀ (p : PreparedRequest) (verbose : Bool) (dialogue : Dialogue) (c : Compilation),
      parse s = .ok t → p.request.arch = s → p.request.validate = .ok p.arch →
      (p.compile verbose dialogue).outcome = .ok c →
      p.arch = t ∧ c.artifact.arch = t.text ∧ LoadedModule.Checks c.artifact t := by
  refine ⟨parse_eq_ok_iff, fun front last h => ⟨parse_text h.inRange, h.text_eq_iff⟩, ?_⟩
  intro p verbose dialogue c hparse hs hvalid hcompile
  have harch : p.arch = t := by
    have hread := Request.arch_of_validate hvalid
    rw [hs, hparse] at hread
    exact (Except.ok.inj hread).symm
  have hrecorded : c.artifact.arch = t.text := harch ▸ PreparedRequest.arch_of_outcome hcompile
  refine ⟨harch, hrecorded, LoadedModule.checks_of_parse ?_⟩
  rw [hrecorded]
  exact parse_text (inRange_of_parse hparse)

theorem Arch.spells_sm_080 : (Arch.sm 8 0).Spells ['0', '8'] '0' "sm_080" where
  text := by decide +kernel
  front_ne := nofun
  digits := List.all_eq_true.mp (by decide)
  major := by decide +kernel
  minor := by decide +kernel
  major_pos := by decide
  major_lt := by decide

/-- With a zero in front the text is another one; without, a compilation records it. -/
theorem Arch.parse_sm_080_and_sm_80 :
    parse "sm_080" = .ok (.sm 8 0) ∧ (Arch.sm 8 0).text ≠ "sm_080" ∧
    parse "sm_80" = .ok (.sm 8 0) ∧
    ∃ c, (Clashing.prepared.compile false
        (({} : SimulatedToolchain).compile Clashing.prepared.job)).outcome = .ok c ∧
      c.artifact.arch = (Arch.sm 8 0).text ∧ LoadedModule.Checks c.artifact (.sm 8 0) := by
  obtain ⟨hiff, htext, -⟩ := parse_eq_ok_iff_spells "sm_080" (.sm 8 0)
  have hother : (Arch.sm 8 0).text ≠ "sm_080" := fun heq =>
    (htext _ _ spells_sm_080).2.mp heq rfl
  have hwritten : (Arch.sm 8 0).text = "sm_80" := by decide +kernel
  have hread : parse "sm_80" = .ok (.sm 8 0) := hwritten ▸ (htext _ _ spells_sm_080).1
  obtain ⟨c, hc⟩ := Option.isSome_iff_exists.mp Clashing.isSome_outcome
  have hc := Except.eq_ok_of_toOption hc
  obtain ⟨-, -, hrecord⟩ := parse_eq_ok_iff_spells "sm_80" (.sm 8 0)
  obtain ⟨-, hrecorded, hchecks⟩ :=
    hrecord Clashing.prepared false _ c hread rfl (by decide +kernel) hc
  exact ⟨hiff.mpr ⟨_, _, spells_sm_080⟩, hother, hread, c, hc, hrecorded, hchecks⟩

end KernelDepot
