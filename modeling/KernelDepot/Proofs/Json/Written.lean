/-
What is laid out is read back.

Every statement is about what was laid out with anything behind it, so the parts of an
object are read one after the other.  `Reads value v` says this of one value; texts, numbers
and objects have it, which is `reads_quote`, `reads_decimal` and `reads_object`.
-/
import KernelDepot.Json.Layout
import KernelDepot.Json.Value
import KernelDepot.Proofs.Digest.Hex
import KernelDepot.Proofs.Text.Utf8
import Mathlib.Data.List.Forall2

namespace KernelDepot
namespace Json

/-- What may follow a number: nothing that would belong to it. -/
def Ends (rest : Pieces) : Prop :=
  ∀ p ∈ rest.head?, isDigit p = false ∧ p ≠ some '.' ∧ p ≠ some 'e' ∧ p ≠ some 'E'

/-- A value that was laid out is read back whatever follows it, with fuel for its length. -/
def Reads (value : List Char) (v : Value) : Prop :=
  ∀ fuel rest, value.length ≤ fuel → Ends rest →
    readValue fuel (value.map some ++ rest) = some (v, rest)

/-! ## Blanks -/

theorem skipBlanks_cons {p : Option Char} (rest : Pieces) (h : isBlank p = false) :
    skipBlanks (p :: rest) = p :: rest := by
  simp [skipBlanks, h]

theorem skipBlanks_blank {p : Option Char} (rest : Pieces) (h : isBlank p = true) :
    skipBlanks (p :: rest) = skipBlanks rest := by
  simp [skipBlanks, h]

theorem skipBlanks_replicate (n : Nat) (rest : Pieces) :
    skipBlanks ((List.replicate n ' ').map some ++ rest) = skipBlanks rest := by
  induction n with
  | zero => rfl
  | succ n ih =>
    rw [List.replicate_succ, List.map_cons, List.cons_append, skipBlanks_blank _ (by decide), ih]

theorem readValue_blank {fuel : Nat} {p : Option Char} (rest : Pieces) (h : isBlank p = true) :
    readValue fuel (p :: rest) = readValue fuel rest := by
  cases fuel with
  | zero => rfl
  | succ fuel => simp only [readValue, skipBlanks_blank rest h]

/-! ## Texts -/

theorem fourDigits?_control {n : Nat} (h : n < 0x20) :
    fourDigits? (some '0') (some '0') (some (Hex.digit (n / 16))) (some (Hex.digit (n % 16))) =
      some n := by
  have hhigh := Hex.digitValue?_digit (n / 16) (by omega)
  have hlow := Hex.digitValue?_digit (n % 16) (by omega)
  have hzero : Number.digitValue? 16 '0' = some 0 := by decide
  have hn : n / 16 * 16 + n % 16 = n := by omega
  simp [fourDigits?, hzero, hhigh, hlow, hn]

theorem textUnits_letter {c letter : Char} (rest : Pieces) (hu : letter ≠ 'u')
    (he : escaped? letter = some c) :
    textUnits (some '\\' :: some letter :: rest) =
      (textUnits rest).map fun read => (TextUnit.char c :: read.1, read.2) := by
  rw [textUnits.eq_4 _ _ (fun _ _ _ _ _ _ hc => hu hc), he]
  cases textUnits rest <;> rfl

theorem textUnits_plain {c : Char} (rest : Pieces) (hquote : c ≠ '"') (hslash : c ≠ '\\')
    (hc : ¬ c.toNat < 0x20) :
    textUnits (some c :: rest) =
      (textUnits rest).map fun read => (TextUnit.char c :: read.1, read.2) := by
  rw [textUnits.eq_6 _ _ hquote (fun _ _ _ _ _ _ h => hslash h) (fun _ _ _ h => hslash h) hslash,
    if_neg hc]
  cases textUnits rest <;> rfl

theorem textUnits_control {c : Char} (rest : Pieces) (hc : c.toNat < 0x20) :
    textUnits (some '\\' :: some 'u' :: some '0' :: some '0' :: some (Hex.digit (c.toNat / 16)) ::
        some (Hex.digit (c.toNat % 16)) :: rest) =
      (textUnits rest).map fun read => (TextUnit.char c :: read.1, read.2) := by
  have hunit : TextUnit.ofNumber c.toNat = .char c := by
    rw [TextUnit.ofNumber, if_neg (by omega), Char.ofNat_toNat]
  rw [textUnits.eq_3, fourDigits?_control hc, Option.bind_eq_bind, Option.bind_some, hunit]
  cases textUnits rest <;> rfl

/-- An escaped character is read as that character. -/
theorem textUnits_escape (c : Char) (rest : Pieces) :
    textUnits ((escape c).map some ++ rest) =
      (textUnits rest).map fun read => (TextUnit.char c :: read.1, read.2) := by
  have hletter (n : Nat) (letter : Char) (hn : c.toNat = n) (hu : letter ≠ 'u')
      (he : escaped? letter = some (Char.ofNat n)) :
      textUnits (some '\\' :: some letter :: rest) =
        (textUnits rest).map fun read => (TextUnit.char c :: read.1, read.2) := by
    rw [← hn, Char.ofNat_toNat] at he
    exact textUnits_letter rest hu he
  unfold escape
  by_cases hmark : c = '"' ∨ c = '\\'
  · rw [if_pos hmark]
    refine textUnits_letter rest ?_ (if_pos ?_)
    · rintro rfl
      exact absurd hmark (by decide)
    · exact hmark.imp_right .inl
  obtain ⟨hquote, hslash⟩ := not_or.mp hmark
  rw [if_neg hmark]
  by_cases h8 : c.toNat = 8
  · rw [if_pos h8]
    exact hletter 8 'b' h8 (by decide) (by decide)
  rw [if_neg h8]
  by_cases h9 : c.toNat = 9
  · rw [if_pos h9]
    exact hletter 9 't' h9 (by decide) (by decide)
  rw [if_neg h9]
  by_cases h10 : c.toNat = 10
  · rw [if_pos h10]
    exact hletter 10 'n' h10 (by decide) (by decide)
  rw [if_neg h10]
  by_cases h12 : c.toNat = 12
  · rw [if_pos h12]
    exact hletter 12 'f' h12 (by decide) (by decide)
  rw [if_neg h12]
  by_cases h13 : c.toNat = 13
  · rw [if_pos h13]
    exact hletter 13 'r' h13 (by decide) (by decide)
  rw [if_neg h13]
  by_cases hcontrol : c.toNat < 0x20
  · rw [if_pos hcontrol]
    exact textUnits_control rest hcontrol
  · rw [if_neg hcontrol]
    exact textUnits_plain rest hquote hslash hcontrol

theorem textUnits_flatMap_escape (cs : List Char) (rest : Pieces) :
    textUnits ((cs.flatMap escape).map some ++ some '"' :: rest) =
      some (cs.map TextUnit.char, rest) := by
  induction cs with
  | nil => rfl
  | cons c cs ih =>
    rw [List.flatMap_cons, List.map_append, List.append_assoc, textUnits_escape, ih]
    rfl

theorem assemble_map_char (cs : List Char) :
    TextUnit.assemble (cs.map TextUnit.char) = some cs := by
  induction cs with
  | nil => rfl
  | cons c cs ih => rw [List.map_cons, TextUnit.assemble, ih, Option.map_some]

theorem readText_quote (s : String) (rest : Pieces) :
    readText ((s.toList.flatMap escape ++ ['"']).map some ++ rest) = some (some s, rest) := by
  have hunits := textUnits_flatMap_escape s.toList rest
  rw [List.map_append, List.append_assoc, readText]
  rw [show ((['"'] : List Char).map some ++ rest : Pieces) = some '"' :: rest from rfl, hunits]
  simp only [Option.map_some, assemble_map_char, String.ofList_toList]

theorem reads_quote (s : String) : Reads (quote s) (.text (some s)) := by
  intro fuel rest hfuel _
  cases fuel with
  | zero => simp [quote] at hfuel
  | succ fuel =>
    rw [quote, List.cons_append, List.map_cons, List.cons_append]
    simp only [readValue, skipBlanks_cons _ (show isBlank (some '"') = false by decide)]
    rw [readText_quote]
    rfl

/-! ## Numbers -/

theorem digitChar_spec : ∀ d < 10, (Number.digitChar d).isDigit = true ∧
    (Number.digitChar d).toNat - 0x30 = d ∧ (Number.digitChar d = '0' → d = 0) := by decide

theorem isDigit_of_mem_decimal {n : Nat} {c : Char} (h : c ∈ Number.decimal n) :
    c.isDigit = true := by
  induction n using Nat.strongRecOn with
  | _ n ih =>
    rw [Number.decimal] at h
    split at h
    next hn =>
      rw [List.mem_singleton.mp h]
      exact (digitChar_spec n hn).1
    next hn =>
      rcases List.mem_append.mp h with h | h
      · exact ih (n / 10) (by omega) h
      · rw [List.mem_singleton.mp h]
        exact (digitChar_spec (n % 10) (Nat.mod_lt _ (by omega))).1

theorem not_mem_decimal {c : Char} (h : c.isDigit = false) (n : Nat) : c ∉ Number.decimal n :=
  fun hmem => absurd ((isDigit_of_mem_decimal hmem).symm.trans h) (by decide)

theorem digitsValue_decimal (n : Nat) : digitsValue (Number.decimal n) = n := by
  induction n using Nat.strongRecOn with
  | _ n ih =>
    rw [Number.decimal]
    split
    next hn =>
      have hd := (digitChar_spec n hn).2.1
      simp only [digitsValue, List.foldl_cons, List.foldl_nil]
      omega
    next hn =>
      have hrest := ih (n / 10) (by omega)
      have hd := (digitChar_spec (n % 10) (Nat.mod_lt _ (by omega))).2.1
      simp only [digitsValue, List.foldl_append, List.foldl_cons, List.foldl_nil] at hrest ⊢
      rw [hrest, hd]
      omega

/-- Only zero is written with a zero in front. -/
theorem head?_decimal_ne {n : Nat} (h : 0 < n) : (Number.decimal n).head? ≠ some '0' := by
  induction n using Nat.strongRecOn with
  | _ n ih =>
    rw [Number.decimal]
    split
    next hn =>
      intro he
      have hz := (digitChar_spec n hn).2.2 (Option.some.inj he)
      omega
    next hn =>
      have hrest := ih (n / 10) (by omega) (by omega)
      cases hd : Number.decimal (n / 10) with
      | nil =>
        -- A number has at least one digit.
        rw [Number.decimal] at hd
        split at hd
        · exact absurd hd (List.cons_ne_nil _ _)
        · exact absurd hd (List.append_ne_nil_of_right_ne_nil _ (List.cons_ne_nil _ _))
      | cons c cs =>
        rw [hd] at hrest
        exact hrest

theorem decimal_ne_nil (n : Nat) : Number.decimal n ≠ [] := by
  rw [Number.decimal]
  split
  · exact List.cons_ne_nil _ _
  · exact List.append_ne_nil_of_right_ne_nil _ (List.cons_ne_nil _ _)

/-- The digits of a number are taken up to what ends it. -/
theorem takeDigits_append {ds : List Char} {rest : Pieces} (hds : ∀ c ∈ ds, c.isDigit = true)
    (hrest : Ends rest) : takeDigits (ds.map some ++ rest) = (ds, rest) := by
  have hall : ∀ p ∈ ds.map some, isDigit p = true := by
    intro p hp
    obtain ⟨c, hc, rfl⟩ := List.mem_map.mp hp
    exact hds c hc
  have hnone : rest.takeWhile isDigit = [] ∧ rest.dropWhile isDigit = rest := by
    cases rest with
    | nil => exact ⟨rfl, rfl⟩
    | cons p rest =>
      have hp := (hrest p rfl).1
      simp [hp]
  unfold takeDigits
  rw [List.takeWhile_append_of_pos hall, List.dropWhile_append_of_pos hall, hnone.1, hnone.2,
    List.append_nil, List.filterMap_map]
  exact congrArg (·, rest) (List.filterMap_some)

theorem afterFraction?_of_ends {rest : Pieces} (h : Ends rest) :
    afterFraction? rest = some (false, rest) := by
  unfold afterFraction?
  split
  · exact absurd rfl (h _ rfl).2.1
  · rfl

theorem afterExponent?_of_ends {rest : Pieces} (h : Ends rest) :
    afterExponent? rest = some (false, rest) := by
  unfold afterExponent?
  split
  · exact absurd rfl (h _ rfl).2.2.1
  · exact absurd rfl (h _ rfl).2.2.2
  · rfl

theorem readUnsigned_decimal (n : Nat) {rest : Pieces} (h : Ends rest) :
    readUnsigned false ((Number.decimal n).map some ++ rest) = some (.integer n, rest) := by
  have hlead : ¬ ((Number.decimal n).isEmpty = true ∨
      1 < (Number.decimal n).length ∧ (Number.decimal n).head? = some '0') := by
    rw [List.isEmpty_iff]
    rintro (hnil | ⟨hlength, hhead⟩)
    · exact decimal_ne_nil n hnil
    · rcases Nat.eq_zero_or_pos n with rfl | hpos
      · rw [Number.decimal, if_pos (by decide)] at hlength
        exact absurd hlength (by decide)
      · exact head?_decimal_ne hpos hhead
  unfold readUnsigned
  rw [takeDigits_append (fun _ => isDigit_of_mem_decimal) h]
  simp only [if_neg hlead, afterFraction?_of_ends h, afterExponent?_of_ends h,
    digitsValue_decimal, Option.bind_eq_bind, Option.bind_some, Bool.false_eq_true, false_and,
    or_self, if_false]
  rfl

theorem reads_decimal (n : Nat) : Reads (Number.decimal n) (.number (.integer n)) := by
  intro fuel rest hfuel hrest
  have hread := readUnsigned_decimal n hrest
  cases hd : Number.decimal n with
  | nil => exact absurd hd (decimal_ne_nil n)
  | cons c cs =>
    have hdigit : c.isDigit = true := isDigit_of_mem_decimal (hd ▸ List.mem_cons_self)
    rw [hd, List.map_cons, List.cons_append] at hread
    -- A digit is none of the characters that another value starts with.
    have hne (other : Char) (ho : other.isDigit = false) : c ≠ other := by
      rintro rfl
      exact Bool.false_ne_true (ho.symm.trans hdigit)
    have hblank : isBlank (some c) = false := by
      simp [isBlank, hne ' ' (by decide), hne '\t' (by decide), hne '\n' (by decide),
        hne '\r' (by decide)]
    cases fuel with
    | zero =>
      rw [hd] at hfuel
      exact absurd hfuel (by simp)
    | succ fuel =>
      rw [List.map_cons, List.cons_append]
      simp only [readValue, skipBlanks_cons _ hblank]
      have hnumber : readNumber (some c :: (cs.map some ++ rest)) =
          some (.integer n, rest) := by
        unfold readNumber
        split
        next h => exact absurd (Option.some.inj (List.cons.inj h).1) (hne '-' (by decide))
        · exact hread
      split
      next h => exact absurd (Option.some.inj (List.cons.inj h).1) (hne '"' (by decide))
      next h => exact absurd (Option.some.inj (List.cons.inj h).1) (hne '[' (by decide))
      next h => exact absurd (Option.some.inj (List.cons.inj h).1) (hne '\x7b' (by decide))
      next h => exact absurd (Option.some.inj (List.cons.inj h).1) (hne 'n' (by decide))
      next h => exact absurd (Option.some.inj (List.cons.inj h).1) (hne 't' (by decide))
      next h => exact absurd (Option.some.inj (List.cons.inj h).1) (hne 'f' (by decide))
      · rw [hnumber]
        rfl

/-! ## Objects -/

def memberStart (depth : Nat) (name : String) : List Char :=
  List.replicate (2 * depth) ' ' ++ quote name ++ [':', ' ']

theorem skipBlanks_memberStart (depth : Nat) (name : String) (value : List Char) (more : Pieces) :
    skipBlanks ((memberStart depth name ++ value).map some ++ more) =
      some '"' :: ((name.toList.flatMap escape ++ ['"']).map some ++
        (some ':' :: some ' ' :: (value.map some ++ more))) := by
  simp only [memberStart, quote, List.map_append, List.append_assoc]
  rw [skipBlanks_replicate]
  exact skipBlanks_cons _ (by decide)

section Member

variable {fuel depth : Nat} {name : String} {value : List Char} {v : Value} {rest : Pieces}

theorem ends_cons {c : Char} (rest : Pieces) (h : c = ',' ∨ c = '\n') : Ends (some c :: rest) := by
  intro p hp
  obtain rfl := Option.some.inj hp
  rcases h with rfl | rfl <;> decide

/-- A member with a comma behind it is read, and then the others. -/
theorem readFields_member_comma (hv : Reads value v) (hfuel : value.length ≤ fuel) :
    readFields (fuel + 1) ((memberStart depth name ++ value).map some ++ some ',' :: rest) =
      (readFields fuel rest).map fun read => ((some name, v) :: read.1, read.2) := by
  have hvalue := hv fuel (some ',' :: rest) hfuel (ends_cons rest (.inl rfl))
  simp only [readFields, skipBlanks_memberStart, readText_quote, Option.bind_eq_bind,
    Option.bind_some, skipBlanks_cons _ (show isBlank (some ':') = false by decide),
    readValue_blank _ (show isBlank (some ' ') = true by decide), hvalue,
    skipBlanks_cons _ (show isBlank (some ',') = false by decide)]
  cases readFields fuel rest <;> rfl

/-- The last member is read up to the closing brace. -/
theorem readFields_member_brace {more : Pieces} (hv : Reads value v) (hfuel : value.length ≤ fuel)
    (hmore : skipBlanks more = some '\x7d' :: rest) :
    readFields (fuel + 1) ((memberStart depth name ++ value).map some ++ some '\n' :: more) =
      some ([(some name, v)], rest) := by
  have hvalue := hv fuel (some '\n' :: more) hfuel (ends_cons more (.inr rfl))
  simp only [readFields, skipBlanks_memberStart, readText_quote, Option.bind_eq_bind,
    Option.bind_some, skipBlanks_cons _ (show isBlank (some ':') = false by decide),
    readValue_blank _ (show isBlank (some ' ') = true by decide), hvalue,
    skipBlanks_blank _ (show isBlank (some '\n') = true by decide), hmore]
  rfl

end Member

theorem readFields_blank {fuel : Nat} {p : Option Char} (rest : Pieces) (h : isBlank p = true) :
    readFields fuel (p :: rest) = readFields fuel rest := by
  cases fuel with
  | zero => rfl
  | succ fuel => simp only [readFields, skipBlanks_blank rest h]

theorem memberLines_cons (depth : Nat) (name : String) (value : List Char)
    (rest : List (String × List Char)) :
    memberLines depth ((name, value) :: rest) = memberStart depth name ++ value ++
      ((if rest.isEmpty then ['\n'] else [',', '\n']) ++ memberLines depth rest) := by
  simp only [memberLines, memberStart, List.append_assoc]

/-- The members of an object are read up to its closing brace. -/
theorem readFields_memberLines {fuel depth : Nat} {members : List (String × List Char)}
    {fields : List (Option String × Value)} (blanks : Nat) (rest : Pieces)
    (h : List.Forall₂ (fun m f => f.1 = some m.1 ∧ Reads m.2 f.2) members fields)
    (hne : members ≠ []) (hfuel : (memberLines depth members).length ≤ fuel) :
    readFields fuel ((memberLines depth members).map some ++
      ((List.replicate blanks ' ').map some ++ some '\x7d' :: rest)) = some (fields, rest) := by
  induction h generalizing fuel with
  | nil => exact absurd rfl hne
  | @cons m f members fields hm htail ih =>
    obtain ⟨name, value⟩ := m
    obtain ⟨fieldName, v⟩ := f
    obtain ⟨hname, hv⟩ := hm
    obtain rfl : fieldName = some name := hname
    replace hv : Reads value v := hv
    rw [memberLines_cons] at hfuel ⊢
    simp only [List.length_append] at hfuel
    have hstart : 0 < (memberStart depth name).length := by
      simp only [memberStart, List.length_append, List.length_cons]
      omega
    cases fuel with
    | zero => omega
    | succ fuel =>
      have hvalue : value.length ≤ fuel := by omega
      rw [List.map_append, List.append_assoc]
      cases htail with
      | nil =>
        have hclose : skipBlanks ((List.replicate blanks ' ').map some ++ some '\x7d' :: rest) =
            some '\x7d' :: rest := by
          rw [skipBlanks_replicate]
          exact skipBlanks_cons _ (by decide)
        simp only [List.isEmpty_nil, if_true, memberLines, List.append_nil, List.map_cons,
          List.map_nil, List.cons_append, List.nil_append]
        exact readFields_member_brace hv hvalue hclose
      | @cons m' f' members fields hm' htail =>
        have hmore := @ih fuel (List.cons_ne_nil _ _) (by omega)
        simp only [List.isEmpty_cons, Bool.false_eq_true, if_false, List.map_append, List.map_cons,
          List.cons_append, List.nil_append]
        rw [← List.map_append, readFields_member_comma hv hvalue, readFields_blank _ (by decide),
          hmore]
        rfl

theorem reads_object {depth : Nat} {members : List (String × List Char)}
    {fields : List (Option String × Value)}
    (h : List.Forall₂ (fun m f => f.1 = some m.1 ∧ Reads m.2 f.2) members fields) :
    Reads (object depth members) (.object fields) := by
  intro fuel rest hfuel _
  cases fuel with
  | zero =>
    unfold object at hfuel
    split at hfuel <;> simp at hfuel
  | succ fuel =>
    unfold object at hfuel ⊢
    by_cases hempty : members.isEmpty = true
    · obtain rfl := List.isEmpty_iff.mp hempty
      cases h
      rfl
    · rw [if_neg hempty] at hfuel ⊢
      have hne : members ≠ [] := fun he => hempty (List.isEmpty_iff.mpr he)
      have hlength : (memberLines (depth + 1) members).length ≤ fuel := by
        simp only [List.cons_append, List.length_cons, List.length_append] at hfuel
        omega
      have hfields := @readFields_memberLines fuel (depth + 1) members fields (2 * depth) rest h
        hne hlength
      have hlines : ∃ ps, skipBlanks (some '\n' :: ((memberLines (depth + 1) members).map some ++
          ((List.replicate (2 * depth) ' ').map some ++ some '\x7d' :: rest))) =
            some '"' :: ps := by
        cases members with
        | nil => exact absurd rfl hne
        | cons m members =>
          obtain ⟨name, value⟩ := m
          rw [skipBlanks_blank _ (by decide), memberLines_cons]
          simp only [memberStart, quote, List.map_append, List.append_assoc]
          rw [skipBlanks_replicate]
          exact ⟨_, skipBlanks_cons _ (by decide)⟩
      obtain ⟨ps, hps⟩ := hlines
      rw [← readFields_blank _ (show isBlank (some '\n') = true by decide)] at hfields
      simp only [List.map_append, List.map_cons, List.map_nil, List.cons_append, List.nil_append,
        List.append_assoc]
      simp only [readValue, skipBlanks_cons _ (show isBlank (some '\x7b') = false by decide)]
      rw [hps, hfields]
      rfl

theorem reads_textObject (depth : Nat) (entries : List (String × String)) :
    Reads (textObject depth entries)
      (.object (entries.map fun e => (some e.1, .text (some e.2)))) := by
  refine reads_object ?_
  induction entries with
  | nil => exact .nil
  | cons e rest ih => exact .cons ⟨rfl, reads_quote e.2⟩ ih

/-- A value that was laid out and nothing else is read back from its encoding. -/
theorem read?_bytes {value : List Char} {v : Value} (h : Reads value v) :
    read? (Text.bytes (String.ofList value)) = some v := by
  have hread := h (value.length + 1) [] (Nat.le_succ _) (fun p hp => nomatch hp)
  rw [List.append_nil] at hread
  unfold read?
  simp only [Text.Utf8.decode_bytes, List.length_map, hread, Option.bind_eq_bind, Option.bind_some]
  rfl

end Json
end KernelDepot
