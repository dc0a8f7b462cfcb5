/-
Natural numbers as digits.

`decimal` writes a number with the fewest digits, and `parseDigits` reads digits
to any base below a limit, one digit at a time, so the first fault from the left
is the one reported.  `parseDigits_decimal` says that what was written is read
back.  An unsigned numeral may carry one plus sign and any number of leading
zeros; it carries nothing else.
-/

namespace KernelDepot
namespace Number

inductive Fault where
  | empty
  | invalidDigit
  | tooLarge
  deriving DecidableEq, Repr

def Fault.message : Fault → String
  | .empty => "cannot parse integer from empty string"
  | .invalidDigit => "invalid digit found in string"
  | .tooLarge => "number too large to fit in target type"

def digitChar (d : Nat) : Char := Char.ofNat (0x30 + d)

/-- The value of a digit, in either case, if it is below the base. -/
def digitValue? (base : Nat) (c : Char) : Option Nat :=
  let n := c.toNat
  let value? :=
    if 0x30 ≤ n ∧ n ≤ 0x39 then some (n - 0x30)
    else if 0x61 ≤ n ∧ n ≤ 0x7A then some (n - 0x61 + 10)
    else if 0x41 ≤ n ∧ n ≤ 0x5A then some (n - 0x41 + 10)
    else none
  value?.filter (· < base)

def decimal (n : Nat) : List Char :=
  if n < 10 then [digitChar n] else decimal (n / 10) ++ [digitChar (n % 10)]

def decimalText (n : Nat) : String := String.ofList (decimal n)

/-- An integer in decimal, with a sign if it is negative. -/
def signedText (n : Int) : String :=
  if n < 0 then "-" ++ decimalText n.natAbs else decimalText n.natAbs

/-- A number in decimal, filled with zeros on the left to at least `width` places. -/
def paddedDecimal (width n : Nat) : List Char :=
  List.replicate (width - (decimal n).length) '0' ++ decimal n

/-- The value of digits that follow digits of value `acc`, below `limit`. -/
def parseDigits (base limit : Nat) : Nat → List Char → Except Fault Nat
  | acc, [] => .ok acc
  | acc, c :: rest =>
    match digitValue? base c with
    | none => .error .invalidDigit
    | some d =>
      if acc * base + d < limit then parseDigits base limit (acc * base + d) rest
      else .error .tooLarge

/-- The value of an unsigned numeral below `limit`. -/
def parseUnsigned (base limit : Nat) : List Char → Except Fault Nat
  | [] => .error .empty
  | ['+'] => .error .invalidDigit
  | '+' :: digits => parseDigits base limit 0 digits
  | digits => parseDigits base limit 0 digits

def limit32 : Nat := 4294967296

def limit64 : Nat := 18446744073709551616

theorem digitValue?_digitChar {d : Nat} (h : d < 10) : digitValue? 10 (digitChar d) = some d := by
  have hd : d = 0 ∨ d = 1 ∨ d = 2 ∨ d = 3 ∨ d = 4 ∨ d = 5 ∨ d = 6 ∨ d = 7 ∨ d = 8 ∨ d = 9 := by
    omega
  rcases hd with h | h | h | h | h | h | h | h | h | h <;> subst h <;> decide

theorem parseDigits_append {base limit acc v : Nat} {front back : List Char}
    (h : parseDigits base limit acc front = .ok v) :
    parseDigits base limit acc (front ++ back) = parseDigits base limit v back := by
  induction front generalizing acc with
  | nil =>
    simp only [parseDigits, Except.ok.injEq] at h
    simp [h]
  | cons c rest ih =>
    simp only [parseDigits, List.cons_append] at h ⊢
    split at h
    · simp at h
    · split at h
      · rename_i d hd hl
        simp only [hl, if_true]
        exact ih h
      · simp at h

theorem parseDigits_decimal {limit n : Nat} (h : n < limit) :
    parseDigits 10 limit 0 (decimal n) = .ok n := by
  induction n using Nat.strongRecOn with
  | _ n ih =>
    rw [decimal]
    split
    · rename_i hn
      simp [parseDigits, digitValue?_digitChar hn, h]
    · rename_i hn
      have hlt : n / 10 < n := Nat.div_lt_self (by omega) (by omega)
      rw [parseDigits_append (ih (n / 10) hlt (by omega))]
      have hm : n % 10 < 10 := Nat.mod_lt _ (by omega)
      have he : n / 10 * 10 + n % 10 = n := by omega
      simp [parseDigits, digitValue?_digitChar hm, he, h]

end Number
end KernelDepot
