/-
The two layouts of a diagnostic.

A line is cut at the marks of a layout, and each cut is where its mark stands for the first time.
So a line is read as one of the EDG layout if and only if what is behind its first parenthesis is
a number, a closing parenthesis with a colon, and a severity with a colon.  What is in front of
the parenthesis counts as the file, whatever it is.
-/
import KernelDepot.Diagnostic.Log
import KernelDepot.Proofs.Number
import KernelDepot.Proofs.Text.Search
import KernelDepot.Proofs.Text.Trimmed

namespace KernelDepot
namespace Diagnostic

open Text

/-- A line without blanks at its ends. -/
structure IsTrimmedLine (s : String) : Prop where
  trim_eq : trim s.toList = s.toList
  newline_not_mem : '\n' ∉ s.toList

theorem number?_decimal {n : Nat} (h : n < Number.limit32) :
    number? (Number.decimal n) = some n := by
  unfold number?
  rw [trim_eq_self (Number.isWord_decimal n).not_blank, Number.parseUnsigned_decimal h]

theorem splitSeverity?_append {word : List Char} {severity : Severity} (hcolon : ':' ∉ word)
    (hword : severity? (trim word) = some severity) (message : List Char) :
    splitSeverity? (word ++ ':' :: message) = some (severity, trim message) := by
  unfold splitSeverity?
  rw [cut?_singleton_append hcolon]
  simp only [Option.bind_eq_bind, Option.bind_some, hword]
  rfl

/-- A line of the log as the first known layout that fits it. -/
def ofLine? (line : List Char) : Option Diagnostic := (ofEdgLine? line).or (ofColonLine? line)

/-- No parenthesis is in a number. -/
theorem closing_not_mem_of_number? {cs : List Char} {n : Nat} (h : number? cs = some n) :
    ')' ∉ cs := by
  intro hmem
  unfold number? at h
  split at h
  next m hparse =>
    have hvalue := Number.eq_plus_or_isSome_of_parseUnsigned hparse _
      (mem_trim_of_mem (show isBlank ')' = false by decide) hmem)
    exact absurd hvalue (by decide)
  next => cases h

theorem splitSeverity?_eq_some_iff {cs message : List Char} {severity : Severity} :
    splitSeverity? cs = some (severity, message) ↔ ∃ head rest, cs = head ++ ':' :: rest ∧
      ':' ∉ head ∧ severity? (trim head) = some severity ∧ trim rest = message := by
  constructor
  · intro h
    unfold splitSeverity? at h
    obtain ⟨⟨head, rest⟩, hcut, h⟩ := Option.bind_eq_some_iff.mp h
    obtain ⟨found, hfound, h⟩ := Option.bind_eq_some_iff.mp h
    obtain ⟨rfl, rfl⟩ := Prod.mk.inj (Option.some.inj h)
    obtain ⟨rfl, hhead⟩ := cut?_singleton_eq_some_iff.mp hcut
    exact ⟨head, rest, rfl, hhead, hfound, rfl⟩
  · rintro ⟨head, rest, rfl, hhead, hseverity, rfl⟩
    exact splitSeverity?_append hhead hseverity rest

section Edg

variable {file digits body message : List Char} {n : Nat} {severity : Severity}

theorem ofEdgLine?_append (hfile : '(' ∉ file) (htrim : trim file ≠ [])
    (hdigits : number? digits = some n)
    (hbody : splitSeverity? body = some (severity, message)) :
    ofEdgLine? (file ++ '(' :: (digits ++ ("): ".toList ++ body))) =
      some ⟨String.ofList (trim file), n, none, severity, String.ofList message⟩ := by
  have hcut : cut? "): ".toList (digits ++ ("): ".toList ++ body)) = some (digits, body) :=
    cut?_append_mark (closing_not_mem_of_number? hdigits) body
  unfold ofEdgLine?
  simp only [cut?_singleton_append hfile, hcut, hdigits, Option.bind_eq_bind, Option.bind_some,
    make?, hbody]
  rw [if_neg (by rwa [List.isEmpty_iff])]
  rfl

theorem exists_of_make? {column : Option Nat} {d : Diagnostic}
    (h : make? file n column body = some d) :
    ∃ severity message, splitSeverity? body = some (severity, message) := by
  unfold make? at h
  split at h
  · cases h
  · obtain ⟨⟨severity, message⟩, hbody, -⟩ := Option.bind_eq_some_iff.mp h
    exact ⟨severity, message, hbody⟩

/-- What reads as a line of the EDG layout is one. -/
theorem exists_of_ofEdgLine? {line : List Char} {d : Diagnostic} (h : ofEdgLine? line = some d) :
    ∃ file digits n body severity message,
      line = file ++ '(' :: (digits ++ ("): ".toList ++ body)) ∧ '(' ∉ file ∧
      number? digits = some n ∧ splitSeverity? body = some (severity, message) := by
  obtain ⟨⟨file, rest⟩, hopen, hrest⟩ := Option.bind_eq_some_iff.mp h
  obtain ⟨⟨digits, body⟩, hclose, hbody⟩ := Option.bind_eq_some_iff.mp hrest
  obtain ⟨n, hn, hmake⟩ := Option.bind_eq_some_iff.mp hbody
  obtain ⟨hline, hfile⟩ := cut?_singleton_eq_some_iff.mp hopen
  obtain ⟨severity, message, hseverity⟩ := exists_of_make? hmake
  refine ⟨file, digits, n, body, severity, message, ?_, hfile, hn, hseverity⟩
  rw [hline, eq_of_cut? hclose, List.append_assoc]

end Edg

end Diagnostic
end KernelDepot
