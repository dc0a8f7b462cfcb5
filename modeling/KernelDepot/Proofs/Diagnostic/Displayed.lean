/-
Diagnostics that are written and read back.

The written form of a diagnostic is that of clang and GCC, but a line is offered to the EDG layout
first, and there the file goes as far as the first parenthesis.  So a diagnostic comes back as it
was unless its message reads, from its first parenthesis on, like the rest of an EDG report: a
number, `): `, and a severity with a colon.  Then all that stands in front of the parenthesis is
taken for the file.
-/
import KernelDepot.Proofs.Diagnostic.Layout
import KernelDepot.Proofs.Text.Lines

namespace KernelDepot
namespace Diagnostic

open Text

/-- What makes a message read like the rest of a report from its first parenthesis on. -/
structure Quotation (message : List Char) where
  front : List Char
  digits : List Char
  line : Nat
  head : List Char
  severity : Severity
  rest : List Char
  message_eq : message = front ++ '(' :: (digits ++ ("): ".toList ++ (head ++ ':' :: rest)))
  opening_not_mem : '(' ∉ front
  number : number? digits = some line
  colon_not_mem : ':' ∉ head
  severity_eq : severity? (trim head) = some severity

/-- What a diagnostic is taken to be written with. -/
structure IsDisplayable (d : Diagnostic) : Prop where
  file_ne : d.file ≠ ""
  file : IsTrimmedLine d.file
  colon_not_mem_file : ':' ∉ d.file.toList
  opening_not_mem_file : '(' ∉ d.file.toList
  line_lt : d.line < Number.limit32
  column_lt : ∀ column, d.column = some column → column < Number.limit32
  message : IsTrimmedLine d.message

/-- The written form up to the message. -/
def lead (d : Diagnostic) : List Char :=
  d.file.toList ++ ':' :: (Number.decimal d.line ++ ':' ::
    ((match d.column with
      | some column => Number.decimal column ++ [':']
      | none => []) ++ ' ' :: (d.severity.name.toList ++ ':' :: [' '])))

variable {d : Diagnostic}

theorem toList_text (d : Diagnostic) : d.text.toList = d.lead ++ d.message.toList := by
  unfold text lead Number.decimalText
  cases d.column <;>
    simp only [String.toList_append, String.toList_ofList, List.append_assoc, List.cons_append,
      List.nil_append] <;> rfl

theorem severity?_name (s : Severity) : severity? (trim s.name.toList) = some s := by
  cases s <;> decide +kernel

theorem number?_name (s : Severity) : number? (' ' :: s.name.toList) = none := by
  cases s <;> decide +kernel

/-- The name of a severity starts with no blank. -/
theorem trimStart_name_append (s : Severity) (rest : List Char) :
    trimStart (s.name.toList ++ rest) = s.name.toList ++ rest := by
  cases s <;> exact trimStart_cons_of_not_blank (by decide) _

/-- In the layout of clang and GCC a diagnostic is read back whatever its message is. -/
theorem ofColonLine?_text (h : d.IsDisplayable) : ofColonLine? d.text.toList = some d := by
  have hdecimal (n : Nat) : ':' ∉ Number.decimal n := Json.not_mem_decimal (by decide) n
  have hname : ':' ∉ d.severity.name.toList := by
    cases d.severity <;> decide
  have hspaced : ':' ∉ ' ' :: d.severity.name.toList := by
    rw [List.mem_cons]
    exact not_or.mpr ⟨by decide, hname⟩
  have hfile : trim d.file.toList = d.file.toList := h.file.trim_eq
  have hempty : d.file.toList.isEmpty = false := by
    rw [List.isEmpty_eq_false_iff]
    exact fun hnil => h.file_ne (String.toList_eq_nil_iff.mp hnil)
  have hmake (column : Option Nat) : make? d.file.toList d.line column
      (d.severity.name.toList ++ ':' :: ' ' :: d.message.toList) =
        some ⟨d.file, d.line, column, d.severity, d.message⟩ := by
    unfold make?
    rw [splitSeverity?_append hname (severity?_name _), trim_cons_of_blank (by decide),
      h.message.trim_eq]
    simp only [hempty, Bool.false_eq_true, if_false, Option.bind_eq_bind, Option.bind_some,
      String.ofList_toList]
    rfl
  have hbody : trimStart (' ' :: (d.severity.name.toList ++ ':' :: ' ' :: d.message.toList)) =
      d.severity.name.toList ++ ':' :: ' ' :: d.message.toList := by
    rw [trimStart_cons_of_blank (by decide), trimStart_name_append]
  have hcut : cut? [':'] (' ' :: (d.severity.name.toList ++ ':' :: ' ' :: d.message.toList)) =
      some (' ' :: d.severity.name.toList, ' ' :: d.message.toList) := by
    rw [← List.cons_append, cut?_singleton_append hspaced]
  rw [toList_text]
  unfold lead ofColonLine?
  cases hcolumn : d.column with
  | none =>
    simp only [List.append_assoc, List.cons_append, List.nil_append,
      cut?_singleton_append h.colon_not_mem_file, cut?_singleton_append (hdecimal _), hcut,
      number?_decimal h.line_lt, number?_name, Option.bind_eq_bind, Option.bind_some,
      Option.map_some, Option.getD_some, hfile, hbody, hmake]
    rw [← hcolumn]
  | some column =>
    simp only [List.append_assoc, List.cons_append, List.nil_append,
      cut?_singleton_append h.colon_not_mem_file, cut?_singleton_append (hdecimal _),
      number?_decimal h.line_lt, number?_decimal (h.column_lt column hcolumn),
      Option.bind_eq_bind, Option.bind_some, Option.map_some, Option.getD_some, hfile, hbody,
      hmake]
    rw [← hcolumn]

/-- In front of the message stand an opening parenthesis and a newline only if the file has them. -/
theorem not_mem_lead {c : Char} (hc : c = '(' ∨ c = '\n') (hfile : c ∉ d.file.toList) :
    c ∉ d.lead := by
  have hdecimal (n : Nat) : c ∉ Number.decimal n := by
    rcases hc with rfl | rfl <;> exact Json.not_mem_decimal (by decide) n
  have hname : c ∉ d.severity.name.toList := by
    cases d.severity <;> rcases hc with rfl | rfl <;> decide
  have hmark : c ≠ ':' ∧ c ≠ ' ' := by
    rcases hc with rfl | rfl <;> decide
  unfold lead
  cases d.column <;> simp [hfile, hdecimal, hname, hmark]

theorem colon_mem_lead (d : Diagnostic) : ':' ∈ d.lead :=
  List.mem_append_right _ List.mem_cons_self

theorem newline_not_mem_text (h : d.IsDisplayable) : '\n' ∉ d.text.toList := by
  rw [toList_text, List.mem_append]
  exact not_or.mpr ⟨not_mem_lead (.inr rfl) h.file.newline_not_mem, h.message.newline_not_mem⟩

/-! ## The layout with parentheses -/

/-- What the written form is taken for if the message quotes a report. -/
def misread (d : Diagnostic) (q : Quotation d.message.toList) : Diagnostic :=
  ⟨String.ofList (trim (d.lead ++ q.front)), q.line, none, q.severity,
    String.ofList (trim q.rest)⟩

theorem ofEdgLine?_text (h : d.IsDisplayable) (q : Quotation d.message.toList) :
    ofEdgLine? d.text.toList = some (d.misread q) := by
  have hfile : '(' ∉ d.lead ++ q.front := by
    rw [List.mem_append]
    exact not_or.mpr ⟨not_mem_lead (.inl rfl) h.opening_not_mem_file, q.opening_not_mem⟩
  have htrim : trim (d.lead ++ q.front) ≠ [] :=
    List.ne_nil_of_mem (mem_trim_of_mem (by decide) (List.mem_append_left _ d.colon_mem_lead))
  rw [toList_text, q.message_eq, ← List.append_assoc]
  exact ofEdgLine?_append hfile htrim q.number
    (splitSeverity?_append q.colon_not_mem q.severity_eq q.rest)

/-- Nothing in front of the message makes the written form a line with parentheses. -/
theorem exists_quotation_of_ofEdgLine? {e : Diagnostic} (h : d.IsDisplayable)
    (he : ofEdgLine? d.text.toList = some e) : Nonempty (Quotation d.message.toList) := by
  obtain ⟨file, digits, n, body, severity, message, hline, hfile, hnumber, hbody⟩ :=
    exists_of_ofEdgLine? he
  obtain ⟨head, rest, rfl, hhead, hseverity, -⟩ := splitSeverity?_eq_some_iff.mp hbody
  have hlead : '(' ∉ d.lead := not_mem_lead (.inl rfl) h.opening_not_mem_file
  have hfront : ∃ front, file = d.lead ++ front ∧
      d.message.toList = front ++ '(' :: (digits ++ ("): ".toList ++ (head ++ ':' :: rest))) := by
    rw [toList_text] at hline
    rcases List.append_eq_append_iff.mp hline with ⟨front, hf, hm⟩ | ⟨more, hl, hm⟩
    · exact ⟨front, hf, hm⟩
    · cases more with
      | nil => exact ⟨[], by rw [hl, List.append_nil, List.append_nil], hm.symm⟩
      | cons c more =>
        obtain ⟨rfl, -⟩ := List.cons.inj hm
        exact absurd (hl ▸ List.mem_append_right _ List.mem_cons_self) hlead
  obtain ⟨front, rfl, hmessage⟩ := hfront
  exact ⟨front, digits, n, head, severity, rest, hmessage,
    fun hmem => hfile (List.mem_append_right _ hmem), hnumber, hhead, hseverity⟩

theorem ofLog_text (h : d.IsDisplayable) :
    ofLog d.text = [(ofEdgLine? d.text.toList).getD d] := by
  have hne : d.text.toList ≠ [] := by
    rw [toList_text]
    exact List.ne_nil_of_mem (List.mem_append_left _ d.colon_mem_lead)
  have hline : ofLine? d.text.toList = some ((ofEdgLine? d.text.toList).getD d) := by
    rw [ofLine?, ofColonLine?_text h]
    cases ofEdgLine? d.text.toList <;> rfl
  calc ofLog d.text
      = (lines d.text.toList).filterMap ofLine? := rfl
    _ = [d.text.toList].filterMap ofLine? := by rw [lines_of_not_mem (newline_not_mem_text h) hne]
    _ = [(ofEdgLine? d.text.toList).getD d] := List.filterMap_cons_some hline

/-- The file of the reading is no file of the written form, since there is a colon in it. -/
theorem misread_ne (h : d.IsDisplayable) (q : Quotation d.message.toList) : d.misread q ≠ d := by
  intro heq
  have hcolon : ':' ∈ (d.misread q).file.toList := by
    unfold misread
    rw [String.toList_ofList]
    exact mem_trim_of_mem (by decide) (List.mem_append_left _ d.colon_mem_lead)
  exact h.colon_not_mem_file (heq ▸ hcolon)

/-- A diagnostic that is written and read back is the same exactly if its message quotes no
report.  If it does, then one diagnostic comes back that has the number, the severity and the
message of the report, and all in front of the report is its file. -/
theorem ofLog_text_eq_iff (h : d.IsDisplayable) :
    (ofLog d.text = [d] ↔ IsEmpty (Quotation d.message.toList)) ∧
      ∀ q : Quotation d.message.toList, ofLog d.text = [d.misread q] := by
  have hmisread (q : Quotation d.message.toList) : ofLog d.text = [d.misread q] := by
    rw [ofLog_text h, ofEdgLine?_text h q, Option.getD_some]
  refine ⟨⟨fun hsame => ⟨fun q => ?_⟩, fun hempty => ?_⟩, hmisread⟩
  · exact misread_ne h q (List.singleton_inj.mp ((hmisread q).symm.trans hsame))
  · have hnone : ofEdgLine? d.text.toList = none := by
      by_contra hsome
      obtain ⟨e, he⟩ := Option.ne_none_iff_exists'.mp hsome
      obtain ⟨q⟩ := exists_quotation_of_ofEdgLine? h he
      exact hempty.false q
    rw [ofLog_text h, hnone, Option.getD_none]

/-! ## An assertion that quotes a warning -/

namespace Quoting

def assertion : Diagnostic :=
  ⟨"main.cu", 7, some 1, .error, "static assertion failed: vec.cuh(3): warning: unsupported"⟩

def quotation : Quotation assertion.message.toList where
  front := "static assertion failed: vec.cuh".toList
  digits := ['3']
  line := 3
  head := "warning".toList
  severity := .warning
  rest := " unsupported".toList
  message_eq := by decide
  opening_not_mem := by decide
  number := by decide
  colon_not_mem := by decide
  severity_eq := by decide

theorem isDisplayable_assertion : assertion.IsDisplayable where
  file_ne := by decide
  file := ⟨by decide, by decide⟩
  colon_not_mem_file := by decide
  opening_not_mem_file := by decide
  line_lt := by decide
  column_lt := by
    intro column hcolumn
    obtain rfl : 1 = column := Option.some.inj hcolumn
    decide
  message := ⟨by decide, by decide⟩

/-- The error comes back as a warning in a file that does not exist. -/
theorem ofLog_text_assertion : assertion.IsDisplayable ∧ ofLog assertion.text ≠ [assertion] ∧
    ofLog assertion.text =
      [⟨"main.cu:7:1: error: static assertion failed: vec.cuh", 3, none, .warning,
        "unsupported"⟩] := by
  have hiff := ofLog_text_eq_iff isDisplayable_assertion
  have hmisread : assertion.misread quotation =
      ⟨"main.cu:7:1: error: static assertion failed: vec.cuh", 3, none, .warning,
        "unsupported"⟩ := by
    decide +kernel
  exact ⟨isDisplayable_assertion, fun hsame => (hiff.1.mp hsame).false quotation,
    hmisread ▸ hiff.2 quotation⟩

end Quoting

end Diagnostic
end KernelDepot
