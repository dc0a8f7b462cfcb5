/-
Written logs.

What a compiler with the EDG front end writes is read back: every report, in order, with its
severity and its message, and no other diagnostic.  The message may have any marks in it, even
those of another report, because the file has no parenthesis, the number no closing one and the
head no colon, so each cut comes before the message.
-/
import KernelDepot.Diagnostic.Report
import KernelDepot.Proofs.Diagnostic.Layout
import KernelDepot.Proofs.Text.Lines

namespace KernelDepot
namespace Diagnostic

open Text

theorem ofLine?_of_colon_not_mem {line : List Char} (h : ':' ∉ line) : ofLine? line = none := by
  have hedg : ofEdgLine? line = none := by
    unfold ofEdgLine?
    cases hopen : cut? ['('] line with
    | none => rfl
    | some parts =>
      have hrest : ':' ∉ parts.2 := by
        intro hmem
        rw [eq_of_cut? hopen] at h
        exact h (List.mem_append_right _ hmem)
      have hclose : cut? "): ".toList parts.2 = none :=
        cut?_eq_none_of_not_mem (show ':' ∈ "): ".toList by decide) hrest
      simp only [Option.bind_eq_bind, Option.bind_some, hclose, Option.bind_none]
  have hcolon : ofColonLine? line = none := by
    unfold ofColonLine?
    rw [cut?_eq_none_of_not_mem List.mem_cons_self h]
    rfl
  rw [ofLine?, hedg, hcolon]
  rfl

/-! ## Heads -/

namespace Head

/-- What is behind the number sign of a warning. -/
def code (digits : List Char) (isDiscretionary : Bool) : List Char :=
  digits ++ if isDiscretionary then ['-', 'D'] else []

theorem toList_numberedWarning {digits : String} (isDigit : ∀ c ∈ digits.toList, c.isDigit = true)
    (isDiscretionary : Bool) : (numberedWarning digits isDigit isDiscretionary).text.toList =
      "warning ".toList ++ '#' :: code digits.toList isDiscretionary := by
  have hsign : "warning #".toList = "warning ".toList ++ ['#'] := by decide
  unfold text code
  rw [String.toList_append, String.toList_append, hsign, List.append_assoc, List.append_assoc,
    List.singleton_append]
  cases isDiscretionary <;> rfl

theorem mem_code {digits : List Char} (isDigit : ∀ c ∈ digits, c.isDigit = true)
    {isDiscretionary : Bool} {c : Char} (h : c ∈ code digits isDiscretionary) :
    c.isDigit = true ∨ c = '-' ∨ c = 'D' := by
  rcases List.mem_append.mp h with h | h
  · exact .inl (isDigit c h)
  · cases isDiscretionary with
    | false => exact absurd h List.not_mem_nil
    | true => simpa using Or.inr h

theorem not_mem_text {c : Char} (hc : c = ':' ∨ c = '\n') (h : Head) : c ∉ h.text.toList := by
  cases h with
  | numberedWarning digits isDigit isDiscretionary =>
    have hword : c ∉ "warning ".toList := by
      rcases hc with rfl | rfl <;> decide
    have hcode : c ∉ '#' :: code digits.toList isDiscretionary := by
      intro hmem
      rcases List.mem_cons.mp hmem with rfl | hmem
      · exact absurd hc (by decide)
      · rcases mem_code isDigit hmem with hdigit | rfl | rfl
        · rcases hc with rfl | rfl <;> exact absurd hdigit (by decide)
        · exact absurd hc (by decide)
        · exact absurd hc (by decide)
    rw [toList_numberedWarning, List.mem_append]
    exact not_or.mpr ⟨hword, hcode⟩
  | _ => rcases hc with rfl | rfl <;> decide

/-- A head that starts with `warning` is one unless it ends in `error`, and the last character
tells. -/
theorem severity?_of_warning {head : List Char} (hstart : "warning".toList <+: head)
    (hlast : head.getLast? ≠ some 'r') : severity? head = some .warning := by
  have hsuffix : ¬ "error".toList <:+ head := by
    rintro ⟨front, rfl⟩
    refine hlast ?_
    rw [List.getLast?_append_of_ne_nil _ (by decide)]
    rfl
  have hprefix : ¬ "error".toList <+: head := by
    obtain ⟨rest, rfl⟩ := hstart
    rintro ⟨rest', heq⟩
    have hhead : some 'e' = some 'w' := congrArg List.head? heq
    exact absurd hhead (by decide)
  unfold severity?
  rw [if_neg, if_pos (List.isPrefixOf_iff_prefix.mpr hstart)]
  rw [List.isSuffixOf_iff_suffix, List.isPrefixOf_iff_prefix]
  exact not_or.mpr ⟨hsuffix, hprefix⟩

theorem severity?_text (h : Head) : severity? (trim h.text.toList) = some h.severity := by
  cases h with
  | numberedWarning digits isDigit isDiscretionary =>
    rw [toList_numberedWarning]
    have hlast {c : Char} (hc : ("warning ".toList ++
        '#' :: code digits.toList isDiscretionary).getLast? = some c) :
        isBlank c = false ∧ c ≠ 'r' := by
      rw [List.getLast?_append_of_ne_nil _ (List.cons_ne_nil _ _)] at hc
      rcases List.mem_cons.mp (List.mem_of_getLast? hc) with rfl | hmem
      · decide
      · rcases mem_code isDigit hmem with hdigit | rfl | rfl
        · exact ⟨Number.isBlank_of_isDigit hdigit, fun e => absurd (e ▸ hdigit) (by decide)⟩
        · decide
        · decide
    have hfirst {c : Char} (hc : ("warning ".toList ++
        '#' :: code digits.toList isDiscretionary).head? = some c) : isBlank c = false := by
      obtain rfl : 'w' = c := Option.some.inj hc
      decide
    rw [trim_eq_self_of_ends (fun _ => hfirst) fun _ hc => (hlast hc).1]
    refine severity?_of_warning ?_ fun hr => (hlast hr).2 rfl
    exact (List.prefix_append "warning".toList [' ']).trans (List.prefix_append "warning ".toList _)
  | _ => decide

end Head

/-! ## Reports -/

namespace Report

/-- What a report is taken to be written with. -/
structure IsWritable (r : Report) : Prop where
  file_ne : r.file ≠ ""
  file : IsTrimmedLine r.file
  opening_not_mem_file : '(' ∉ r.file.toList
  line_lt : r.line < Number.limit32
  message : IsTrimmedLine r.message

variable {r : Report}

theorem toList_text (r : Report) : r.text.toList = r.file.toList ++ '(' ::
    (Number.decimal r.line ++ ("): ".toList ++
      (r.head.text.toList ++ ':' :: ' ' :: r.message.toList))) := by
  unfold text Number.decimalText
  simp only [String.toList_append, String.toList_ofList, List.append_assoc]
  rfl

theorem newline_not_mem_text (h : r.IsWritable) : '\n' ∉ r.text.toList := by
  have hnumber : '\n' ∉ Number.decimal r.line := Json.not_mem_decimal (by decide) _
  have hhead : '\n' ∉ r.head.text.toList := r.head.not_mem_text (.inr rfl)
  have hclose : '\n' ∉ "): ".toList := by decide
  rw [toList_text]
  simp only [List.mem_append, List.mem_cons, h.file.newline_not_mem, hnumber, hclose, hhead,
    h.message.newline_not_mem, or_false, false_or]
  decide

/-- The return that a line can end in is not taken from a report, because its message ends in no
blank. -/
theorem withoutReturn_text (h : r.IsWritable) : withoutReturn r.text.toList = r.text.toList := by
  refine withoutReturn_of_getLast? ?_
  have hend : r.text.toList = r.file.toList ++ '(' :: (Number.decimal r.line ++ ("): ".toList ++
      (r.head.text.toList ++ [':']))) ++ ' ' :: r.message.toList := by
    rw [toList_text]
    simp only [List.append_assoc, List.cons_append, List.nil_append]
  rw [hend, List.getLast?_append_of_ne_nil _ (List.cons_ne_nil _ _)]
  by_cases hmessage : r.message.toList = []
  · rw [hmessage]
    decide
  · rw [← List.singleton_append, List.getLast?_append_of_ne_nil _ hmessage]
    intro hlast
    rw [← h.message.trim_eq] at hlast
    exact absurd (not_blank_of_getLast?_trim hlast) (by decide)

/-- A report is read back. -/
theorem ofLine?_text (h : r.IsWritable) : ofLine? r.text.toList = some r.diagnostic := by
  have hbody : splitSeverity? (r.head.text.toList ++ ':' :: ' ' :: r.message.toList) =
      some (r.head.severity, r.message.toList) := by
    rw [splitSeverity?_append (r.head.not_mem_text (.inl rfl))
      r.head.severity?_text, trim_cons_of_blank (by decide), h.message.trim_eq]
  have hfile : trim r.file.toList ≠ [] := by
    rw [h.file.trim_eq]
    exact fun hnil => h.file_ne (String.toList_eq_nil_iff.mp hnil)
  have hedg := ofEdgLine?_append h.opening_not_mem_file hfile (number?_decimal h.line_lt) hbody
  rw [ofLine?, toList_text, hedg, h.file.trim_eq, String.ofList_toList, String.ofList_toList]
  rfl

end Report

/-! ## The whole log -/

namespace LogLine

/-- What the lines of a log are taken to be: a line that is no report has no colon. -/
def IsWritable : LogLine → Prop
  | report r => r.IsWritable
  | other text => ':' ∉ text.toList ∧ '\n' ∉ text.toList

variable {l : LogLine}

theorem newline_not_mem_text (h : l.IsWritable) : '\n' ∉ l.text.toList := by
  cases l with
  | report r => exact r.newline_not_mem_text h
  | other text => exact h.2

theorem ofLine?_text (h : l.IsWritable) : ofLine? l.text.toList = l.diagnostic? := by
  cases l with
  | report r => exact r.ofLine?_text h
  | other text => exact ofLine?_of_colon_not_mem h.1

theorem ofLine?_withoutReturn_text (h : l.IsWritable) :
    ofLine? (withoutReturn l.text.toList) = ofLine? l.text.toList := by
  cases l with
  | report r => exact congrArg ofLine? (r.withoutReturn_text h)
  | other text =>
    have hcolon : ':' ∉ withoutReturn text.toList := fun hmem =>
      h.1 (withoutReturn_subset _ hmem)
    exact (ofLine?_of_colon_not_mem hcolon).trans (ofLine?_of_colon_not_mem h.1).symm

end LogLine

/-- The diagnostics of a written log are its reports, in order, with no column, the severity of
the head and the message as it is. -/
theorem ofLog_logOf {log : List LogLine} (h : ∀ l ∈ log, l.IsWritable) :
    ofLog (logOf log) = log.filterMap LogLine.diagnostic? := by
  have htext : (logOf log).toList =
      ['\n'].intercalate (log.map fun l => l.text.toList) := by
    unfold logOf
    rw [String.toList_intercalate, List.map_map]
    rfl
  have hnewline : ∀ line ∈ log.map fun l => l.text.toList, '\n' ∉ line := by
    intro line hline
    obtain ⟨l, hl, rfl⟩ := List.mem_map.mp hline
    exact LogLine.newline_not_mem_text (h l hl)
  have hreturn : ∀ line ∈ log.map fun l => l.text.toList,
      ofLine? (withoutReturn line) = ofLine? line := by
    intro line hline
    obtain ⟨l, hl, rfl⟩ := List.mem_map.mp hline
    exact LogLine.ofLine?_withoutReturn_text (h l hl)
  calc ofLog (logOf log)
      = (lines (['\n'].intercalate (log.map fun l => l.text.toList))).filterMap ofLine? := by
        rw [← htext]
        rfl
    _ = (log.map fun l => l.text.toList).filterMap ofLine? :=
        filterMap_lines_intercalate hnewline rfl hreturn
    _ = log.filterMap LogLine.diagnostic? := by
        rw [List.filterMap_map]
        exact List.filterMap_congr fun l hl => LogLine.ofLine?_text (h l hl)

/-! ## A message that quotes another report -/

namespace Quoting

def warning : Report :=
  ⟨"C:vec.cuh:7", 4294967295, .numberedWarning "0177" (List.all_eq_true.mp (by decide)) true,
    "f(x): main.cu(4): error: y"⟩

def failure : Report := ⟨"main.cu", 0, .catastrophicError, ""⟩

def log : List LogLine :=
  [.other "", .report warning, .other "    int y;\r", .other "    (    ^)", .report failure,
    .other "1 error detected", .other ""]

theorem isWritable_log : ∀ l ∈ log, l.IsWritable := by
  have hother {text : String} (h : ':' ∉ text.toList ∧ '\n' ∉ text.toList) :
      (LogLine.other text).IsWritable := h
  have hwarning : warning.IsWritable :=
    ⟨by decide, ⟨by decide, by decide⟩, by decide, by decide,
      ⟨by decide, by decide⟩⟩
  have hfailure : failure.IsWritable :=
    ⟨by decide, ⟨by decide, by decide⟩, by decide, by decide,
      ⟨by decide, by decide⟩⟩
  simp only [log, List.forall_mem_cons]
  exact ⟨hother (by decide), hwarning, hother (by decide),
    hother (by decide), hfailure, hother (by decide), hother (by decide),
    nofun⟩

/-- The file looks like that of the other layout and the message like a report. -/
theorem ofLog_log : (∀ l ∈ log, l.IsWritable) ∧ ofLog (logOf log) =
    [⟨"C:vec.cuh:7", 4294967295, none, .warning, "f(x): main.cu(4): error: y"⟩,
      ⟨"main.cu", 0, none, .error, ""⟩] :=
  ⟨isWritable_log, ofLog_logOf isWritable_log⟩

end Quoting

end Diagnostic
end KernelDepot
