/-
The file that lacks an include.

A compiler that cannot open a header says so in one line of its log, and this line names the
header and the file that includes it.  The name is taken from the first line that speaks of a
missing header, and the file from the first diagnostic of the whole log.  So the file is the right
one unless there is an earlier diagnostic in another file, and a warning is enough.
-/
import KernelDepot.Compilation
import KernelDepot.Proofs.Diagnostic.Layout
import KernelDepot.Toolchain.Simulated

namespace KernelDepot

namespace Diagnostic

open Text

/-- The line that says that a header cannot be opened. -/
def cannotOpenLine (file : List Char) (n : Nat) (name : List Char) : List Char :=
  file ++ '(' :: (Number.decimal n ++ ("): ".toList ++
    ("catastrophic error".toList ++ ':' :: ([' '] ++ (missingMark ++ (name ++ ['"']))))))

theorem toList_cannotOpen (file name : String) (n : Nat) :
    (SimulatedToolchain.cannotOpen file n name).toList =
      cannotOpenLine file.toList n name.toList ++ ['\n'] := by
  have hmiddle : "): catastrophic error: cannot open source file \"".toList =
      "): ".toList ++ ("catastrophic error".toList ++ ':' :: ([' '] ++ missingMark)) := by
    decide +kernel
  have hend : "\"\n".toList = ['"', '\n'] := by decide
  unfold SimulatedToolchain.cannotOpen cannotOpenLine Number.decimalText
  simp only [String.toList_append, String.toList_ofList, hmiddle, hend, List.append_assoc,
    List.cons_append]
  rfl

section CannotOpen

variable {file name : List Char} {n : Nat}

/-- The line is a diagnostic in its file. -/
theorem ofLine?_cannotOpenLine (hfile : '(' ∉ file) (htrim : trim file ≠ [])
    (hn : n < Number.limit32) : ∃ message, ofLine? (cannotOpenLine file n name) =
      some ⟨String.ofList (trim file), n, none, .error, message⟩ := by
  have hseverity (message : List Char) :
      splitSeverity? ("catastrophic error".toList ++ ':' :: message) =
        some (.error, trim message) :=
    splitSeverity?_append (by decide +kernel) (by decide +kernel) message
  have hedg := ofEdgLine?_append hfile htrim (number?_decimal hn)
    (hseverity ([' '] ++ (missingMark ++ (name ++ ['"']))))
  exact ⟨_, by rw [ofLine?, cannotOpenLine, hedg]; rfl⟩

/-- The line speaks of its header. -/
theorem missingInLine?_cannotOpenLine (hfile : ¬ missingMark <:+: file) (hname : '"' ∉ name) :
    missingInLine? (cannotOpenLine file n name) = some name := by
  have hquote : ¬ missingMark <:+: Number.decimal n ++ ("): ".toList ++
      "catastrophic error".toList) := by
    intro hmark
    have hmem : '"' ∈ Number.decimal n ++ ("): ".toList ++ "catastrophic error".toList) :=
      hmark.subset (by decide)
    rcases List.mem_append.mp hmem with hmem | hmem
    · exact Json.not_mem_decimal (by decide) n hmem
    · exact absurd hmem (by decide)
  have hcut : ∃ front, cut? missingMark (cannotOpenLine file n name) =
      some (front, name ++ ['"']) := by
    unfold cannotOpenLine
    rw [cut?_append_cons hfile (by decide), ← List.append_assoc, ← List.append_assoc,
      List.append_assoc (Number.decimal n), cut?_append_cons hquote (by decide)]
    have hmark : cut? missingMark ([' '] ++ (missingMark ++ (name ++ ['"']))) =
        some ([' '], name ++ ['"']) := cut?_append_mark (by decide) _
    rw [hmark]
    exact ⟨_, rfl⟩
  obtain ⟨front, hcut⟩ := hcut
  unfold missingInLine?
  simp only [hcut, Option.bind_eq_bind, Option.bind_some, cut?_singleton_append hname]
  rfl

/-! ## The whole log -/

/-- The file of the first diagnostic, if `before` are the lines in front of the one that says
that `file` lacks a header. -/
def firstFile (before : List (List Char)) (file : List Char) : String :=
  ((before.findSome? ofLine?).map (·.file)).getD (String.ofList (trim file))

variable {log : String} {before after : List (List Char)}

theorem missingInclude?_of_lines
    (hlog : lines log.toList = before ++ cannotOpenLine file n name :: after)
    (hfile : ¬ missingMark <:+: file) (hname : '"' ∉ name) :
    missingInclude? log =
      some (String.ofList ((before.findSome? missingInLine?).getD name)) := by
  unfold missingInclude?
  rw [hlog, List.findSome?_append, List.findSome?_cons, missingInLine?_cannotOpenLine hfile hname]
  cases before.findSome? missingInLine? <;> rfl

theorem file_head?_ofLog_of_lines
    (hlog : lines log.toList = before ++ cannotOpenLine file n name :: after)
    (hfile : '(' ∉ file) (htrim : trim file ≠ []) (hn : n < Number.limit32) :
    (ofLog log).head?.map (·.file) = some (firstFile before file) := by
  obtain ⟨message, hline⟩ := ofLine?_cannotOpenLine hfile htrim hn
  have hhead : (ofLog log).head? = (lines log.toList).findSome? ofLine? := List.head?_filterMap
  unfold firstFile
  rw [hhead, hlog, List.findSome?_append, List.findSome?_cons, hline]
  cases before.findSome? ofLine? <;> rfl

end CannotOpen

end Diagnostic

namespace PreparedRequest

open Text Diagnostic

theorem outcome_compile_of_log (p : PreparedRequest) (verbose : Bool) {log : String}
    {name file : String} (hmissing : missingInclude? log = some name)
    (hfile : (ofLog log).head?.map (·.file) = some file) (hdeferred : name ∈ p.source.deferred) :
    (p.compile verbose (.done (.error log))).outcome =
      .error (.notFound name (some file) p.space.path.order) := by
  show Except.error (p.explain log {}) = _
  unfold explain
  rw [hmissing]
  show Except.error (if name ∈ p.source.deferred then
    Failure.notFound name ((ofLog log).head?.map (·.file)) p.space.path.order else _) = _
  rw [if_pos hdeferred, hfile]

theorem missingInclude?_of_outcome {p : PreparedRequest} {verbose : Bool} {log : String}
    {name : String} {file : Option String} {order : List String}
    (h : (p.compile verbose (.done (.error log))).outcome = .error (.notFound name file order)) :
    missingInclude? log = some name := by
  have hexplain : p.explain log {} = .notFound name file order := Except.error.inj h
  unfold explain at hexplain
  cases hmissing : missingInclude? log with
  | none =>
    rw [hmissing] at hexplain
    exact nomatch hexplain
  | some other =>
    simp only [hmissing, Option.map_some] at hexplain
    split at hexplain
    · rw [(Failure.notFound.inj hexplain).1]
    · exact nomatch hexplain

/-- A compilation that fails without a question, with a log that says that `file` lacks the header
`name`.  Unless an earlier line speaks of another header, the failure names this one, and with it
the file of the first diagnostic.  So it names the right file exactly if no diagnostic of another
file comes before. -/
theorem outcome_compile_cannotOpen (p : PreparedRequest) (verbose : Bool) {t : Toolchain}
    {log : String} {before after : List (List Char)} {file name : List Char} {n : Nat}
    (hfails : t.compile p.job = .done (.error log))
    (hlog : lines log.toList = before ++ cannotOpenLine file n name :: after)
    (hfile : '(' ∉ file ∧ trim file ≠ [] ∧ ¬ missingMark <:+: file)
    (hn : n < Number.limit32) (hname : '"' ∉ name)
    (hdeferred : String.ofList name ∈ p.source.deferred) :
    ((∀ other, before.findSome? missingInLine? = some other → other = name) →
      (p.compile verbose (t.compile p.job)).outcome = .error (.notFound (String.ofList name)
        (some (firstFile before file)) p.space.path.order)) ∧
    ((p.compile verbose (t.compile p.job)).outcome = .error (.notFound (String.ofList name)
        (some (String.ofList file)) p.space.path.order) ↔
      (∀ other, before.findSome? missingInLine? = some other → other = name) ∧
        firstFile before file = String.ofList file) := by
  obtain ⟨hopen, htrim, hmark⟩ := hfile
  have hmissing := missingInclude?_of_lines hlog hmark hname
  have hfirst := file_head?_ofLog_of_lines hlog hopen htrim hn
  have hanswer (hearlier : ∀ other, before.findSome? missingInLine? = some other → other = name) :
      (p.compile verbose (t.compile p.job)).outcome = .error (.notFound (String.ofList name)
        (some (firstFile before file)) p.space.path.order) := by
    have hmentioned : (before.findSome? missingInLine?).getD name = name := by
      cases hbefore : before.findSome? missingInLine? with
      | none => rfl
      | some other => exact hearlier other hbefore
    rw [hmentioned] at hmissing
    rw [hfails]
    exact p.outcome_compile_of_log verbose hmissing hfirst hdeferred
  refine ⟨hanswer, fun h => ?_, fun ⟨hearlier, hsame⟩ => hsame ▸ hanswer hearlier⟩
  have hearlier : ∀ other, before.findSome? missingInLine? = some other → other = name := by
    intro other hother
    rw [hfails] at h
    have hmentioned := hmissing.symm.trans (missingInclude?_of_outcome h)
    rw [hother] at hmentioned
    exact String.ofList_injective (Option.some.inj hmentioned)
  refine ⟨hearlier, ?_⟩
  have hboth := (hanswer hearlier).symm.trans h
  exact Option.some.inj (Failure.notFound.inj (Except.error.inj hboth)).2.1

end PreparedRequest

/-! ## A warning in another file -/

namespace Warned

open Diagnostic

def warning : String :=
  "warn.cuh(3): warning #177-D: variable \"y\" was declared but never referenced"

def log : String := warning ++ "\n" ++ SimulatedToolchain.cannotOpen "main.cu" 1 "x.h"

def toolchain : Toolchain :=
  ScriptedToolchain.toolchain { identity := ⟨"t", "1"⟩, includes := [], result := .error log }

/-- A program whose only include nobody has. -/
def request : PreparedRequest where
  request := .single "k" (.inline "#include \"x.h\"\n") "sm_80"
  arch := .sm 8 0
  flags := []
  space := ⟨{}, {}, []⟩
  source := ⟨"text", Text.bytes "#include \"x.h\"\n", [], [], ["x.h"]⟩

theorem lines_log : Text.lines log.toList =
    [warning.toList] ++ cannotOpenLine "main.cu".toList 1 "x.h".toList :: [] := by
  unfold log
  rw [String.toList_append, String.toList_append, toList_cannotOpen]
  decide +kernel

theorem firstFile_eq : firstFile [warning.toList] "main.cu".toList = "warn.cuh" := by
  decide +kernel

/-- The failure names the file that a warning is about and not the one that lacks the header. -/
theorem outcome_ne_includer : (request.compile false (toolchain.compile request.job)).outcome ≠
    .error (.notFound "x.h" (some "main.cu") request.space.path.order) := by
  have hiff := (request.outcome_compile_cannotOpen false (t := toolchain) rfl lines_log
    (by decide +kernel) (by decide) (by decide) List.mem_cons_self).2
  intro h
  exact absurd (firstFile_eq.symm.trans (hiff.mp h).2) (by decide)

end Warned
end KernelDepot
