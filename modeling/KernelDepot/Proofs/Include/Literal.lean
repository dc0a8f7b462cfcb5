/-
A string literal in front of a text.

Quotes have no meaning to the reader of comments, so the body of a literal is read as code.
A body that leaves a block comment open hides the lines behind it up to the next closer: the
quote and the semicolon behind the body do not end the comment.  That is the only way in which
a literal changes what is found in the lines behind it.
-/
import KernelDepot.Proofs.Include.Reader

namespace KernelDepot

open Text

namespace Comment

theorem read_closing_quote (mode : Mode) : (read mode "\";".toList).2 = mode := by
  cases mode <;> rfl

end Comment

namespace Directive

/-- A line that declares a string. -/
def literal (body : List Char) : List Char :=
  "const char* s = \"".toList ++ (body ++ "\";".toList)

/-- Read as code, a text leaves a block comment open. -/
def OpensBlock (body : List Char) : Prop := (Comment.read .code body).2 = .block

instance (body : List Char) : Decidable (OpensBlock body) :=
  inferInstanceAs (Decidable (_ = _))

/-- The directive one line further down, with the line in 32 bits. -/
def later (d : Directive) : Directive := { d with line := d.line + 1 }

theorem ofLines_numberedFrom_succ (ls : List (List Char)) (inBlock : Bool) (n : Nat) :
    ofLines inBlock (numberedFrom (n + 1) ls) =
      (ofLines inBlock (numberedFrom n ls)).map later := by
  induction ls generalizing inBlock n with
  | nil => rfl
  | cons line ls ih =>
    rw [numberedFrom, numberedFrom, ofLines, ofLines]
    simp only
    rw [ih]
    cases inCode? (Comment.strip inBlock line).1 with
    | none => rfl
    | some parts =>
      rw [List.map_cons, later, UInt32.ofNat_add]
      rfl

theorem newline_not_mem_literal {body : List Char} (h : '\n' ∉ body) : '\n' ∉ literal body := by
  unfold literal
  simp only [List.mem_append, not_or]
  exact ⟨by decide, h, by decide⟩

theorem strip_literal {body : List Char} (h : '\n' ∉ body) :
    inCode? (Comment.strip false (literal body)).1 = none ∧
      (Comment.strip false (literal body)).2 = decide (OpensBlock body) := by
  have hread : Comment.read .code (literal body) =
      (Comment.read .code (body ++ "\";".toList)).map ("const char* s = \"".toList ++ ·) id := rfl
  have hbody := @Comment.read_append "\";".toList (by decide) (by decide) .code body
  rw [Comment.strip_eq_read (newline_not_mem_literal h)]
  constructor
  · show inCode? (Comment.read .code (literal body)).1 = none
    rw [hread]
    rfl
  · show decide ((Comment.read .code (literal body)).2 = .block) = _
    rw [hread, hbody, Prod.map_snd, Prod.map_snd, Comment.read_closing_quote]
    rfl

theorem ofText_literal {body : List Char} (h : '\n' ∉ body) (rest : List Char) :
    ofText (literal body ++ '\n' :: rest) =
      (ofLines (decide (OpensBlock body)) (numberedLines rest)).map later := by
  obtain ⟨hcode, hopen⟩ := strip_literal h
  rw [ofText, numberedLines, ofLines_append_newline (newline_not_mem_literal h), ofLines]
  simp only
  rw [hcode, hopen]
  exact ofLines_numberedFrom_succ _ _ _

theorem ofLines_quoted (inBlock : Bool) :
    ofLines inBlock (numberedLines "#include \"x.h\"\n".toList) =
      if inBlock then [] else [⟨"x.h", true, 1⟩] := by
  have hline : numberedLines "#include \"x.h\"\n".toList = [(1, "#include \"x.h\"".toList)] := by
    decide
  rw [hline, ofLines]
  simp only
  cases inBlock with
  | true =>
    have hcut : cut? Comment.blockCloser "#include \"x.h\"".toList = none := by decide
    rw [Comment.strip_true, hcut]
    rfl
  | false =>
    have hblock : cut? Comment.blockOpener "#include \"x.h\"".toList = none := by decide
    have hline : cut? Comment.lineOpener "#include \"x.h\"".toList = none := by decide
    rw [Comment.strip_false, hblock]
    simp only
    rw [hline]
    decide

/-- A literal leaves the directives behind it as they are exactly when its body does not leave a
block comment open. -/
theorem ofText_literal_eq_iff {body : List Char} (h : '\n' ∉ body) :
    (∀ rest, ofText (literal body ++ '\n' :: rest) = (ofText rest).map later) ↔
      ¬ OpensBlock body := by
  constructor
  · intro hall hopen
    have hrest := hall "#include \"x.h\"\n".toList
    rw [ofText_literal h, decide_eq_true hopen, ofText, ofLines_quoted, ofLines_quoted] at hrest
    exact nomatch hrest
  · intro hclosed rest
    rw [ofText_literal h, decide_eq_false hclosed]
    rfl

/-- The two openers in a literal: one hides the directive on the next line, the other does
nothing. -/
theorem ofText_literal_openers :
    ('\n' ∉ "/*".toList ∧
      ofText (literal "/*".toList ++ '\n' :: "#include \"x.h\"\n".toList) = [] ∧
      ¬ ∀ rest, ofText (literal "/*".toList ++ '\n' :: rest) = (ofText rest).map later) ∧
    '\n' ∉ "//".toList ∧
      ∀ rest, ofText (literal "//".toList ++ '\n' :: rest) = (ofText rest).map later := by
  have hblock : '\n' ∉ "/*".toList := by decide
  have hline : '\n' ∉ "//".toList := by decide
  have hopen : OpensBlock "/*".toList := by decide
  refine ⟨⟨hblock, ?_, fun hall => (ofText_literal_eq_iff hblock).mp hall hopen⟩, hline,
    (ofText_literal_eq_iff hline).mpr (by decide)⟩
  rw [ofText_literal hblock, decide_eq_true hopen, ofLines_quoted]
  rfl

end Directive
end KernelDepot
