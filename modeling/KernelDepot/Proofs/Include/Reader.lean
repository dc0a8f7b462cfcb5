/-
A reader of comments, one character at a time.

`Comment.strip` looks for marks in a line, cuts there, and goes on with what is behind.
`Comment.read` goes over a whole text once and looks at one character and the next; it knows
only whether it is in code, in a comment up to the end of the line, or in a block comment.
A comment opens in code only.  A block comment leaves a space where it opens, and the newlines
in comments stay, so that the lines keep their numbers.

The directives of a text are those of the code that is left, line by line
(`Directive.ofText_eq_iff`).  `Directive.IsWritten` says what a directive looks like without
saying how to look for it.
-/
import KernelDepot.Number.Decimal
import KernelDepot.Proofs.Text.Lines
import KernelDepot.Proofs.Text.Search

namespace KernelDepot

open Text

namespace Comment

inductive Mode where
  | code
  /-- In a comment up to the end of the line. -/
  | line
  | block
  deriving DecidableEq, Repr

namespace Mode

def ofBlock (inBlock : Bool) : Mode := if inBlock then block else code

def atNewline : Mode → Mode
  | line => code
  | mode => mode

end Mode

/-- What is left of a text without its comments, and where a reader is at its end. -/
def read : Mode → List Char → List Char × Mode
  | mode, [] => ([], mode)
  | .code, '/' :: '/' :: rest => read .line rest
  | .code, '/' :: '*' :: rest => (read .block rest).map (' ' :: ·) id
  | .line, '\n' :: rest => (read .code rest).map ('\n' :: ·) id
  | .block, '\n' :: rest => (read .block rest).map ('\n' :: ·) id
  | .block, '*' :: '/' :: rest => read .code rest
  | .code, c :: rest => (read .code rest).map (c :: ·) id
  | .line, _ :: rest => read .line rest
  | .block, _ :: rest => read .block rest

/-! ## Lines, one character at a time -/

theorem strip_true_closer (rest : List Char) :
    strip true ('*' :: '/' :: rest) = strip false rest := by
  rw [strip_true]
  rfl

theorem strip_true_cons {c : Char} {rest : List Char}
    (h : ∀ tail, c = '*' → rest = '/' :: tail → False) :
    strip true (c :: rest) = strip true rest := by
  rw [strip_true, strip_true,
    show cut? blockCloser _ = _ from cut?_cons_of_not_prefix (isPrefixOf_pair_eq_false h)]
  cases cut? blockCloser rest <;> rfl

theorem strip_false_blockOpener (rest : List Char) :
    strip false ('/' :: '*' :: rest) = (strip true rest).map (' ' :: ·) id := by
  rw [strip_false]
  rfl

/-- What stands in front of a block opener, with the slash of the opener. -/
theorem head?_append_slash {rest front back : List Char}
    (h : cut? blockOpener rest = some (front, back)) : (front ++ ['/']).head? = rest.head? := by
  rw [eq_of_cut? h]
  cases front <;> rfl

theorem strip_false_lineOpener (rest : List Char) :
    strip false ('/' :: '/' :: rest) = ([], false) := by
  have hslash : blockOpener.isPrefixOf ('/' :: '/' :: rest) = false := rfl
  have hline : ∀ tail : List Char, tail.head? = some '/' →
      cut? lineOpener ('/' :: tail) = some ([], tail.drop 1) := by
    intro tail htail
    have hprefix : lineOpener.isPrefixOf ('/' :: tail) = true := isPrefixOf_pair.mpr ⟨rfl, htail⟩
    rw [cut?, if_pos hprefix]
    rfl
  rw [strip_false, cut?_cons_of_not_prefix hslash]
  cases hcut : cut? blockOpener ('/' :: rest) with
  | none =>
    simp only [Option.map_none]
    rw [hline _ rfl]
  | some parts =>
    obtain ⟨front, back⟩ := parts
    simp only [Option.map_some]
    rw [List.cons_append, hline _ (head?_append_slash hcut)]

theorem strip_false_cons {c : Char} {rest : List Char}
    (hline : ∀ tail, c = '/' → rest = '/' :: tail → False)
    (hblock : ∀ tail, c = '/' → rest = '*' :: tail → False) :
    strip false (c :: rest) = (strip false rest).map (c :: ·) id := by
  have hlater := isPrefixOf_pair_eq_false hline
  rw [strip_false, strip_false,
    show cut? blockOpener _ = _ from cut?_cons_of_not_prefix (isPrefixOf_pair_eq_false hblock)]
  cases hcut : cut? blockOpener rest with
  | none =>
    simp only [Option.map_none]
    rw [show cut? lineOpener _ = _ from cut?_cons_of_not_prefix hlater]
    cases cut? lineOpener rest <;> rfl
  | some parts =>
    obtain ⟨front, back⟩ := parts
    have hfront : lineOpener.isPrefixOf (c :: (front ++ ['/'])) = false := by
      rw [Bool.eq_false_iff, ne_eq, lineOpener, isPrefixOf_pair, head?_append_slash hcut,
        ← isPrefixOf_pair, hlater]
      exact Bool.false_ne_true
    simp only [Option.map_some]
    rw [List.cons_append, cut?_cons_of_not_prefix hfront]
    cases cut? lineOpener (front ++ ['/']) <;> rfl

theorem read_line {line : List Char} (h : '\n' ∉ line) : read .line line = ([], .line) := by
  induction line with
  | nil => rfl
  | cons c rest ih =>
    rw [List.mem_cons, not_or] at h
    rw [read.eq_8 c rest (Ne.symm h.1), ih h.2]

theorem strip_eq_read {line : List Char} (h : '\n' ∉ line) (inBlock : Bool) :
    strip inBlock line =
      (read (.ofBlock inBlock) line).map id fun mode => decide (mode = .block) := by
  suffices hmode : ∀ mode, mode ≠ .line → strip (decide (mode = .block)) line =
      (read mode line).map id fun mode => decide (mode = .block) by
    cases inBlock
    · exact hmode .code nofun
    · exact hmode .block nofun
  intro mode hne
  induction mode, line using read.induct with
  | case1 mode => exact strip_nil _
  | case2 rest ih =>
    have hrest : '\n' ∉ rest := fun hmem => h (by simp [hmem])
    rw [read.eq_2, read_line hrest]
    exact strip_false_lineOpener rest
  | case3 rest ih =>
    have hrest : '\n' ∉ rest := fun hmem => h (by simp [hmem])
    rw [read.eq_3]
    exact (strip_false_blockOpener rest).trans (congrArg _ (ih hrest nofun))
  | case4 rest => exact absurd rfl hne
  | case5 rest => exact absurd List.mem_cons_self h
  | case6 rest ih =>
    have hrest : '\n' ∉ rest := fun hmem => h (by simp [hmem])
    rw [read.eq_6]
    exact (strip_true_closer rest).trans (ih hrest nofun)
  | case7 c rest hline hblock ih =>
    rw [List.mem_cons, not_or] at h
    rw [read.eq_7 c rest hline hblock]
    exact (strip_false_cons hline hblock).trans (congrArg _ (ih h.2 nofun))
  | case8 c rest => exact absurd rfl hne
  | case9 c rest hc hcloser ih =>
    rw [List.mem_cons, not_or] at h
    rw [read.eq_9 c rest hc hcloser]
    exact (strip_true_cons hcloser).trans (ih h.2 nofun)

theorem append_ne {a b c : Char} {front back : List Char} (hb : back.head? ≠ some b)
    (h : ∀ tail, c = a → front = b :: tail → False) :
    ∀ tail, c = a → front ++ back = b :: tail → False := by
  intro tail hc htail
  cases front with
  | nil => exact hb (by rw [← List.nil_append back, htail]; rfl)
  | cons d front => exact h front hc (by rw [(List.cons.inj htail).1])

/-- A text in front of one that goes on no mark is read on its own. -/
theorem read_append {back : List Char} (hslash : back.head? ≠ some '/')
    (hstar : back.head? ≠ some '*') (mode : Mode) (front : List Char) :
    read mode (front ++ back) =
      (read (read mode front).2 back).map ((read mode front).1 ++ ·) id := by
  induction mode, front using read.induct with
  | case1 mode => rfl
  | case2 front ih =>
    rw [read.eq_2]
    exact (read.eq_2 _).trans ih
  | case3 front ih =>
    rw [read.eq_3]
    exact (read.eq_3 _).trans (congrArg _ ih)
  | case4 front ih =>
    rw [read.eq_4]
    exact (read.eq_4 _).trans (congrArg _ ih)
  | case5 front ih =>
    rw [read.eq_5]
    exact (read.eq_5 _).trans (congrArg _ ih)
  | case6 front ih =>
    rw [read.eq_6]
    exact (read.eq_6 _).trans ih
  | case7 c front hline hblock ih =>
    rw [read.eq_7 c front hline hblock]
    exact (read.eq_7 c _ (append_ne hslash hline) (append_ne hstar hblock)).trans
      (congrArg _ ih)
  | case8 c front hc ih =>
    rw [read.eq_8 c front hc]
    exact (read.eq_8 c _ hc).trans ih
  | case9 c front hc hcloser ih =>
    rw [read.eq_9 c front hc hcloser]
    exact (read.eq_9 c _ hc (append_ne hslash hcloser)).trans ih

theorem read_newline (mode : Mode) (rest : List Char) :
    read mode ('\n' :: rest) = (read mode.atNewline rest).map ('\n' :: ·) id := by
  cases mode with
  | code => exact read.eq_7 _ _ nofun nofun
  | line => rfl
  | block => rfl

theorem read_append_newline (mode : Mode) (line rest : List Char) :
    read mode (line ++ '\n' :: rest) =
      (read (read mode line).2.atNewline rest).map ((read mode line).1 ++ '\n' :: ·) id := by
  rw [read_append (by simp) (by simp), read_newline]
  rfl

example : (read .code "a//*b\nc/*/d*//e\n".toList).1 = "a\nc /e\n".toList := by decide

theorem newline_not_mem_read {line : List Char} (h : '\n' ∉ line) (mode : Mode) :
    '\n' ∉ (read mode line).1 := by
  induction mode, line using read.induct with
  | case1 mode => exact h
  | case2 line ih =>
    rw [read.eq_2]
    exact ih fun hmem => h (by simp [hmem])
  | case3 line ih =>
    rw [read.eq_3]
    exact List.not_mem_cons_of_ne_of_not_mem (by decide) (ih fun hmem => h (by simp [hmem]))
  | case4 line => exact absurd List.mem_cons_self h
  | case5 line => exact absurd List.mem_cons_self h
  | case6 line ih =>
    rw [read.eq_6]
    exact ih fun hmem => h (by simp [hmem])
  | case7 c line hslash hstar ih =>
    rw [List.mem_cons, not_or] at h
    rw [read.eq_7 c line hslash hstar]
    exact List.not_mem_cons_of_ne_of_not_mem h.1 (ih h.2)
  | case8 c line hc ih =>
    rw [read.eq_8 c line hc]
    exact ih fun hmem => h (List.mem_cons_of_mem _ hmem)
  | case9 c line hc hcloser ih =>
    rw [read.eq_9 c line hc hcloser]
    exact ih fun hmem => h (List.mem_cons_of_mem _ hmem)

end Comment

namespace Directive

def opening (quoted : Bool) : Char := if quoted then '"' else '<'

def closing (quoted : Bool) : Char := if quoted then '"' else '>'

/-- The code of a line is a directive with a name between marks. -/
def IsWritten (code name : List Char) (quoted : Bool) : Prop :=
  name ≠ [] ∧ ∃ blanks₁ blanks₂ blanks₃ inside rest,
    (∀ b ∈ blanks₁ ++ blanks₂ ++ blanks₃, isBlank b = true) ∧
    code = blanks₁ ++ (['#'] ++ (blanks₂ ++ ("include".toList ++
      (blanks₃ ++ opening quoted :: (inside ++ closing quoted :: rest))))) ∧
    closing quoted ∉ inside ∧ trim inside = name

theorem isBlank_opening (quoted : Bool) : isBlank (opening quoted) = false := by
  cases quoted <;> decide

theorem delimited?_eq_some_iff {cs name : List Char} {quoted : Bool} :
    delimited? cs = some (name, quoted) ↔ ∃ inside rest,
      cs = opening quoted :: (inside ++ closing quoted :: rest) ∧ closing quoted ∉ inside ∧
        trim inside = name := by
  constructor
  · intro h
    unfold delimited? at h
    split at h
    · obtain ⟨⟨inside, rest⟩, hcut, heq⟩ := Option.map_eq_some_iff.mp h
      obtain ⟨rfl, rfl⟩ := Prod.mk.inj heq
      obtain ⟨rfl, hinside⟩ := cut?_singleton_eq_some_iff.mp hcut
      exact ⟨inside, rest, rfl, hinside, rfl⟩
    · obtain ⟨⟨inside, rest⟩, hcut, heq⟩ := Option.map_eq_some_iff.mp h
      obtain ⟨rfl, rfl⟩ := Prod.mk.inj heq
      obtain ⟨rfl, hinside⟩ := cut?_singleton_eq_some_iff.mp hcut
      exact ⟨inside, rest, rfl, hinside, rfl⟩
    · exact nomatch h
  · rintro ⟨inside, rest, rfl, hinside, rfl⟩
    have hcut := cut?_singleton_append hinside rest
    cases quoted with
    | true => exact congrArg (Option.map fun parts => (trim parts.1, true)) hcut
    | false => exact congrArg (Option.map fun parts => (trim parts.1, false)) hcut

theorem inCode?_eq_some_iff {code name : List Char} {quoted : Bool} :
    inCode? code = some (name, quoted) ↔ IsWritten code name quoted := by
  have hhash {text rest : List Char} := @after?_trimStart_eq_some_iff ['#'] '#' rfl (by decide)
    text rest
  have hword {text rest : List Char} := @after?_trimStart_eq_some_iff "include".toList 'i'
    (by decide) (by decide) text rest
  constructor
  · intro hfound
    obtain ⟨rest₁, h₁, hfound₁⟩ := Option.bind_eq_some_iff.mp hfound
    obtain ⟨rest₂, h₂, hfound₂⟩ := Option.bind_eq_some_iff.mp hfound₁
    obtain ⟨⟨name', quoted'⟩, h₃, hlast⟩ := Option.bind_eq_some_iff.mp hfound₂
    have hne : name' ≠ [] := by
      rintro rfl
      exact nomatch hlast
    have hsame : some (name', quoted') = some (name, quoted) :=
      (if_neg fun hempty => hne (List.isEmpty_iff.mp hempty)).symm.trans hlast
    obtain ⟨rfl, rfl⟩ := Prod.mk.inj (Option.some.inj hsame)
    obtain ⟨blanks₁, hblanks₁, rfl⟩ := hhash.mp h₁
    obtain ⟨blanks₂, hblanks₂, rfl⟩ := hword.mp h₂
    obtain ⟨inside, rest, htrim, hinside, hname⟩ := delimited?_eq_some_iff.mp h₃
    obtain ⟨blanks₃, hblanks₃, rfl⟩ := (trimStart_eq_cons_iff (isBlank_opening _)).mp htrim
    refine ⟨hne, blanks₁, blanks₂, blanks₃, inside, rest, ?_, rfl, hinside, hname⟩
    exact List.forall_mem_append.mpr ⟨List.forall_mem_append.mpr ⟨hblanks₁, hblanks₂⟩, hblanks₃⟩
  · rintro ⟨hne, blanks₁, blanks₂, blanks₃, inside, rest, hblanks, rfl, hinside, hname⟩
    obtain ⟨hfront, hblanks₃⟩ := List.forall_mem_append.mp hblanks
    obtain ⟨hblanks₁, hblanks₂⟩ := List.forall_mem_append.mp hfront
    have htrim : trimStart (blanks₃ ++ opening quoted :: (inside ++ closing quoted :: rest)) =
        opening quoted :: (inside ++ closing quoted :: rest) :=
      (trimStart_eq_cons_iff (isBlank_opening quoted)).mpr ⟨blanks₃, hblanks₃, rfl⟩
    refine Option.bind_eq_some_iff.mpr ⟨_, hhash.mpr ⟨blanks₁, hblanks₁, rfl⟩, ?_⟩
    refine Option.bind_eq_some_iff.mpr ⟨_, hword.mpr ⟨blanks₂, hblanks₂, rfl⟩, ?_⟩
    refine Option.bind_eq_some_iff.mpr
      ⟨(name, quoted), delimited?_eq_some_iff.mpr ⟨inside, rest, htrim, hinside, hname⟩, ?_⟩
    exact if_neg fun hempty => hne (List.isEmpty_iff.mp hempty)

/-- A directive with the number of its line, however many lines there are. -/
structure Mention where
  name : String
  quoted : Bool
  line : Nat
  deriving DecidableEq, Repr

def Mention.directive (m : Mention) : Directive := ⟨m.name, m.quoted, .ofNat m.line⟩

def mention (d : Directive) : Mention := ⟨d.name, d.quoted, d.line.toNat⟩

theorem directive_mention (d : Directive) : d.mention.directive = d := by
  unfold mention Mention.directive
  rw [UInt32.ofNat_toNat]

theorem mention_directive {m : Mention} (h : m.line < Number.limit32) :
    m.directive.mention = m := by
  have hline : (UInt32.ofNat m.line).toNat = m.line := UInt32.toNat_ofNat_of_lt h
  unfold mention Mention.directive
  simp only
  rw [hline]

/-- Some lines of code, numbered from `n`, have these directives. -/
inductive Listed : Nat → List (List Char) → List Mention → Prop where
  | nil (n : Nat) : Listed n [] []
  | found {n : Nat} {code name : List Char} {quoted : Bool} {rest : List (List Char)}
    {ms : List Mention} (h : IsWritten code name quoted) (hrest : Listed (n + 1) rest ms) :
    Listed n (code :: rest) (⟨String.ofList name, quoted, n⟩ :: ms)
  | passed {n : Nat} {code : List Char} {rest : List (List Char)} {ms : List Mention}
    (h : ∀ name quoted, ¬ IsWritten code name quoted) (hrest : Listed (n + 1) rest ms) :
    Listed n (code :: rest) ms

theorem Listed.unique {n : Nat} {ls : List (List Char)} {ms ms' : List Mention}
    (h : Listed n ls ms) (h' : Listed n ls ms') : ms = ms' := by
  induction h generalizing ms' with
  | nil n =>
    cases h'
    rfl
  | found h hrest ih =>
    cases h' with
    | found h₁ hrest₁ =>
      have hsame := (inCode?_eq_some_iff.mpr h).symm.trans (inCode?_eq_some_iff.mpr h₁)
      obtain ⟨rfl, rfl⟩ := Prod.mk.inj (Option.some.inj hsame)
      rw [ih hrest₁]
    | passed h₁ hrest₁ => exact absurd h (h₁ _ _)
  | passed h hrest ih =>
    cases h' with
    | found h₁ hrest₁ => exact absurd h₁ (h _ _)
    | passed h₁ hrest₁ => exact ih hrest₁

/-- Some lines of code, numbered from `n`, have these directives, none of them at line `last` or
further down. -/
def ListedBelow (n last : Nat) (code : List (List Char)) (ds : List Directive) : Prop :=
  ∃ found, Listed n code found ∧ found.map Mention.directive = ds ∧ ∀ m ∈ found, m.line < last

namespace ListedBelow

theorem nil (n last : Nat) : ListedBelow n last [] [] := ⟨[], .nil n, rfl, nofun⟩

/-- The directives of a line and of those after it. -/
theorem ofLines_cons {n last : Nat} {inBlock : Bool} {line code : List Char}
    {ls : List (List Char)} {rest : List (Nat × List Char)} (hn : n < last)
    (hcode : inCode? (Comment.strip inBlock line).1 = inCode? code)
    (hrest : ListedBelow (n + 1) last ls (ofLines (Comment.strip inBlock line).2 rest)) :
    ListedBelow n last (code :: ls) (ofLines inBlock ((n, line) :: rest)) := by
  obtain ⟨found, hlisted, hmap, hbelow⟩ := hrest
  unfold ofLines
  simp only
  rw [hcode, ← hmap]
  cases hfound : inCode? code with
  | none =>
    refine ⟨found, .passed (fun name quoted h => ?_) hlisted, rfl, hbelow⟩
    exact nomatch hfound.symm.trans (inCode?_eq_some_iff.mpr h)
  | some parts =>
    refine ⟨_, .found (inCode?_eq_some_iff.mp hfound) hlisted, rfl, fun m hm => ?_⟩
    rcases List.mem_cons.mp hm with rfl | hm
    · exact hn
    · exact hbelow m hm

end ListedBelow

theorem listedBelow_ofLines_of_not_mem {text : List Char} (h : '\n' ∉ text) (inBlock : Bool)
    (n : Nat) : ListedBelow n (n + (lines text).length)
      (lines (Comment.read (.ofBlock inBlock) text).1)
      (ofLines inBlock (numberedFrom n (lines text))) := by
  have herased := Comment.newline_not_mem_read h (.ofBlock inBlock)
  have hcode : (Comment.strip inBlock text).1 = (Comment.read (.ofBlock inBlock) text).1 :=
    congrArg Prod.fst (Comment.strip_eq_read h inBlock)
  by_cases hnil : text = []
  · subst hnil
    exact .nil n _
  · rw [lines_of_not_mem h hnil, numberedFrom, numberedFrom]
    by_cases hempty : (Comment.read (.ofBlock inBlock) text).1 = []
    · have hnone : ofLines inBlock [(n, text)] = [] := by
        unfold ofLines
        simp only
        rw [hcode, hempty]
        rfl
      rw [hempty, hnone]
      exact .nil n _
    · rw [lines_of_not_mem herased hempty]
      exact .ofLines_cons (Nat.lt_succ_self n) (congrArg inCode? hcode) (.nil _ _)

/-- A return at the end of a line makes no difference to the directives. -/
theorem ofLines_append_newline {line : List Char} (h : '\n' ∉ line) (rest : List Char)
    (inBlock : Bool) (n : Nat) :
    ofLines inBlock (numberedFrom n (lines (line ++ '\n' :: rest))) =
      ofLines inBlock ((n, line) :: numberedFrom (n + 1) (lines rest)) := by
  obtain ⟨hcode, hopen⟩ := Comment.strip_of_same (sameButReturn_withoutReturn line) inBlock
  rw [lines_append_newline h, numberedFrom, ofLines, ofLines]
  simp only
  rw [inCode?_of_same hcode, hopen]

theorem listedBelow_ofLines (text : List Char) (inBlock : Bool) (n : Nat) :
    ListedBelow n (n + (lines text).length) (lines (Comment.read (.ofBlock inBlock) text).1)
      (ofLines inBlock (numberedFrom n (lines text))) := by
  induction hlength : text.length using Nat.strongRecOn generalizing text inBlock n with
  | ind length ih =>
    by_cases hmem : '\n' ∈ text
    · obtain ⟨line, rest, rfl, hline⟩ := List.eq_append_cons_of_mem hmem
      have hread := Comment.strip_eq_read hline inBlock
      have hmode : (Comment.read (.ofBlock inBlock) line).2.atNewline =
          .ofBlock (Comment.strip inBlock line).2 := by
        rw [hread, Prod.map_snd]
        cases (Comment.read (.ofBlock inBlock) line).2 <;> rfl
      have hrest := ih rest.length (by rw [← hlength]; simp; omega) rest
        (Comment.strip inBlock line).2 (n + 1) rfl
      have hlast : n + (lines (line ++ '\n' :: rest)).length = n + 1 + (lines rest).length := by
        rw [lines_append_newline hline, List.length_cons]
        omega
      rw [ofLines_append_newline hline, Comment.read_append_newline, hmode, hlast]
      show ListedBelow n _ (lines (_ ++ '\n' :: _)) _
      rw [lines_append_newline (Comment.newline_not_mem_read hline _)]
      refine .ofLines_cons (by omega) ?_ hrest
      rw [hread, Prod.map_fst]
      exact inCode?_of_same (sameButReturn_withoutReturn _)
    · exact listedBelow_ofLines_of_not_mem hmem inBlock n

/-- The directives of a text are those of its code, line by line, and each holds its line as far
as 32 bits go.  If the text has fewer than 2 ^ 32 lines the numbers are exact. -/
theorem ofText_eq_iff (text : List Char) (ds : List Directive) :
    (ofText text = ds ↔
      ∃ found, Listed 1 (lines (Comment.read .code text).1) found ∧
        found.map Mention.directive = ds) ∧
    ((lines text).length < Number.limit32 →
      (ofText text = ds ↔ Listed 1 (lines (Comment.read .code text).1) (ds.map mention))) := by
  obtain ⟨found, hlisted, hfound, hbelow⟩ := listedBelow_ofLines text false 1
  replace hlisted : Listed 1 (lines (Comment.read .code text).1) found := hlisted
  replace hfound : found.map Mention.directive = ofText text := hfound
  have hall : ofText text = ds ↔ ∃ found, Listed 1 (lines (Comment.read .code text).1) found ∧
      found.map Mention.directive = ds := by
    constructor
    · intro h
      exact ⟨found, hlisted, hfound.trans h⟩
    · rintro ⟨found', hlisted', hfound'⟩
      rw [← hfound, hlisted.unique hlisted', hfound']
  refine ⟨hall, fun hlines => ?_⟩
  constructor
  · rintro rfl
    have hexact : found.map (mention ∘ Mention.directive) = found.map id :=
      List.map_congr_left fun m hm => mention_directive (by have := hbelow m hm; omega)
    rw [← hfound, List.map_map, hexact, List.map_id]
    exact hlisted
  · intro h
    refine hall.mpr ⟨_, h, ?_⟩
    rw [List.map_map, show Mention.directive ∘ mention = id from funext directive_mention,
      List.map_id]

/-- A comment that is closed in front of a directive on the second line. -/
theorem ofText_behind_comment :
    (lines "/*\n*/ #include <a.h> // b.h".toList).length < Number.limit32 ∧
    Listed 1 (lines (Comment.read .code "/*\n*/ #include <a.h> // b.h".toList).1)
      [⟨"a.h", false, 2⟩] := by
  have hlines : (lines "/*\n*/ #include <a.h> // b.h".toList).length < Number.limit32 := by decide
  exact ⟨hlines, ((ofText_eq_iff _ [⟨"a.h", false, 2⟩]).2 hlines).mp (by decide +kernel)⟩

end Directive
end KernelDepot
