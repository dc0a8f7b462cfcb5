/-
The tree of conditional blocks.

Reading line by line with a stack of blocks comes to the same as evaluating the tree of groups
that well nested directives make of a text.  A line is kept if it is plain and every branch
around it is the first of its block whose condition holds, and the names defined afterwards
are those from before and those of the live definitions.

What carries the induction over the tree is what the stack says of a group.  While some block
around it is switched off nothing is kept and nothing is defined, and the branches that follow
one that was switched on, or that stand in a dead block, are passed over in the same way.
-/
import KernelDepot.Proofs.Toolchain.Live
import KernelDepot.Toolchain.Group

namespace KernelDepot
namespace Conditional

open Text

/-! ## One line -/

/-- What reading a line does goes by its role, its condition and the name that it defines. -/
theorem readLine_eq (s : State) (line : List Char) : readLine s line =
    match roleOf line with
    | .plain => (if s.isLive then line else [],
        if s.isLive then { s with defined := definedBy line ++ s.defined } else s)
    | .opens => ([], s.enter (conditionHolds s.defined line))
    | .elif => ([], s.alter fun block =>
        let on := !block.taken && conditionHolds s.defined line
        { block with branch := on, taken := block.taken || on })
    | .otherwise => ([], s.alter fun block => { block with branch := !block.taken, taken := true })
    | .closes => ([], { s with blocks := s.blocks.tail }) := by
  unfold readLine roleOf conditionHolds definedBy
  cases directive? line with
  | none => cases s.isLive <;> rfl
  | some d =>
    cases d with
    | define name =>
      cases hlive : s.isLive <;> by_cases hname : name = "" <;>
        simp [State.apply, Directive.isStructural, define, hlive, hname]
    | _ => simp [State.apply, Directive.isStructural]

section Line

variable {s : State} {line : List Char} {block : Block} {blocks : List Block}
  {defined : List String}

theorem readLine_of_plain (h : roleOf line = .plain) :
    readLine s line = (if s.isLive then line else [],
      if s.isLive then { s with defined := definedBy line ++ s.defined } else s) := by
  rw [readLine_eq, h]

theorem readLine_of_opens (h : roleOf line = .opens) :
    readLine s line = ([], s.enter (conditionHolds s.defined line)) := by
  rw [readLine_eq, h]

theorem readLine_of_elif (h : roleOf line = .elif) :
    readLine ⟨block :: blocks, defined⟩ line =
      ([], ⟨⟨block.outer, !block.taken && conditionHolds defined line,
        block.taken || (!block.taken && conditionHolds defined line)⟩ :: blocks, defined⟩) := by
  rw [readLine_eq, h]
  rfl

theorem readLine_of_otherwise (h : roleOf line = .otherwise) :
    readLine ⟨block :: blocks, defined⟩ line =
      ([], ⟨⟨block.outer, !block.taken, true⟩ :: blocks, defined⟩) := by
  rw [readLine_eq, h]
  rfl

theorem readLine_of_closes (h : roleOf line = .closes) :
    readLine ⟨block :: blocks, defined⟩ line = ([], ⟨blocks, defined⟩) := by
  rw [readLine_eq, h]
  rfl

end Line

/-! ## Runs of lines -/

/-- Reading some lines keeps what the marks say and leads from one state to the other. -/
def Reads (s : State) (ls : List (List Char)) (marked : List MarkedLine) (s' : State) : Prop :=
  readLines s ls = (marked.map MarkedLine.kept, s')

namespace Reads

variable {s s' s'' : State} {line : List Char} {ls more : List (List Char)}
  {m : MarkedLine} {marked marked' : List MarkedLine}

theorem nil (s : State) : Reads s [] [] s := rfl

theorem cons (hline : readLine s line = (m.kept, s')) (h : Reads s' ls marked s'') :
    Reads s (line :: ls) (m :: marked) s'' := by
  unfold Reads at h ⊢
  rw [readLines, hline]
  simp only [h, List.map_cons]

theorem append (h : Reads s ls marked s') (h' : Reads s' more marked' s'') :
    Reads s (ls ++ more) (marked ++ marked') s'' := by
  induction ls generalizing s marked with
  | nil =>
    obtain ⟨hmarked, rfl⟩ := Prod.mk.inj h
    rw [List.map_eq_nil_iff.mp hmarked.symm]
    exact h'
  | cons line ls ih =>
    obtain ⟨hmarked, hstate⟩ := Prod.mk.inj h
    obtain ⟨m, rest, rfl, hm, hrest⟩ := List.map_eq_cons_iff.mp hmarked.symm
    exact cons (Prod.ext hm.symm rfl) (ih (Prod.ext hrest.symm hstate))

end Reads

theorem dead_cons (line : List Char) (ls : List (List Char)) :
    dead (line :: ls) = ⟨line, false⟩ :: dead ls := rfl

theorem dead_append (ls more : List (List Char)) : dead (ls ++ more) = dead ls ++ dead more :=
  List.map_append

theorem map_text_dead (ls : List (List Char)) : (dead ls).map MarkedLine.text = ls := by
  unfold dead
  rw [List.map_map]
  exact List.map_id ls

/-! ## Groups and branches -/

theorem isLive_enter (s : State) (condition : Bool) :
    (s.enter condition).isLive = (s.isLive && condition) := rfl

/-- No branch of the block that is still to come is switched on. -/
def Block.IsSpent (block : Block) : Prop := block.outer = false ∨ block.taken = true

mutual

theorem Group.reads_dead (g : Group) {s : State} (h : s.isLive = false) :
    Reads s g.lines (dead g.lines) s := by
  cases g with
  | done => exact Reads.nil s
  | line text role rest =>
    refine Reads.cons ?_ (rest.reads_dead h)
    rw [readLine_of_plain role, h]
    rfl
  | block opener role body branches rest =>
    rw [Group.lines, dead_cons, dead_append, dead_append]
    have hbody : (s.enter (conditionHolds s.defined opener)).isLive = false := by
      rw [isLive_enter, h, Bool.false_and]
    have hspent : (Block.mk s.isLive (conditionHolds s.defined opener)
        (conditionHolds s.defined opener)).IsSpent := .inl h
    exact Reads.cons (readLine_of_opens role) ((body.reads_dead hbody).append
      ((branches.reads_spent hspent).append (rest.reads_dead h)))

theorem Branches.reads_spent (b : Branches) {block : Block} (h : block.IsSpent)
    {blocks : List Block} {defined : List String} :
    Reads ⟨block :: blocks, defined⟩ b.lines (dead b.lines) ⟨blocks, defined⟩ := by
  cases b with
  | endif closer role => exact Reads.cons (readLine_of_closes role) (Reads.nil _)
  | elif text role body more =>
    rw [Branches.lines, dead_cons, dead_append]
    refine Reads.cons (readLine_of_elif role) ((body.reads_dead ?_).append (more.reads_spent ?_))
    · rcases h with h | h <;> simp [State.isLive, h]
    · exact h.imp id fun h => by simp [h]
  | otherwise text role body closer closes =>
    rw [Branches.lines, dead_cons, dead_append]
    refine Reads.cons (readLine_of_otherwise role) ((body.reads_dead ?_).append
      (Reads.cons (readLine_of_closes closes) (Reads.nil _)))
    rcases h with h | h <;> simp [State.isLive, h]

end

mutual

theorem Group.reads_live (g : Group) {s : State} (h : s.isLive = true) :
    Reads s g.lines (g.eval s.defined).1 { s with defined := (g.eval s.defined).2 } := by
  cases g with
  | done => exact Reads.nil s
  | line text role rest =>
    have hline : readLine s text =
        (text, { s with defined := definedBy text ++ s.defined }) := by
      rw [readLine_of_plain role, h, if_pos rfl, if_pos rfl]
    exact Reads.cons hline (rest.reads_live h)
  | block opener role body branches rest =>
    have hopener : readLine s opener = ([], ⟨⟨true, conditionHolds s.defined opener,
        conditionHolds s.defined opener⟩ :: s.blocks, s.defined⟩) := by
      rw [readLine_of_opens role, State.enter, h]
    cases hcondition : conditionHolds s.defined opener with
    | true =>
      -- the first branch is live, and it spends the block
      simp only [Group.lines, Group.eval, hcondition, if_true]
      rw [hcondition] at hopener
      exact Reads.cons hopener ((body.reads_live rfl).append
        ((branches.reads_spent (.inr rfl)).append (rest.reads_live h)))
    | false =>
      simp only [Group.lines, Group.eval, hcondition, Bool.false_eq_true, if_false]
      rw [hcondition] at hopener
      exact Reads.cons hopener ((body.reads_dead rfl).append
        ((branches.reads_open rfl rfl).append (rest.reads_live h)))

theorem Branches.reads_open (b : Branches) {block : Block} (houter : block.outer = true)
    (htaken : block.taken = false) {blocks : List Block} {defined : List String} :
    Reads ⟨block :: blocks, defined⟩ b.lines (b.eval defined).1
      ⟨blocks, (b.eval defined).2⟩ := by
  cases b with
  | endif closer role => exact Reads.cons (readLine_of_closes role) (Reads.nil _)
  | elif text role body more =>
    have htext : readLine ⟨block :: blocks, defined⟩ text = ([], ⟨⟨true,
        conditionHolds defined text, conditionHolds defined text⟩ :: blocks, defined⟩) := by
      rw [readLine_of_elif role, houter, htaken]
      rfl
    cases hcondition : conditionHolds defined text with
    | true =>
      simp only [Branches.lines, Branches.eval, hcondition, if_true]
      rw [hcondition] at htext
      exact Reads.cons htext ((body.reads_live rfl).append (more.reads_spent (.inr rfl)))
    | false =>
      simp only [Branches.lines, Branches.eval, hcondition, Bool.false_eq_true, if_false]
      rw [hcondition] at htext
      exact Reads.cons htext ((body.reads_dead rfl).append (more.reads_open rfl rfl))
  | otherwise text role body closer closes =>
    have htext : readLine ⟨block :: blocks, defined⟩ text =
        ([], ⟨⟨true, true, true⟩ :: blocks, defined⟩) := by
      rw [readLine_of_otherwise role, houter, htaken]
      rfl
    exact Reads.cons htext ((body.reads_live rfl).append
      (Reads.cons (readLine_of_closes closes) (Reads.nil _)))

end

/-! ## What the marks say -/

/-- Marks of some lines: each line has one, only plain lines are live, and the names defined
afterwards are those from before and those of the live definitions. -/
structure Marks (defined : List String) (ls : List (List Char)) (marked : List MarkedLine)
    (after : List String) : Prop where
  text : marked.map MarkedLine.text = ls
  plain : ∀ m ∈ marked, m.isLive = true → roleOf m.text = .plain
  mem_after : ∀ name, name ∈ after ↔ name ∈ defined ∨ ∃ m ∈ marked, name ∈ m.definedBy

namespace Marks

variable {defined after later : List String} {line : List Char} {ls more : List (List Char)}
  {marked marked' : List MarkedLine}

theorem nil (defined : List String) : Marks defined [] [] defined :=
  ⟨rfl, by simp, by simp⟩

theorem dead (defined : List String) (ls : List (List Char)) :
    Marks defined ls (dead ls) defined where
  text := map_text_dead ls
  plain := by simp [Conditional.dead]
  mem_after := by simp [Conditional.dead, MarkedLine.definedBy]

theorem consPlain (role : roleOf line = .plain)
    (h : Marks (definedBy line ++ defined) ls marked after) :
    Marks defined (line :: ls) (⟨line, true⟩ :: marked) after where
  text := congrArg (line :: ·) h.text
  plain := List.forall_mem_cons.mpr ⟨fun _ => role, h.plain⟩
  mem_after name := by
    have hline : (MarkedLine.mk line true).definedBy = definedBy line := rfl
    simp only [h.mem_after, List.mem_append, List.mem_cons, exists_eq_or_imp, hline]
    exact or_assoc.trans or_left_comm

theorem consDead (h : Marks defined ls marked after) :
    Marks defined (line :: ls) (⟨line, false⟩ :: marked) after where
  text := congrArg (line :: ·) h.text
  plain := List.forall_mem_cons.mpr ⟨nofun, h.plain⟩
  mem_after name := by
    have hline : (MarkedLine.mk line false).definedBy = [] := rfl
    simp only [h.mem_after, List.mem_cons, exists_eq_or_imp, hline, List.not_mem_nil, false_or]

theorem append (h : Marks defined ls marked after) (h' : Marks after more marked' later) :
    Marks defined (ls ++ more) (marked ++ marked') later where
  text := by rw [List.map_append, h.text, h'.text]
  plain m hm := (List.mem_append.mp hm).elim (h.plain m) (h'.plain m)
  mem_after name := by
    rw [h'.mem_after, h.mem_after, or_assoc]
    simp only [List.mem_append, or_and_right, exists_or]

end Marks

mutual

theorem Group.marks_eval (g : Group) (defined : List String) :
    Marks defined g.lines (g.eval defined).1 (g.eval defined).2 := by
  cases g with
  | done => exact Marks.nil defined
  | line text role rest => exact Marks.consPlain role (rest.marks_eval _)
  | block opener role body branches rest =>
    cases hcondition : conditionHolds defined opener with
    | true =>
      simp only [Group.lines, Group.eval, hcondition, if_true]
      exact Marks.consDead ((body.marks_eval _).append
        ((Marks.dead _ _).append (rest.marks_eval _)))
    | false =>
      simp only [Group.lines, Group.eval, hcondition, Bool.false_eq_true, if_false]
      exact Marks.consDead ((Marks.dead _ _).append
        ((branches.marks_eval _).append (rest.marks_eval _)))

theorem Branches.marks_eval (b : Branches) (defined : List String) :
    Marks defined b.lines (b.eval defined).1 (b.eval defined).2 := by
  cases b with
  | endif closer role => exact Marks.dead defined [closer]
  | elif text role body more =>
    cases hcondition : conditionHolds defined text with
    | true =>
      simp only [Branches.lines, Branches.eval, hcondition, if_true]
      exact Marks.consDead ((body.marks_eval _).append (Marks.dead _ _))
    | false =>
      simp only [Branches.lines, Branches.eval, hcondition, Bool.false_eq_true, if_false]
      exact Marks.consDead ((Marks.dead _ _).append (more.marks_eval _))
  | otherwise text role body closer closes =>
    exact Marks.consDead ((body.marks_eval _).append (Marks.dead _ [closer]))

end

/-! ## The tree of well nested lines -/

/-- Lines cut along the blocks that are open in front of them: a group, then what is left of
the innermost block, and the same of the others. -/
def Splits : List Bool → List (List Char) → Prop
  | [], ls => ∃ g : Group, g.lines = ls
  | false :: outer, ls => ∃ (g : Group) (b : Branches) (rest : List (List Char)),
      g.lines ++ (b.lines ++ rest) = ls ∧ Splits outer rest
  | true :: outer, ls => ∃ (g : Group) (closer : List Char) (rest : List (List Char)),
      roleOf closer = .closes ∧ g.lines ++ closer :: rest = ls ∧ Splits outer rest

/-- What can stand in front of any group can stand in front of the first one. -/
theorem Splits.prepend (front : List (List Char)) (f : Group → Group)
    (hf : ∀ g, (f g).lines = front ++ g.lines) {blocks : List Bool} {ls : List (List Char)}
    (h : Splits blocks ls) : Splits blocks (front ++ ls) := by
  match blocks with
  | [] =>
    obtain ⟨g, rfl⟩ := h
    exact ⟨f g, hf g⟩
  | false :: outer =>
    obtain ⟨g, b, rest, rfl, houter⟩ := h
    exact ⟨f g, b, rest, by rw [hf, List.append_assoc], houter⟩
  | true :: outer =>
    obtain ⟨g, closer, rest, hcloser, rfl, houter⟩ := h
    exact ⟨f g, closer, rest, hcloser, by rw [hf, List.append_assoc], houter⟩

theorem splits_of_isNested {blocks : List Bool} {ls : List (List Char)}
    (h : isNested blocks ls = true) : Splits blocks ls := by
  induction ls generalizing blocks with
  | nil =>
    obtain rfl := List.isEmpty_iff.mp h
    exact ⟨.done, rfl⟩
  | cons line rest ih =>
    unfold isNested at h
    split at h
    next hrole => exact Splits.prepend [line] (.line line hrole) (fun _ => rfl) (ih h)
    next hrole =>
      obtain ⟨body, branches, rest, rfl, houter⟩ := ih h
      have hblock := Splits.prepend (line :: (body.lines ++ branches.lines))
        (.block line hrole body branches) (fun g => by simp [Group.lines]) houter
      rwa [List.cons_append, List.append_assoc] at hblock
    next outer hrole =>
      obtain ⟨body, branches, rest, rfl, houter⟩ := ih h
      exact ⟨.done, .elif line hrole body branches, rest, by
        simp [Group.lines, Branches.lines], houter⟩
    next outer hrole =>
      obtain ⟨body, closer, rest, hcloser, rfl, houter⟩ := ih h
      exact ⟨.done, .otherwise line hrole body closer hcloser, rest, by
        simp [Group.lines, Branches.lines], houter⟩
    next hasElse outer hrole =>
      cases hasElse with
      | false => exact ⟨.done, .endif line hrole, rest, rfl, ih h⟩
      | true => exact ⟨.done, line, rest, hrole, rfl, ih h⟩
    next => cases h

mutual

/-- A group leaves the blocks around it as they were. -/
theorem Group.isNested_append (g : Group) (blocks : List Bool) (rest : List (List Char)) :
    isNested blocks (g.lines ++ rest) = isNested blocks rest := by
  cases g with
  | done => rfl
  | line text role more =>
    simp only [Group.lines, List.cons_append, isNested, role]
    exact more.isNested_append blocks rest
  | block opener role body branches more =>
    simp only [Group.lines, List.cons_append, List.append_assoc, isNested, role]
    rw [body.isNested_append, branches.isNested_append, more.isNested_append]

/-- The branches close the block that they stand in. -/
theorem Branches.isNested_append (b : Branches) (outer : List Bool) (rest : List (List Char)) :
    isNested (false :: outer) (b.lines ++ rest) = isNested outer rest := by
  cases b with
  | endif closer role =>
    simp only [Branches.lines, List.cons_append, List.nil_append, isNested, role]
  | elif text role body more =>
    simp only [Branches.lines, List.cons_append, List.append_assoc, isNested, role]
    rw [body.isNested_append, more.isNested_append]
  | otherwise text role body closer closes =>
    simp only [Branches.lines, List.cons_append, List.append_assoc, isNested, role]
    rw [body.isNested_append]
    simp only [List.nil_append, isNested, closes]

end

/-- Well nested lines are those of a group. -/
theorem isNested_iff {ls : List (List Char)} :
    isNested [] ls = true ↔ ∃ g : Group, g.lines = ls := by
  refine ⟨splits_of_isNested, ?_⟩
  rintro ⟨g, rfl⟩
  rw [← List.append_nil g.lines, g.isNested_append]
  rfl

/-! ## The whole text -/

/-- The conditional directives of a text are well nested exactly if there is a tree of groups
for it, and its live part is what the tree evaluates to.  The lines that are not live are made
empty and the others are left as they are, so there are as many lines as before, and the names
defined afterwards are those from before and those of the live definitions. -/
theorem liveText_eq_eval (text : List Char) (defined : List String) :
    (isNested [] (lines text) = true ↔ ∃ g : Group, g.lines = lines text) ∧
    ∀ g : Group, g.lines = lines text → ∃ marked after,
      g.eval defined = (marked, after) ∧
      liveText defined text = (unlines (marked.map MarkedLine.kept), after) ∧
      Marks defined (lines text) marked after ∧
      (lines (liveText defined text).1).length = (lines text).length := by
  refine ⟨isNested_iff, fun g hg => ⟨_, _, rfl, ?_⟩⟩
  have hmarks := g.marks_eval defined
  have hreads : Reads ⟨[], defined⟩ g.lines (g.eval defined).1 ⟨[], (g.eval defined).2⟩ :=
    g.reads_live rfl
  rw [hg] at hmarks hreads
  have hlive : liveText defined text =
      (unlines ((g.eval defined).1.map MarkedLine.kept), (g.eval defined).2) := by
    unfold liveText liveLines
    rw [hreads]
  refine ⟨hlive, hmarks, ?_⟩
  have hkept : ∀ line ∈ (g.eval defined).1.map MarkedLine.kept, '\n' ∉ line := by
    rw [← (Prod.mk.inj hreads).1]
    exact newline_not_mem_readLines fun _ => newline_not_mem_of_mem_lines
  rw [hlive, lines_unlines hkept, ← hmarks.text, List.length_map, List.length_map,
    List.length_map]

/-! ## A definition that a later condition sees -/

namespace Switched

def text : List Char :=
  "#define A\n#ifdef B\nfirst\n#elif defined(A)\n#define B\n# ifdef B\nsecond\n# endif\n".toList ++
    "#elif 1\n#define C\n#else\nthird\n#endif\n".toList

def inner : Group :=
  .block "# ifdef B".toList (by decide) (.line "second".toList (by decide) .done)
    (.endif "# endif".toList (by decide)) .done

def others : Branches :=
  .elif "#elif 1".toList (by decide)
    (.line "#define C".toList (by decide) .done)
    (.otherwise "#else".toList (by decide)
      (.line "third".toList (by decide) .done) "#endif".toList (by decide))

def tree : Group :=
  .line "#define A".toList (by decide)
    (.block "#ifdef B".toList (by decide)
      (.line "first".toList (by decide) .done)
      (.elif "#elif defined(A)".toList (by decide)
        (.line "#define B".toList (by decide) inner) others) .done)

theorem lines_tree : tree.lines = lines text := by decide +kernel

def kept : List Char := "#define A\n\n\n\n#define B\n\nsecond\n\n\n\n\n\n\n".toList

theorem eval_tree : unlines ((tree.eval []).1.map MarkedLine.kept) = kept ∧
    (tree.eval []).2 = ["B", "A"] := by decide +kernel

/-- The second branch is the first whose condition holds, and `B`, which it defines, is defined
where its inner block asks for it.  The conditions of the branches behind it do not matter, and
`C` stays undefined. -/
theorem liveText_text : isNested [] (lines text) = true ∧ tree.lines = lines text ∧
    liveText [] text = (kept, ["B", "A"]) ∧
    Marks [] (lines text) (tree.eval []).1 ["B", "A"] ∧
    (lines (liveText [] text).1).length = (lines text).length := by
  obtain ⟨hnested, hlive⟩ := liveText_eq_eval text []
  obtain ⟨marked, after, heval, htext, hmarks, hlength⟩ := hlive tree lines_tree
  obtain ⟨hkept, hafter⟩ := eval_tree
  rw [heval] at hkept hafter ⊢
  obtain rfl : after = ["B", "A"] := hafter
  exact ⟨hnested.mpr ⟨tree, lines_tree⟩, lines_tree, htext.trans (congrArg (·, _) hkept), hmarks,
    hlength⟩

end Switched

end Conditional
end KernelDepot
