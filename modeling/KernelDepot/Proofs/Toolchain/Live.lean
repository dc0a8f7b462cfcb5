/-
Comments and conditional blocks in one text.

The scan leaves the comments of a text out and does not look at its conditional blocks.  A
toolchain that evaluates the blocks first makes the other lines empty, so a comment that
begins or ends on one of these is not the same comment any more.  Where every line that stays
is read with the same knowledge of whether a comment is open (`ReadsAlike`), the directives of
the live text are directives of the text.  It suffices that conditional directives stand
outside of comments (`isTidy`).
-/
import KernelDepot.Proofs.Text.Lines

namespace KernelDepot
namespace Conditional

open Text

/-- Every line that is kept is read in the same state of comments, whether the lines before
it that are not kept were left as they are or made empty.  `raw` and `live` say in which of
the two readings a comment is open at the start. -/
def ReadsAlike : State → Bool → Bool → List (List Char) → Prop
  | _, _, _, [] => True
  | s, raw, live, line :: rest =>
    ((readLine s line).1 ≠ [] → raw = live) ∧
      ReadsAlike (readLine s line).2 (Comment.strip raw line).2
        (Comment.strip live (readLine s line).1).2 rest

/-- Whether conditional directives stand outside of comments: none is open where one of them
starts, and none where it ends. -/
def isTidy (inBlock : Bool) : List (List Char) → Bool
  | [] => true
  | line :: rest =>
    let isOpen := (Comment.strip inBlock line).2
    (!((directive? line).any Directive.isStructural) || !(inBlock || isOpen)) &&
      isTidy isOpen rest

theorem readLine_fst (s : State) (line : List Char) :
    (readLine s line).1 =
      if s.isLive && !(directive? line).any Directive.isStructural then line else [] := by
  unfold readLine
  cases directive? line with
  | none => simp
  | some d => rfl

theorem readLine_fst_cases (s : State) (line : List Char) :
    (readLine s line).1 = line ∨ (readLine s line).1 = [] := by
  rw [readLine_fst]
  split
  · exact .inl rfl
  · exact .inr rfl

/-- Only a conditional directive switches anything on or off. -/
theorem isLive_readLine {s : State} {line : List Char}
    (h : (directive? line).any Directive.isStructural = false) :
    (readLine s line).2.isLive = s.isLive := by
  unfold readLine
  cases hd : directive? line with
  | none => rfl
  | some d =>
    rw [hd] at h
    cases d with
    | define name =>
      simp only [State.apply]
      split <;> rfl
    | _ => exact nomatch h

/-- Where conditional directives stand outside of comments, a comment that is open in a live
line was opened in one. -/
theorem readsAlike_of_isTidy {s : State} {raw live : Bool} {ls : List (List Char)}
    (htidy : isTidy raw ls = true) (hlive : s.isLive = true → raw = live)
    (hdead : s.isLive = false → live = false) : ReadsAlike s raw live ls := by
  induction ls generalizing s raw live with
  | nil => trivial
  | cons line rest ih =>
    unfold isTidy at htidy
    rw [Bool.and_eq_true] at htidy
    obtain ⟨hline, hrest⟩ := htidy
    unfold ReadsAlike
    have hkept := readLine_fst s line
    cases hstructural : (directive? line).any Directive.isStructural with
    | true =>
      rw [hstructural, Bool.not_true, Bool.and_false, if_neg Bool.false_ne_true] at hkept
      rw [hstructural, Bool.not_true, Bool.false_or, Bool.not_eq_true',
        Bool.or_eq_false_iff] at hline
      obtain ⟨hraw, hopen⟩ := hline
      have hclosed : live = false := by
        cases hs : s.isLive with
        | true => exact (hlive hs).symm.trans hraw
        | false => exact hdead hs
      rw [hkept, Comment.strip_nil, hopen, hclosed]
      rw [hopen] at hrest
      exact ⟨fun h => absurd rfl h, ih hrest (fun _ => rfl) fun _ => rfl⟩
    | false =>
      have hsame := isLive_readLine (s := s) hstructural
      rw [hstructural, Bool.not_false, Bool.and_true] at hkept
      cases hs : s.isLive with
      | true =>
        rw [hs, if_pos rfl] at hkept
        obtain rfl := hlive hs
        rw [hkept]
        exact ⟨fun _ => rfl, ih hrest (fun _ => rfl) fun h => nomatch h.symm.trans (hsame.trans hs)⟩
      | false =>
        rw [hs, if_neg Bool.false_ne_true] at hkept
        obtain rfl := hdead hs
        rw [hkept, Comment.strip_nil]
        exact ⟨fun h => absurd rfl h,
          ih hrest (fun h => nomatch h.symm.trans (hsame.trans hs)) fun _ => rfl⟩

theorem readLines_cons (s : State) (line : List Char) (rest : List (List Char)) :
    (readLines s (line :: rest)).1 =
      (readLine s line).1 :: (readLines (readLine s line).2 rest).1 :=
  rfl

/-- The directives of the lines that stay are directives of the lines. -/
theorem mem_ofLines_of_readsAlike {s : State} {raw live : Bool} {ls : List (List Char)}
    (h : ReadsAlike s raw live ls) (number : Nat) {d : KernelDepot.Directive}
    (hd : d ∈ Directive.ofLines live
      (numberedFrom number ((readLines s ls).1.map withoutReturn))) :
    d ∈ Directive.ofLines raw (numberedFrom number ls) := by
  induction ls generalizing s raw live number with
  | nil => exact hd
  | cons line rest ih =>
    obtain ⟨hline, hrest⟩ := h
    obtain ⟨hcode, hopen⟩ :=
      Comment.strip_of_same (sameButReturn_withoutReturn (readLine s line).1) live
    rw [readLines_cons, List.map_cons, numberedFrom] at hd
    refine KernelDepot.Directive.mem_ofLines_cons.mpr ?_
    rcases KernelDepot.Directive.mem_ofLines_cons.mp hd with ⟨name, quoted, hname, rfl⟩ | hlater
    · -- a line that was made empty has no directive
      have hkept : (readLine s line).1 ≠ [] := by
        intro hempty
        have hnone : Directive.inCode? [] = none := rfl
        rw [hempty, withoutReturn, Comment.strip_nil, hnone] at hname
        exact absurd hname.symm (Option.some_ne_none _)
      have hsame : (readLine s line).1 = line :=
        (readLine_fst_cases s line).resolve_right hkept
      rw [← Directive.inCode?_of_same hcode, hsame] at hname
      exact .inl ⟨name, quoted, hline hkept ▸ hname, rfl⟩
    · rw [← hopen] at hlater
      exact .inr (ih hrest (number + 1) hlater)

theorem newline_not_mem_readLines {s : State} {ls : List (List Char)}
    (h : ∀ line ∈ ls, '\n' ∉ line) : ∀ line ∈ (readLines s ls).1, '\n' ∉ line := by
  induction ls generalizing s with
  | nil => exact h
  | cons line rest ih =>
    rw [readLines_cons]
    refine List.forall_mem_cons.mpr ⟨?_, ih fun l hl => h l (List.mem_cons_of_mem _ hl)⟩
    rcases readLine_fst_cases s line with hkept | hkept <;> rw [hkept]
    · exact h line List.mem_cons_self
    · exact List.not_mem_nil

/-- The directives of the live part of a text are directives of the text. -/
theorem mem_ofText_of_readsAlike {defined : List String} {text : List Char}
    (h : ReadsAlike ⟨[], defined⟩ false false (lines text)) {d : KernelDepot.Directive}
    (hd : d ∈ Directive.ofText (liveText defined text).1) : d ∈ Directive.ofText text := by
  refine mem_ofLines_of_readsAlike h 1 ?_
  rw [← lines_unlines (newline_not_mem_readLines fun _ => newline_not_mem_of_mem_lines)]
  exact hd

end Conditional
end KernelDepot
