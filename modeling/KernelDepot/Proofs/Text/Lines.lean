/-
Lines that are put together again.

Lines that each get a newline have it as their end, and so has a carriage return that a line
ends in: it is part of the newline then.  Who looks for directives does not miss it.  No mark
of a comment or a directive has a return in it, and a return is blank.
-/
import KernelDepot.Include.Directive
import KernelDepot.Toolchain.Conditional

namespace KernelDepot
namespace Text

/-- A line without the return that it may end in. -/
def withoutReturn : List Char → List Char
  | [] => []
  | ['\r'] => []
  | c :: rest => c :: withoutReturn rest

/-- The second text is the first with one return behind it, or the same. -/
def SameButReturn (a b : List Char) : Prop := b = a ∨ b = a ++ ['\r']

theorem sameButReturn_withoutReturn (line : List Char) :
    SameButReturn (withoutReturn line) line := by
  induction line using withoutReturn.induct with
  | case1 => exact .inl rfl
  | case2 => exact .inr rfl
  | case3 c rest hc ih =>
    rw [withoutReturn.eq_3 c rest hc]
    rcases ih with h | h
    · exact .inl (congrArg (c :: ·) h)
    · exact .inr (congrArg (c :: ·) h)

theorem withoutReturn_subset (line : List Char) : withoutReturn line ⊆ line := by
  rcases sameButReturn_withoutReturn line with h | h
  · exact fun c hc => h ▸ hc
  · intro c hc
    rw [h]
    exact List.mem_append_left _ hc

theorem withoutReturn_of_getLast? {line : List Char} (h : line.getLast? ≠ some '\r') :
    withoutReturn line = line := by
  rcases sameButReturn_withoutReturn line with heq | heq
  · exact heq.symm
  · exact absurd (heq ▸ List.getLast?_concat) h

theorem withoutReturn_eq_self {line : List Char} (h : '\r' ∉ line) : withoutReturn line = line :=
  withoutReturn_of_getLast? fun hlast => h (List.mem_of_getLast? hlast)

/-! ## Lines -/

theorem lines_append_newline {line : List Char} (h : '\n' ∉ line) (rest : List Char) :
    lines (line ++ '\n' :: rest) = withoutReturn line :: lines rest := by
  induction line using withoutReturn.induct with
  | case1 => exact lines_newline rest
  | case2 => simp [lines, withoutReturn]
  | case3 c more hc ih =>
    have hne : c ≠ '\n' := fun e => h (e ▸ List.mem_cons_self)
    have hmore : '\n' ∉ more := fun m => h (List.mem_cons_of_mem _ m)
    have hreturn : ∀ tail, c = '\r' → more ++ '\n' :: rest = '\n' :: tail → False := by
      intro tail hcr htail
      cases more with
      | nil => exact hc hcr rfl
      | cons c' more =>
        rw [List.cons_append, List.cons.injEq] at htail
        exact hmore (htail.1 ▸ List.mem_cons_self)
    rw [withoutReturn.eq_3 c more hc, List.cons_append, lines.eq_4 c _ hne hreturn, ih hmore]

theorem lines_of_not_mem {text : List Char} (h : '\n' ∉ text) (hne : text ≠ []) :
    lines text = [text] := by
  induction text using lines.induct with
  | case1 => exact absurd rfl hne
  | case2 rest => exact absurd List.mem_cons_self h
  | case3 rest => exact absurd (List.mem_cons_of_mem _ List.mem_cons_self) h
  | case4 c rest hc hreturn hlines ih =>
    have hrest : rest = [] := Decidable.byContradiction fun hmore => List.cons_ne_nil _ _
      ((ih (fun hmem => h (List.mem_cons_of_mem _ hmem)) hmore).symm.trans hlines)
    rw [lines.eq_4 c _ hc hreturn, hlines, hrest]
  | case5 c rest hc hreturn line more hlines ih =>
    have hmore : rest ≠ [] := by
      rintro rfl
      exact List.cons_ne_nil _ _ hlines.symm
    obtain ⟨rfl, rfl⟩ := List.cons.inj
      (hlines.symm.trans (ih (fun hmem => h (List.mem_cons_of_mem _ hmem)) hmore))
    rw [lines.eq_4 c _ hc hreturn, hlines]

theorem newline_not_mem_of_mem_lines {text line : List Char} (h : line ∈ lines text) :
    '\n' ∉ line := by
  induction text using lines.induct generalizing line with
  | case1 => exact absurd h List.not_mem_nil
  | case2 rest ih =>
    rw [lines_newline] at h
    rcases List.mem_cons.mp h with rfl | h
    · exact List.not_mem_nil
    · exact ih h
  | case3 rest ih =>
    rw [lines.eq_3] at h
    rcases List.mem_cons.mp h with rfl | h
    · exact List.not_mem_nil
    · exact ih h
  | case4 c rest hne hreturn hlines ih =>
    rw [lines.eq_4 c rest hne hreturn, hlines] at h
    rw [List.mem_singleton.mp h]
    exact fun hmem => hne (List.mem_singleton.mp hmem).symm
  | case5 c rest hne hreturn first more hlines ih =>
    rw [lines.eq_4 c rest hne hreturn, hlines] at h
    rw [hlines] at ih
    rcases List.mem_cons.mp h with rfl | h
    · intro hmem
      rcases List.mem_cons.mp hmem with hc | hfirst
      · exact hne hc.symm
      · exact ih List.mem_cons_self hfirst
    · exact ih (List.mem_cons_of_mem _ h)

theorem lines_unlines {ls : List (List Char)} (h : ∀ line ∈ ls, '\n' ∉ line) :
    lines (Conditional.unlines ls) = ls.map withoutReturn := by
  induction ls with
  | nil => rfl
  | cons line ls ih =>
    have hcons : Conditional.unlines (line :: ls) =
        line ++ '\n' :: Conditional.unlines ls := by
      simp [Conditional.unlines]
    rw [hcons, lines_append_newline (h line List.mem_cons_self),
      ih fun l hl => h l (List.mem_cons_of_mem _ hl), List.map_cons]

/-- What is found in the lines of a text that has newlines between them, if the return at the end
of a line makes no difference to it and there is nothing in an empty line. -/
theorem filterMap_lines_intercalate {α : Type} {f : List Char → Option α}
    {ls : List (List Char)} (hnewline : ∀ line ∈ ls, '\n' ∉ line) (hempty : f [] = none)
    (hreturn : ∀ line ∈ ls, f (withoutReturn line) = f line) :
    (lines (['\n'].intercalate ls)).filterMap f = ls.filterMap f := by
  match ls with
  | [] => rfl
  | [line] =>
    rw [List.intercalate_singleton]
    by_cases hline : line = []
    · subst hline
      exact (List.filterMap_cons_none hempty).symm
    · rw [lines_of_not_mem (hnewline line List.mem_cons_self) hline]
  | line :: next :: more =>
    have ih := filterMap_lines_intercalate
      (fun l hl => hnewline l (List.mem_cons_of_mem _ hl)) hempty
      fun l hl => hreturn l (List.mem_cons_of_mem _ hl)
    rw [List.intercalate_cons_cons, List.append_assoc, List.singleton_append,
      lines_append_newline (hnewline line List.mem_cons_self)]
    simp only [List.filterMap_cons, hreturn line List.mem_cons_self] at ih ⊢
    rw [ih]

/-! ## Marks -/

theorem isPrefixOf_append_return {mark text : List Char} (h : '\r' ∉ mark) :
    mark.isPrefixOf (text ++ ['\r']) = mark.isPrefixOf text := by
  induction mark generalizing text with
  | nil => rfl
  | cons m mark ih =>
    have hm : m ≠ '\r' := fun e => h (e ▸ List.mem_cons_self)
    have hmark : '\r' ∉ mark := fun hmem => h (List.mem_cons_of_mem _ hmem)
    cases text with
    | nil => simp [List.isPrefixOf, hm]
    | cons c text => simp [List.isPrefixOf, ih hmark]

theorem cut?_append_return {mark : List Char} (h : '\r' ∉ mark) (hne : mark ≠ [])
    (text : List Char) :
    cut? mark (text ++ ['\r']) =
      (cut? mark text).map fun (front, back) => (front, back ++ ['\r']) := by
  induction text with
  | nil =>
    have hlone : mark.isPrefixOf ['\r'] = false := by
      rw [← List.nil_append ['\r'], isPrefixOf_append_return h]
      cases mark with
      | nil => exact absurd rfl hne
      | cons m mark => rfl
    simp [cut?, hlone, hne]
  | cons c text ih =>
    have hstands := @isPrefixOf_append_return mark (c :: text) h
    rw [List.cons_append] at hstands ⊢
    rw [cut?, cut?, hstands, ih]
    by_cases hp : mark.isPrefixOf (c :: text) = true
    · have hlength : mark.length ≤ (c :: text).length :=
        (List.isPrefixOf_iff_prefix.mp hp).length_le
      rw [if_pos hp, if_pos hp, ← List.cons_append, List.drop_append_of_le_length hlength]
      rfl
    · rw [if_neg hp, if_neg hp]
      cases cut? mark text <;> rfl

namespace SameButReturn

variable {a b : List Char}

theorem refl (a : List Char) : SameButReturn a a := .inl rfl

theorem trimStart (h : SameButReturn a b) : SameButReturn (trimStart a) (trimStart b) := by
  rcases h with rfl | rfl
  · exact refl _
  · unfold Text.trimStart
    rw [List.dropWhile_append]
    split
    · next hblank =>
      rw [List.isEmpty_iff.mp hblank]
      exact .inl (by decide)
    · exact .inr rfl

theorem after? (h : SameButReturn a b) (lead : List Char) (hlead : '\r' ∉ lead) :
    (after? lead a = none ∧ after? lead b = none) ∨
      ∃ x y, after? lead a = some x ∧ after? lead b = some y ∧ SameButReturn x y := by
  rcases h with rfl | rfl
  · cases h : Text.after? lead b with
    | none => exact .inl ⟨rfl, rfl⟩
    | some x => exact .inr ⟨x, x, rfl, rfl, refl x⟩
  · unfold Text.after?
    rw [isPrefixOf_append_return hlead]
    by_cases hp : lead.isPrefixOf a = true
    · rw [if_pos hp, if_pos hp]
      refine .inr ⟨_, _, rfl, rfl, .inr ?_⟩
      exact List.drop_append_of_le_length (List.isPrefixOf_iff_prefix.mp hp).length_le
    · rw [if_neg hp, if_neg hp]
      exact .inl ⟨rfl, rfl⟩

end SameButReturn
end Text

open Text

namespace Directive

theorem delimited?_of_same {a b : List Char} (h : SameButReturn a b) :
    delimited? b = delimited? a := by
  rcases h with rfl | rfl
  · rfl
  · cases a with
    | nil => rfl
    | cons c rest =>
      by_cases hquote : c = '"'
      · subst hquote
        show (cut? ['"'] (rest ++ ['\r'])).map _ = (cut? ['"'] rest).map _
        rw [cut?_append_return (by decide) (by decide), Option.map_map]
        rfl
      · by_cases hangle : c = '<'
        · subst hangle
          show (cut? ['>'] (rest ++ ['\r'])).map _ = (cut? ['>'] rest).map _
          rw [cut?_append_return (by decide) (by decide), Option.map_map]
          rfl
        · have hnone : ∀ tail, delimited? (c :: tail) = none := by
            intro tail
            unfold delimited?
            split <;> simp_all
          rw [List.cons_append, hnone, hnone]

/-- A return behind a line makes no difference to whether it is a directive. -/
theorem inCode?_of_same {a b : List Char} (h : SameButReturn a b) : inCode? b = inCode? a := by
  unfold inCode?
  rcases h.trimStart.after? ['#'] (by decide) with ⟨ha, hb⟩ | ⟨x, y, ha, hb, hxy⟩
  · rw [ha, hb]
  · rw [ha, hb]
    rcases hxy.trimStart.after? "include".toList (by decide) with
      ⟨hx, hy⟩ | ⟨x', y', hx, hy, hxy'⟩
    · simp only [Option.bind_eq_bind, Option.bind_some, hx, hy]
    · simp only [Option.bind_eq_bind, Option.bind_some, hx, hy, delimited?_of_same hxy'.trimStart]

end Directive

namespace Comment

theorem strip_true (line : List Char) : strip true line =
    match cut? blockCloser line with
    | none => ([], true)
    | some (_, rest) => strip false rest := by
  rw [strip, if_pos rfl]
  split <;> next hcut => exact hcut ▸ rfl

theorem strip_false (line : List Char) : strip false line =
    match cut? blockOpener line with
    | none =>
      match cut? lineOpener line with
      | none => (line, false)
      | some (code, _) => (code, false)
    | some (code, rest) =>
      match cut? lineOpener (code ++ ['/']) with
      | some (shorter, _) => (shorter, false)
      | none => (code ++ ' ' :: (strip true rest).1, (strip true rest).2) := by
  rw [strip, if_neg Bool.false_ne_true]
  split <;> next hcut => exact hcut ▸ rfl

theorem strip_nil (inBlock : Bool) : strip inBlock [] = ([], inBlock) := by
  cases inBlock with
  | true => rw [strip_true]; rfl
  | false => rw [strip_false]; rfl

/-- Nor does it make one to the comments of the line. -/
theorem strip_of_same {a b : List Char} (h : SameButReturn a b) (inBlock : Bool) :
    SameButReturn (strip inBlock a).1 (strip inBlock b).1 ∧
      (strip inBlock b).2 = (strip inBlock a).2 := by
  rcases h with rfl | rfl
  · exact ⟨.refl _, rfl⟩
  · have hcloser := @cut?_append_return blockCloser (by decide) (by decide)
    have hopener := @cut?_append_return blockOpener (by decide) (by decide)
    have hline := @cut?_append_return lineOpener (by decide) (by decide)
    induction inBlock, a using strip.induct with
    | case1 line hcut =>
      rw [strip_true, strip_true, hcloser, hcut]
      exact ⟨.refl _, rfl⟩
    | case2 line front rest hcut ih =>
      rw [strip_true, strip_true, hcloser, hcut]
      exact ih
    | case3 inBlock line hb hcut hcut' =>
      rw [Bool.not_eq_true _ |>.mp hb, strip_false, strip_false, hopener, hcut, hline, hcut']
      exact ⟨.inr rfl, rfl⟩
    | case4 inBlock line hb hcut code rest hcut' =>
      rw [Bool.not_eq_true _ |>.mp hb, strip_false, strip_false, hopener, hcut, hline, hcut']
      exact ⟨.refl _, rfl⟩
    | case5 inBlock line hb code rest hcut shorter rest' hcut' =>
      rw [Bool.not_eq_true _ |>.mp hb, strip_false, strip_false, hopener, hcut]
      simp only [Option.map_some, hcut']
      exact ⟨.refl _, trivial⟩
    | case6 inBlock line hb code rest hcut hcut' more isOpen hmore ih =>
      rw [Bool.not_eq_true _ |>.mp hb, strip_false, strip_false, hopener, hcut]
      simp only [Option.map_some, hcut']
      refine ⟨?_, ih.2⟩
      rcases ih.1 with h | h
      · exact .inl (congrArg (fun more => code ++ ' ' :: more) h)
      · refine .inr ?_
        rw [h, List.append_assoc, List.cons_append]

end Comment

/-- A directive stands on a line or on a later one. -/
theorem Directive.mem_ofLines_cons {inBlock : Bool} {number : Nat} {line : List Char}
    {rest : List (Nat × List Char)} {d : Directive} :
    d ∈ ofLines inBlock ((number, line) :: rest) ↔
      (∃ name quoted, inCode? (Comment.strip inBlock line).1 = some (name, quoted) ∧
        d = ⟨String.ofList name, quoted, .ofNat number⟩) ∨
      d ∈ ofLines (Comment.strip inBlock line).2 rest := by
  rw [ofLines]
  simp only
  cases inCode? (Comment.strip inBlock line).1 with
  | none => simp
  | some found =>
    obtain ⟨name, quoted⟩ := found
    rw [List.mem_cons]
    refine or_congr_left ⟨fun h => ⟨name, quoted, rfl, h⟩, ?_⟩
    rintro ⟨name', quoted', hfound, rfl⟩
    obtain ⟨rfl, rfl⟩ := Prod.mk.inj (Option.some.inj hfound)
    rfl

end KernelDepot
