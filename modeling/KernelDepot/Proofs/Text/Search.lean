/-
What the searches find.

A mark of two characters stands in front of a text or does not, and `cut?` passes a character
at which it does not.  A mark is cut where its first character is for the first time, if it stands
there, so what is in front of a mark of one character is free of it.  A mark does not reach over a
character that it lacks.  Text that starts with a character that is not blank stands behind blanks
exactly when trimming the front leads to it.
-/
import KernelDepot.Text.Blank
import KernelDepot.Text.Search
import Mathlib.Data.List.TakeWhile

namespace KernelDepot
namespace Text

theorem isPrefixOf_pair {a b c : Char} {rest : List Char} :
    [a, b].isPrefixOf (c :: rest) = true ↔ c = a ∧ rest.head? = some b := by
  cases rest with
  | nil => simp [List.isPrefixOf]
  | cons d rest =>
    simp only [List.isPrefixOf, Bool.and_true, Bool.and_eq_true, beq_iff_eq, List.head?_cons,
      Option.some.injEq]
    exact and_congr eq_comm eq_comm

theorem isPrefixOf_pair_eq_false {a b c : Char} {rest : List Char}
    (h : ∀ tail, c = a → rest = b :: tail → False) : [a, b].isPrefixOf (c :: rest) = false := by
  rw [Bool.eq_false_iff, ne_eq, isPrefixOf_pair]
  rintro ⟨hc, hhead⟩
  obtain ⟨tail, htail⟩ := List.head?_eq_some_iff.mp hhead
  exact h tail hc htail

theorem cut?_cons_of_not_prefix {mark rest : List Char} {c : Char}
    (h : mark.isPrefixOf (c :: rest) = false) :
    cut? mark (c :: rest) = (cut? mark rest).map fun (front, back) => (c :: front, back) := by
  rw [cut?, h, if_neg Bool.false_ne_true]

theorem after?_eq_some_iff {lead text rest : List Char} :
    after? lead text = some rest ↔ text = lead ++ rest := by
  unfold after?
  constructor
  · intro h
    split at h
    next hprefix =>
      obtain ⟨tail, rfl⟩ := List.isPrefixOf_iff_prefix.mp hprefix
      rw [List.drop_left] at h
      rw [Option.some.inj h]
    next => exact nomatch h
  · rintro rfl
    rw [if_pos (List.isPrefixOf_iff_prefix.mpr (List.prefix_append _ _)), List.drop_left]

theorem before?_append (front tail : List Char) : before? tail (front ++ tail) = some front := by
  unfold before?
  rw [if_pos (List.isSuffixOf_iff_suffix.mpr (List.suffix_append front tail)), List.length_append,
    Nat.add_sub_cancel, List.take_left]

theorem before?_eq_some_iff {tail text front : List Char} :
    before? tail text = some front ↔ text = front ++ tail := by
  constructor
  · intro h
    unfold before? at h
    split at h
    next hsuffix =>
      obtain ⟨lead, rfl⟩ := List.isSuffixOf_iff_suffix.mp hsuffix
      rw [List.length_append, Nat.add_sub_cancel, List.take_left] at h
      rw [Option.some.inj h]
    next => exact nomatch h
  · rintro rfl
    exact before?_append front tail

theorem before?_eq_none_iff {tail text : List Char} :
    before? tail text = none ↔ ¬ tail <:+ text := by
  unfold before?
  rw [← List.isSuffixOf_iff_suffix]
  split
  next h => exact iff_of_false nofun (not_not.mpr h)
  next h => exact iff_of_true rfl h

theorem cut?_append_mark {m : Char} {mark front : List Char} (h : m ∉ front) (back : List Char) :
    cut? (m :: mark) (front ++ (m :: mark ++ back)) = some (front, back) := by
  induction front with
  | nil =>
    have hprefix : (m :: mark).isPrefixOf (m :: (mark ++ back)) = true :=
      List.isPrefixOf_iff_prefix.mpr (List.prefix_append (m :: mark) back)
    rw [List.nil_append, List.cons_append, cut?, hprefix, if_pos rfl, ← List.cons_append,
      List.drop_left]
  | cons d front ih =>
    obtain ⟨hd, hfront⟩ := not_or.mp (fun hmem => h (List.mem_cons.mpr hmem))
    have hprefix : (m :: mark).isPrefixOf (d :: (front ++ (m :: mark ++ back))) = false := by
      rw [List.isPrefixOf_cons_cons, beq_false_of_ne hd, Bool.false_and]
    rw [List.cons_append, cut?_cons_of_not_prefix hprefix, ih hfront]
    rfl

theorem cut?_singleton_append {c : Char} {front : List Char} (h : c ∉ front) (back : List Char) :
    cut? [c] (front ++ c :: back) = some (front, back) :=
  cut?_append_mark h back

theorem cut?_singleton_eq_some_iff {c : Char} {text front back : List Char} :
    cut? [c] text = some (front, back) ↔ text = front ++ c :: back ∧ c ∉ front := by
  constructor
  · intro h
    have hmem : c ∈ text := by
      rw [eq_of_cut? h]
      simp
    obtain ⟨first, last, rfl, hfirst⟩ := List.eq_append_cons_of_mem hmem
    rw [cut?_singleton_append hfirst] at h
    obtain ⟨rfl, rfl⟩ := Prod.mk.inj (Option.some.inj h)
    exact ⟨rfl, hfirst⟩
  · rintro ⟨rfl, h⟩
    exact cut?_singleton_append h back

/-- A text that lacks a character of the mark has no place to be cut. -/
theorem cut?_eq_none_of_not_mem {mark text : List Char} {c : Char} (hc : c ∈ mark)
    (h : c ∉ text) : cut? mark text = none := by
  cases hcut : cut? mark text with
  | none => rfl
  | some parts =>
    rw [eq_of_cut? hcut] at h
    exact absurd (List.mem_append_left _ (List.mem_append_right _ hc)) h

theorem prefix_of_prefix_append_cons {mark front rest : List Char} {c : Char} (hc : c ∉ mark)
    (h : mark <+: front ++ c :: rest) : mark <+: front := by
  obtain ⟨tail, htail⟩ := h
  rcases List.append_eq_append_iff.mp htail with ⟨more, rfl, -⟩ | ⟨more, rfl, hmore⟩
  · exact List.prefix_append mark more
  · cases more with
    | nil => exact (List.append_nil front).symm ▸ List.prefix_refl front
    | cons d more =>
      obtain ⟨rfl, -⟩ := List.cons.inj hmore
      exact absurd (List.mem_append_right _ List.mem_cons_self) hc

/-- A mark that is not in a text does not reach over a character that it lacks. -/
theorem cut?_append_cons {mark front : List Char} {c : Char} (hfront : ¬ mark <:+: front)
    (hc : c ∉ mark) (rest : List Char) : cut? mark (front ++ c :: rest) =
      (cut? mark rest).map fun (more, back) => (front ++ c :: more, back) := by
  have hpasses {text : List Char} (htext : ¬ mark <:+: text) :
      mark.isPrefixOf (text ++ c :: rest) = false := by
    rw [Bool.eq_false_iff, ne_eq, List.isPrefixOf_iff_prefix]
    intro hprefix
    exact htext (prefix_of_prefix_append_cons hc hprefix).isInfix
  induction front with
  | nil => exact cut?_cons_of_not_prefix (hpasses hfront)
  | cons d front ih =>
    have hrest : ¬ mark <:+: front := fun hmark => hfront (List.infix_cons hmark)
    have hhead : mark.isPrefixOf (d :: (front ++ c :: rest)) = false := hpasses hfront
    rw [List.cons_append, cut?_cons_of_not_prefix hhead, ih hrest, Option.map_map]
    rfl

theorem trimStart_eq_cons_iff {c : Char} (hc : isBlank c = false) {text rest : List Char} :
    trimStart text = c :: rest ↔ ∃ blanks, (∀ b ∈ blanks, isBlank b = true) ∧
      text = blanks ++ c :: rest := by
  constructor
  · intro h
    refine ⟨text.takeWhile isBlank, fun b hb => List.mem_takeWhile_imp hb, ?_⟩
    rw [← h]
    exact List.takeWhile_append_dropWhile.symm
  · rintro ⟨blanks, hblanks, rfl⟩
    unfold trimStart
    rw [List.dropWhile_append_of_pos hblanks, List.dropWhile_cons_of_neg]
    rw [hc]
    exact Bool.false_ne_true

theorem after?_trimStart_eq_some_iff {lead : List Char} {c : Char} (hlead : lead.head? = some c)
    (hc : isBlank c = false) {text rest : List Char} :
    after? lead (trimStart text) = some rest ↔
      ∃ blanks, (∀ b ∈ blanks, isBlank b = true) ∧ text = blanks ++ (lead ++ rest) := by
  obtain ⟨tail, rfl⟩ := List.head?_eq_some_iff.mp hlead
  rw [after?_eq_some_iff]
  exact trimStart_eq_cons_iff hc

end Text
end KernelDepot
