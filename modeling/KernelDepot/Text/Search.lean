/-
Finding and cutting.

`cut? mark text` splits a text around the first occurrence of a mark.  The two
parts and the mark between them make up the text again (`eq_of_cut?`), so the
part behind a mark that is not empty is shorter than the text
(`length_lt_of_cut?`).
-/

namespace KernelDepot
namespace Text

/-- The text behind `lead`, when the text starts with it. -/
def after? (lead : List Char) (text : List Char) : Option (List Char) :=
  if lead.isPrefixOf text then some (text.drop lead.length) else none

/-- The text in front of `tail`, when the text ends with it. -/
def before? (tail : List Char) (text : List Char) : Option (List Char) :=
  if tail.isSuffixOf text then some (text.take (text.length - tail.length)) else none

/-- The parts in front of and behind the first occurrence of `mark`. -/
def cut? (mark : List Char) : List Char → Option (List Char × List Char)
  | [] => if mark.isEmpty then some ([], []) else none
  | c :: rest =>
    if mark.isPrefixOf (c :: rest) then some ([], (c :: rest).drop mark.length)
    else (cut? mark rest).map fun (front, back) => (c :: front, back)

/-- The first occurrence of `mark` and the two parts make up the text. -/
theorem eq_of_cut? {mark text front back : List Char}
    (h : cut? mark text = some (front, back)) : text = front ++ mark ++ back := by
  induction text generalizing front back with
  | nil =>
    simp only [cut?, List.isEmpty_iff] at h
    split at h
    · rename_i hm
      simp only [Option.some.injEq, Prod.mk.injEq] at h
      simp [← h.1, ← h.2, hm]
    · simp at h
  | cons c rest ih =>
    simp only [cut?] at h
    split at h
    · rename_i hp
      simp only [Option.some.injEq, Prod.mk.injEq] at h
      obtain ⟨tail, ht⟩ := List.isPrefixOf_iff_prefix.mp hp
      rw [← ht] at h ⊢
      simp [← h.1, ← h.2]
    · simp only [Option.map_eq_some_iff, Prod.mk.injEq, Prod.exists] at h
      obtain ⟨f, b, hc, hf, hb⟩ := h
      rw [ih hc, ← hf, ← hb]
      simp

theorem length_lt_of_cut? {mark text front back : List Char} (hm : mark ≠ [])
    (h : cut? mark text = some (front, back)) : back.length < text.length := by
  have hl := List.length_pos_iff.mpr hm
  rw [eq_of_cut? h]
  simp only [List.length_append]
  omega

def contains (mark text : List Char) : Bool := (cut? mark text).isSome

def replaceChar (old new : Char) (text : List Char) : List Char :=
  text.map fun c => if c = old then new else c

/-- Drop `lead` from the front as often as it stands there. -/
def dropRepeated (lead : List Char) (text : List Char) : List Char :=
  match after? lead text with
  | none => text
  | some rest => if rest.length < text.length then dropRepeated lead rest else text
termination_by text.length

end Text
end KernelDepot
