/-
Words and what trimming leaves.

A text without blanks is a word if it is not empty.  Trimming leaves it as it is, and cutting a
line into words gives one back that a blank or the end of the line follows.
-/
import KernelDepot.Text.Blank

namespace KernelDepot
namespace Text

theorem trim_eq_self {cs : List Char} (h : ∀ c ∈ cs, isBlank c = false) : trim cs = cs := by
  have hkept {l : List Char} (hl : ∀ c ∈ l, isBlank c = false) : l.dropWhile isBlank = l := by
    cases l with
    | nil => rfl
    | cons c l =>
      refine List.dropWhile_cons_of_neg ?_
      rw [hl c List.mem_cons_self]
      exact Bool.false_ne_true
  unfold trim trimStart trimEnd
  rw [hkept h, hkept fun c hc => h c (List.mem_reverse.mp hc), List.reverse_reverse]

structure IsWord (cs : List Char) : Prop where
  ne_nil : cs ≠ []
  not_blank : ∀ c ∈ cs, isBlank c = false

namespace IsWord

variable {cs : List Char}

theorem iff_all : IsWord cs ↔ cs ≠ [] ∧ cs.all (!isBlank ·) = true := by
  simp only [List.all_eq_true, Bool.not_eq_true']
  exact ⟨fun h => ⟨h.ne_nil, h.not_blank⟩, fun h => ⟨h.1, h.2⟩⟩

instance : Decidable (IsWord cs) := decidable_of_iff' _ iff_all

theorem words (h : IsWord cs) : words cs = [cs] := by
  unfold Text.words
  rw [List.splitOnP_eq_singleton h.not_blank]
  exact List.filter_eq_self.mpr fun word hword => by
    rw [List.mem_singleton.mp hword, Bool.not_eq_true', List.isEmpty_eq_false_iff]
    exact h.ne_nil

theorem words_append_cons (h : IsWord cs) {b : Char} (hb : isBlank b = true) (rest : List Char) :
    Text.words (cs ++ b :: rest) = cs :: Text.words rest := by
  have hone := h.words
  unfold Text.words at hone ⊢
  rw [List.splitOnP_append_cons cs rest hb, List.filter_append, hone, List.singleton_append]

theorem append {ds : List Char} (h : IsWord cs) (hd : ∀ c ∈ ds, isBlank c = false) :
    IsWord (cs ++ ds) :=
  ⟨List.append_ne_nil_of_left_ne_nil h.ne_nil ds, fun c hc =>
    (List.mem_append.mp hc).elim (h.not_blank c) (hd c)⟩

end IsWord

end Text
end KernelDepot
