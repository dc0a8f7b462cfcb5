/-
What trimming takes away.

Trimming takes blanks from the ends and nothing else, so a text stays as it is exactly if neither
its first nor its last character is blank, and a character that is not blank stays.
-/
import KernelDepot.Proofs.Text.Words
import Mathlib.Data.List.TakeWhile

namespace KernelDepot
namespace Text

theorem trimStart_cons_of_blank {b : Char} (h : isBlank b = true) (cs : List Char) :
    trimStart (b :: cs) = trimStart cs :=
  List.dropWhile_cons_of_pos h

theorem trimStart_cons_of_not_blank {c : Char} (h : isBlank c = false) (cs : List Char) :
    trimStart (c :: cs) = c :: cs :=
  List.dropWhile_cons_of_neg (Bool.eq_false_iff.mp h)

theorem trim_cons_of_blank {b : Char} (h : isBlank b = true) (cs : List Char) :
    trim (b :: cs) = trim cs :=
  congrArg trimEnd (trimStart_cons_of_blank h cs)

theorem not_blank_of_getLast?_trim {cs : List Char} {c : Char}
    (h : (trim cs).getLast? = some c) : isBlank c = false := by
  have hhead := List.head?_dropWhile_not isBlank (trimStart cs).reverse
  rw [trim, trimEnd, List.getLast?_reverse] at h
  rw [h] at hhead
  exact hhead

theorem trim_eq_self_of_ends {cs : List Char}
    (hfirst : ∀ c, cs.head? = some c → isBlank c = false)
    (hlast : ∀ c, cs.getLast? = some c → isBlank c = false) : trim cs = cs := by
  have hkept {l : List Char} (hl : ∀ c, l.head? = some c → isBlank c = false) :
      l.dropWhile isBlank = l := by
    cases l with
    | nil => rfl
    | cons c l => exact trimStart_cons_of_not_blank (hl c rfl) l
  unfold trim trimStart trimEnd
  rw [hkept hfirst, hkept fun c hc => hlast c (List.head?_reverse ▸ hc), List.reverse_reverse]

theorem mem_trim_of_mem {cs : List Char} {c : Char} (hc : isBlank c = false) (h : c ∈ cs) :
    c ∈ trim cs := by
  have hstays {l : List Char} (hl : c ∈ l) : c ∈ l.dropWhile isBlank := by
    rw [← List.takeWhile_append_dropWhile (p := isBlank) (l := l)] at hl
    refine (List.mem_append.mp hl).resolve_left fun htaken => ?_
    exact absurd (List.mem_takeWhile_imp htaken) (Bool.eq_false_iff.mp hc)
  exact List.mem_reverse.mpr (hstays (List.mem_reverse.mpr (hstays h)))

end Text
end KernelDepot
