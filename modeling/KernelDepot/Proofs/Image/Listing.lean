/-
Listings that are read back.

A listing is written line by line, and every line is words with single blanks between them.  So
the reader finds the lines again if no name has a blank in it, and in each line the words: an
architecture is read again, and so are a name and a size.
-/
import KernelDepot.Image.Listing
import KernelDepot.Proofs.Arch
import KernelDepot.Proofs.Text.Lines
import KernelDepot.Proofs.Text.Utf8

namespace KernelDepot

namespace Text

theorem strict?_bytes (s : String) : strict? (bytes s) = some s.toList := by
  have hdecode := Utf8.decode_bytes s.toList
  rw [String.ofList_toList] at hdecode
  unfold strict?
  rw [hdecode]
  induction s.toList with
  | nil => rfl
  | cons c rest ih => rw [List.map_cons, List.mapM_cons, ih]; rfl

end Text

namespace Listing

open Text

def targetLine (arch : String) : List Char := ".target".toList ++ ' ' :: arch.toList

def entryLine (name : String) : List Char := ".entry".toList ++ ' ' :: name.toList

def globalLine (name : String) (size : Nat) : List Char :=
  ".global".toList ++ ' ' :: (name.toList ++ ' ' :: Number.decimal size)

variable {arch name : String} {entries : List String} {globals : List (String × Nat)} {size : Nat}

/-! ## Lines -/

def linesOf (arch : String) (entries : List String) (globals : List (String × Nat)) :
    List (List Char) :=
  targetLine arch :: (entries.map entryLine ++ globals.map fun g => globalLine g.1 g.2)

theorem toList_render (arch : String) (entries : List String) (globals : List (String × Nat)) :
    (render arch entries globals).toList =
      Conditional.unlines (header.toList :: linesOf arch entries globals) := by
  have hentries : (String.join (entries.map fun name => ".entry " ++ name ++ "\n")).toList =
      Conditional.unlines (entries.map entryLine) := by
    unfold Conditional.unlines entryLine
    rw [String.toList_join, List.flatMap_map, List.flatMap_map]
    simp
  have hglobals : (String.join (globals.map fun g =>
      ".global " ++ g.1 ++ " " ++ Number.decimalText g.2 ++ "\n")).toList =
        Conditional.unlines (globals.map fun g => globalLine g.1 g.2) := by
    unfold Conditional.unlines globalLine Number.decimalText
    rw [String.toList_join, List.flatMap_map, List.flatMap_map]
    simp
  unfold render linesOf
  simp only [String.toList_append, hentries]
  rw [hglobals]
  unfold Conditional.unlines targetLine
  rw [List.flatMap_cons, List.flatMap_cons, List.flatMap_append]
  simp

/-- The names in a listing are words. -/
structure IsWritable (arch : String) (entries : List String) (globals : List (String × Nat)) :
    Prop where
  arch : IsWord arch.toList
  entries : ∀ name ∈ entries, IsWord name.toList
  globals : ∀ g ∈ globals, IsWord g.1.toList

/-- Whether the only blanks in a line are spaces. -/
def IsSpaced (line : List Char) : Prop := ∀ c ∈ line, c = ' ' ∨ isBlank c = false

theorem isSpaced_append {cs rest : List Char} (h : IsWord cs) (hrest : IsSpaced rest) :
    IsSpaced (cs ++ ' ' :: rest) := by
  intro c hc
  rcases List.mem_append.mp hc with hc | hc
  · exact .inr (h.not_blank c hc)
  · rcases List.mem_cons.mp hc with rfl | hc
    · exact .inl rfl
    · exact hrest c hc

theorem isSpaced_of_isWord {cs : List Char} (h : IsWord cs) : IsSpaced cs := fun c hc =>
  .inr (h.not_blank c hc)

theorem isSpaced_of_mem (h : IsWritable arch entries globals) {line : List Char}
    (hline : line ∈ linesOf arch entries globals) : IsSpaced line := by
  rcases List.mem_cons.mp hline with rfl | hline
  · exact isSpaced_append (by decide +kernel) (isSpaced_of_isWord h.arch)
  · rcases List.mem_append.mp hline with hline | hline
    · obtain ⟨name, hname, rfl⟩ := List.mem_map.mp hline
      exact isSpaced_append (by decide +kernel) (isSpaced_of_isWord (h.entries name hname))
    · obtain ⟨g, hg, rfl⟩ := List.mem_map.mp hline
      exact isSpaced_append (by decide +kernel) (isSpaced_append (h.globals g hg)
        (isSpaced_of_isWord (Number.isWord_decimal g.2)))

/-- The lines of a listing are the lines that were written. -/
theorem body_render (h : IsWritable arch entries globals) :
    body (Text.bytes (render arch entries globals)) = .ok (linesOf arch entries globals) := by
  have hspaced : ∀ line ∈ header.toList :: linesOf arch entries globals, IsSpaced line := by
    intro line hline
    rcases List.mem_cons.mp hline with rfl | hline
    · have hheader : header.toList = "//".toList ++ ' ' :: "mock-ptx".toList := by decide +kernel
      rw [hheader]
      exact isSpaced_append (by decide +kernel) (isSpaced_of_isWord (by decide +kernel))
    · exact isSpaced_of_mem h hline
  have hfree {line : List Char} (hline : IsSpaced line) {c : Char} (hc : c ≠ ' ')
      (hblank : isBlank c = true) : c ∉ line := fun hmem =>
    (hline c hmem).elim hc fun hnot => Bool.false_ne_true (hnot.symm.trans hblank)
  have hlines : lines (render arch entries globals).toList =
      header.toList :: linesOf arch entries globals := by
    rw [toList_render, lines_unlines fun line hline => hfree (hspaced line hline) (by decide)
      (by decide)]
    refine (List.map_congr_left fun line hline => ?_).trans (List.map_id _)
    exact withoutReturn_eq_self (hfree (hspaced line hline) (by decide) (by decide))
  unfold body
  rw [strict?_bytes]
  simp only
  rw [hlines]
  exact if_pos rfl

/-! ## Words -/

theorem item_targetLine {t : Arch} (h : t.InRange) :
    item (targetLine t.text) = .ok (.target t) := by
  have hlead : IsWord ".target".toList := by decide +kernel
  have harch : IsWord t.text.toList := by
    rw [Arch.text, String.toList_ofList]
    exact t.isWord_chars
  unfold item targetLine
  rw [hlead.words_append_cons rfl, harch.words, List.map_cons, List.map_singleton,
    String.ofList_toList, String.ofList_toList]
  simp only [Arch.parse_text h]

theorem item_entryLine (h : IsWord name.toList) : item (entryLine name) = .ok (.entry name) := by
  have hlead : IsWord ".entry".toList := by decide +kernel
  unfold item entryLine
  rw [hlead.words_append_cons rfl, h.words, List.map_cons, List.map_singleton,
    String.ofList_toList, String.ofList_toList]
  simp only

theorem item_globalLine (h : IsWord name.toList) (hsize : size < Number.limit64) :
    item (globalLine name size) = .ok (.global name size) := by
  have hlead : IsWord ".global".toList := by decide +kernel
  unfold item globalLine
  rw [hlead.words_append_cons rfl, h.words_append_cons rfl, (Number.isWord_decimal size).words,
    List.map_cons, List.map_cons, List.map_singleton, String.ofList_toList, String.ofList_toList]
  simp only [String.toList_ofList, Number.parseUnsigned_decimal hsize]

/-- The items of a listing, in the order of its lines. -/
def itemsOf (t : Arch) (entries : List String) (globals : List (String × Nat)) : List Item :=
  .target t :: (entries.map .entry ++ globals.map fun g => .global g.1 g.2)

theorem mapM_item_linesOf {t : Arch} (ht : t.InRange) (h : IsWritable t.text entries globals)
    (hsizes : ∀ g ∈ globals, g.2 < Number.limit64) :
    (linesOf t.text entries globals).map item = (itemsOf t entries globals).map .ok := by
  unfold linesOf itemsOf
  rw [List.map_cons, List.map_cons, item_targetLine ht, List.map_append, List.map_append,
    List.map_map, List.map_map, List.map_map, List.map_map]
  refine congrArg _ (congrArg₂ _ ?_ ?_)
  · exact List.map_congr_left fun name hname => item_entryLine (h.entries name hname)
  · exact List.map_congr_left fun g hg => item_globalLine (h.globals g hg) (hsizes g hg)

end Listing
end KernelDepot
