/-
How many files a scan can find.

A file that is found has the name of some directive and the identity of some provider, and a
text has no more directives than bytes.  So there are at most as many files as
`length_files_le` says, which is where the fuel of a scan comes from.
-/
import KernelDepot.Proofs.Include.Survey
import KernelDepot.Proofs.Include.Reach
import Mathlib.Data.List.ProdSigma

namespace KernelDepot

/-! ## The directives of a text -/

namespace Text

/-- A byte sequence has no more pieces than bytes; an unfinished character may add one. -/
theorem Utf8.length_decodeFrom (bs : Bytes) :
    (Utf8.decodeFrom none bs).length ≤ bs.length ∧
      ∀ state, (Utf8.decodeFrom (some state) bs).length ≤ bs.length + 1 := by
  induction bs with
  | nil => exact ⟨Nat.le_refl _, fun _ => Nat.le_refl _⟩
  | cons b rest ih =>
    obtain ⟨hrest, hinside⟩ := ih
    have hlead : (Utf8.decodeFrom none (b :: rest)).length ≤ rest.length + 1 := by
      simp only [Utf8.decodeFrom]
      cases Utf8.lead b with
      | single c => exact Nat.succ_le_succ hrest
      | lead state => exact hinside state
      | invalid => exact Nat.succ_le_succ hrest
    refine ⟨hlead, fun state => ?_⟩
    simp only [Utf8.decodeFrom] at hlead ⊢
    by_cases hnext : state.low ≤ b.toNat ∧ b.toNat ≤ state.high
    · rw [if_pos hnext]
      by_cases howed : state.owed ≤ 1
      · rw [if_pos howed]
        exact Nat.succ_le_succ (Nat.le_succ_of_le hrest)
      · rw [if_neg howed]
        exact Nat.le_succ_of_le (hinside _)
    · rw [if_neg hnext]
      exact Nat.succ_le_succ hlead

theorem length_lossy_le (bs : Bytes) : (lossy bs).length ≤ bs.length := by
  rw [lossy, List.length_map]
  exact (Utf8.length_decodeFrom bs).1

theorem length_lines_le (cs : List Char) : (lines cs).length ≤ cs.length := by
  fun_induction lines cs with
  | case1 => exact Nat.le_refl _
  | case2 rest ih => exact Nat.succ_le_succ ih
  | case3 rest ih => exact Nat.succ_le_succ (Nat.le_succ_of_le ih)
  | case4 c rest _ _ _ ih => exact Nat.succ_le_succ (Nat.zero_le _)
  | case5 c rest _ _ line more hmore ih =>
    rw [hmore] at ih
    exact Nat.le_succ_of_le ih

end Text

namespace Directive

theorem length_ofLines_le (inBlock : Bool) (ls : List (Nat × List Char)) :
    (ofLines inBlock ls).length ≤ ls.length := by
  induction ls generalizing inBlock with
  | nil => exact Nat.le_refl _
  | cons head rest ih =>
    obtain ⟨number, line⟩ := head
    simp only [ofLines]
    split
    · exact Nat.succ_le_succ (ih _)
    · exact Nat.le_succ_of_le (ih _)

/-- A text has no more directives than bytes. -/
theorem length_ofBytes_le (content : Bytes) : (ofBytes content).length ≤ content.length :=
  calc (ofBytes content).length
      ≤ (Text.numberedLines (Text.lossy content)).length := length_ofLines_le _ _
    _ = (Text.lines (Text.lossy content)).length := Text.length_numberedFrom _ _
    _ ≤ (Text.lossy content).length := Text.length_lines_le _
    _ ≤ content.length := Text.length_lossy_le content

def namesOf (texts : List Bytes) : List String := texts.flatMap fun t => (ofBytes t).map name

theorem length_namesOf_le (texts : List Bytes) : (namesOf texts).length ≤ texts.flatten.length := by
  induction texts with
  | nil => exact Nat.le_refl _
  | cons t rest ih =>
    have ht := length_ofBytes_le t
    simp only [namesOf, List.flatMap_cons, List.flatten_cons, List.length_append,
      List.length_map] at ih ⊢
    omega

theorem mem_namesOf {texts : List Bytes} {t : Bytes} {d : Directive} (ht : t ∈ texts)
    (hd : d ∈ ofBytes t) : d.name ∈ namesOf texts :=
  List.mem_flatMap.mpr ⟨t, ht, List.mem_map_of_mem hd⟩

end Directive

/-! ## The files that can be found -/

namespace IncludeSpace

variable {space : IncludeSpace} {root : Page}

def fileBound (space : IncludeSpace) (text : Bytes) : Nat :=
  space.path.lineBound space.disk [text] * space.path.registrations.length

theorem fuel_eq (space : IncludeSpace) (text : Bytes) :
    Scan.fuel space text = space.fileBound text + 1 := rfl

theorem length_namesOf_texts_le (space : IncludeSpace) (root : Page) :
    (Directive.namesOf (space.texts root)).length ≤
      space.path.lineBound space.disk [root.content] := by
  have h := Directive.length_namesOf_le (space.texts root)
  unfold SearchPath.lineBound
  exact Nat.le_trans h (Nat.le_add_right _ _)

/-- A file that is found has the name of a directive and the identity of a provider. -/
theorem Finds.mem_product {page : Page} {name provider : String} {content : Bytes}
    (hp : space.Reaches root page) (h : space.Finds page name provider content) :
    (name, provider) ∈ Directive.namesOf (space.texts root) ×ˢ space.path.order := by
  obtain ⟨d, hd, rfl, -⟩ := h.answer
  obtain ⟨r, hr, rfl, -⟩ := h.exists_lookup
  exact List.mem_product.mpr
    ⟨Directive.mem_namesOf hp.content_mem_texts hd, List.mem_map_of_mem hr⟩

/-- There are only so many files that can be found from a page. -/
theorem length_files_le {files : List Dependency}
    (hfound : ∀ f ∈ files, ∃ page, space.Reaches root page ∧
      space.Finds page f.name f.provider f.content)
    (hdistinct : (files.map fun f => (f.name, f.provider)).Nodup) :
    files.length ≤ space.fileBound root.content := by
  have hsub : (files.map fun f => (f.name, f.provider)) ⊆
      Directive.namesOf (space.texts root) ×ˢ space.path.order := by
    intro k hk
    obtain ⟨f, hf, rfl⟩ := List.mem_map.mp hk
    obtain ⟨page, hp, hfinds⟩ := hfound f hf
    exact hfinds.mem_product hp
  have hle := (List.subperm_of_subset hdistinct hsub).length_le
  rw [List.length_map, List.length_product, SearchPath.order, List.length_map] at hle
  exact Nat.le_trans hle (Nat.mul_le_mul_right _ (space.length_namesOf_texts_le root))

end IncludeSpace
end KernelDepot
