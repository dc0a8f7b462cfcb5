/-
The symbols of a simulated compilation.

A compilation that succeeds has the output of its job, whatever was answered on the way.  The
lowered name of an entry is a word, since every character that is not plain is replaced, and the
address of a variable is lowered to the variable.  So the artifact lists every entry under its
lowered name and every constant under its own, and the image is a listing of these symbols.
-/
import KernelDepot.Compilation
import KernelDepot.Proofs.Image.Listing
import KernelDepot.Proofs.NameTable
import KernelDepot.Toolchain.Simulated

namespace KernelDepot

namespace NameTable

variable {α : Type}

/-- A table that is filled from its names has for each of them what was made of it. -/
theorem find?_ofList_map (l : List String) (f : String → α) (n : String) :
    (ofList (l.map fun e => (e, f e))).find? n = if n ∈ l then some (f n) else none := by
  have hfold (t : NameTable α) :
      ((l.map fun e => (e, f e)).foldl (fun t pair => t.insert pair.1 pair.2) t).find? n =
        if n ∈ l then some (f n) else t.find? n := by
    induction l generalizing t with
    | nil => rfl
    | cons e rest ih =>
      rw [List.map_cons, List.foldl_cons, ih, find?_insert]
      by_cases hrest : n ∈ rest
      · rw [if_pos hrest, if_pos (List.mem_cons_of_mem e hrest)]
      · by_cases he : n = e
        · rw [if_neg hrest, if_pos he, if_pos (List.mem_cons.mpr (.inl he)), he]
        · rw [if_neg hrest, if_neg he, if_neg fun h => (List.mem_cons.mp h).elim he hrest]
  exact hfold empty

theorem mem_names_ofList_map {l : List String} {f : String → α} {n : String} :
    n ∈ (ofList (l.map fun e => (e, f e))).names ↔ n ∈ l := by
  rw [mem_names_ofList, List.map_map, show Prod.fst ∘ (fun e => (e, f e)) = id from rfl,
    List.map_id]

end NameTable

namespace SimulatedToolchain

open Text

/-- A compilation that succeeds has the output of its job. -/
theorem eq_output_of_run {σ : Type}
    {handle : Program.Handler IncludeRequest (fun _ => Option Bytes) σ} {t : SimulatedToolchain}
    {job : Job} {x : σ} {out : ToolchainOutput} (h : ((t.compile job).run handle x).1 = .ok out) :
    out = output job := by
  unfold compile at h
  simp only [Program.run_bind] at h
  generalize (readPending job.headers openLimit (definedAtStart job.options)
    ⟨[], [(job.programName, job.source)]⟩).run handle x = read at h
  obtain ⟨read, x₁⟩ := read
  cases read with
  | error log => exact nomatch h
  | ok =>
    simp only [Program.run_bind] at h
    generalize (askHidden job.programName t.hiddenIncludes).run handle x₁ = asked at h
    obtain ⟨asked, x₂⟩ := asked
    cases asked with
    | error log => exact nomatch h
    | ok =>
      simp only at h
      split at h
      · exact nomatch h
      · exact (Except.ok.inj h).symm

/-! ## Lowered names -/

theorem isBlank_of_isPlain {c : Char} (h : isPlain c = true) : isBlank c = false := by
  rcases Bool.or_eq_true_iff.mp (h : (c.isAlpha || c.isDigit) = true) with halpha | hdigit
  · have hrange : (65 ≤ c.toNat ∧ c.toNat ≤ 90) ∨ (97 ≤ c.toNat ∧ c.toNat ≤ 122) := by
      rcases Bool.or_eq_true_iff.mp (halpha : (c.isUpper || c.isLower) = true) with hupper | hlower
      · exact .inl (of_decide_eq_true hupper)
      · obtain ⟨hfrom, hto⟩ := Bool.and_eq_true_iff.mp hlower
        exact .inr ⟨of_decide_eq_true hfrom, of_decide_eq_true hto⟩
    simp [isBlank]
    omega
  · exact Number.isBlank_of_isDigit hdigit

theorem isWord_lower {e : String} (hblank : isBlankText e = false)
    (haddress : isAddress e = false) : IsWord (lower e).toList := by
  have hne : e.toList ≠ [] := by
    intro hnil
    unfold isBlankText at hblank
    rw [hnil] at hblank
    exact Bool.false_ne_true hblank.symm
  unfold lower
  split
  · next name heq =>
    unfold isAddress at haddress
    rw [heq] at haddress
    simp [List.isPrefixOf] at haddress
  · split
    · next hplain =>
      refine ⟨hne, fun c hc => ?_⟩
      have hc := List.all_eq_true.mp hplain c hc
      rcases Bool.or_eq_true_iff.mp hc with hc | hc
      · exact isBlank_of_isPlain hc
      · rw [beq_iff_eq.mp hc]
        rfl
    · simp only [String.toList_append, Number.decimalText, String.toList_ofList]
      have hlead : IsWord "_Z".toList := by decide +kernel
      refine (hlead.append (Number.isWord_decimal _).not_blank).append fun c hc => ?_
      obtain ⟨original, -, rfl⟩ := List.mem_map.mp hc
      split
      next hplain => exact isBlank_of_isPlain hplain
      next => rfl

theorem toList_address (name : String) : ("&" ++ name).toList = '&' :: name.toList := by
  rw [String.toList_append]
  rfl

theorem isAddress_address (name : String) : isAddress ("&" ++ name) = true := by
  unfold isAddress
  rw [toList_address]
  exact List.isPrefixOf_iff_prefix.mpr (List.prefix_append ['&'] name.toList)

theorem lower_address {name : String} (h : IsWord name.toList) : lower ("&" ++ name) = name := by
  unfold lower
  rw [toList_address]
  show String.ofList (trim name.toList) = name
  rw [trim_eq_self h.not_blank, String.ofList_toList]

end SimulatedToolchain

/-! ## The artifact -/

theorem Request.isBlankText_of_validate {r : Request} {arch : Arch} (h : r.validate = .ok arch) :
    ∀ e ∈ r.entries, Text.isBlankText e = false := by
  unfold validate at h
  split at h
  · exact nomatch h
  · split at h
    · exact nomatch h
    · next hfind =>
      intro e he
      exact Bool.eq_false_iff.mpr (List.find?_eq_none.mp hfind e he)

/-- What a simulated compilation can lower: no entry is an address, and constants are words. -/
structure Request.IsLowerable (r : Request) : Prop where
  entries : ∀ e ∈ r.entries, SimulatedToolchain.isAddress e = false
  constants : ∀ c ∈ r.constants, Text.IsWord c.toList

namespace PreparedRequest

open SimulatedToolchain

variable {p : PreparedRequest}

/-- Only the expressions for the constants are addresses. -/
theorem isAddress_of_mem_addresses {r : Request} :
    ∀ e ∈ r.constants.map ("&" ++ ·), isAddress e = true := by
  intro e he
  obtain ⟨name, -, rfl⟩ := List.mem_map.mp he
  exact isAddress_address name

theorem filter_isAddress_nameExpressions {r : Request} (h : r.IsLowerable) :
    (nameExpressions r).filter isAddress = r.constants.map ("&" ++ ·) := by
  unfold nameExpressions
  rw [List.filter_append, List.filter_eq_self.mpr isAddress_of_mem_addresses,
    List.filter_eq_nil_iff.mpr fun e he => Bool.eq_false_iff.mp (h.entries e he), List.nil_append]

theorem filter_not_isAddress_nameExpressions {r : Request} (h : r.IsLowerable) :
    (nameExpressions r).filter (fun e => !isAddress e) = r.entries := by
  have hkept : r.entries.filter (fun e => !isAddress e) = r.entries :=
    List.filter_eq_self.mpr fun e he => by rw [h.entries e he]; rfl
  have hdropped : (r.constants.map ("&" ++ ·)).filter (fun e => !isAddress e) = [] :=
    List.filter_eq_nil_iff.mpr fun e he => by simp [isAddress_of_mem_addresses e he]
  unfold nameExpressions
  rw [List.filter_append, hkept, hdropped, List.append_nil]

/-- The image is a listing of the lowered names of the entries and of the constants. -/
theorem image_output (h : p.request.IsLowerable) :
    (output p.job).image = Text.bytes (Listing.render p.arch.text (p.request.entries.map lower)
      (p.request.constants.map fun c => (c, Listing.constantSize))) := by
  have hlower :
      (p.request.constants.map ("&" ++ ·)).map (fun e => (lower e, Listing.constantSize)) =
        p.request.constants.map fun c => (c, Listing.constantSize) := by
    rw [List.map_map]
    exact List.map_congr_left fun c hc =>
      congrArg (fun name => (name, Listing.constantSize)) (lower_address (h.constants c hc))
  have hentries : p.job.names.filter (fun e => !isAddress e) = p.request.entries :=
    filter_not_isAddress_nameExpressions h
  have hconstants : p.job.names.filter isAddress = p.request.constants.map ("&" ++ ·) :=
    filter_isAddress_nameExpressions h
  unfold output
  simp only
  rw [hentries, hconstants, hlower]
  rfl

theorem symbol_output {e : String} (he : e ∈ nameExpressions p.request) :
    symbol (output p.job) e = lower e := by
  have hfind : (output p.job).loweredNames.find? e = some (lower e) := by
    refine (NameTable.find?_ofList_map p.job.names lower e).trans (if_pos he)
  unfold symbol
  rw [hfind]
  rfl

/-- The artifact lists every entry under its lowered name and every constant under its own. -/
theorem artifact_output (h : p.request.IsLowerable) : p.artifact (output p.job) =
    { image := Text.bytes (Listing.render p.arch.text (p.request.entries.map lower)
        (p.request.constants.map fun c => (c, Listing.constantSize)))
      format := .ptx
      arch := p.arch.text
      entries := .ofList (p.request.entries.map fun e => (e, lower e))
      constants := .ofList (p.request.constants.map fun c => (c, c)) } := by
  have hentries : (p.request.entries.map fun e => (e, symbol (output p.job) e)) =
      p.request.entries.map fun e => (e, lower e) := by
    refine List.map_congr_left fun e he => congrArg (e, ·) (symbol_output ?_)
    exact List.mem_append_left _ he
  have hconstants : (p.request.constants.map fun c => (c, symbol (output p.job) ("&" ++ c))) =
      p.request.constants.map fun c => (c, c) := by
    refine List.map_congr_left fun c hc => congrArg (c, ·) ?_
    rw [symbol_output (List.mem_append_right _ (List.mem_map_of_mem hc)),
      lower_address (h.constants c hc)]
  unfold artifact
  rw [image_output h, hentries, hconstants]
  rfl

/-- The artifact of a simulated compilation that succeeds. -/
theorem artifact_of_outcome {t : SimulatedToolchain} {verbose : Bool} {c : Compilation}
    (h : (p.compile verbose (t.compile p.job)).outcome = .ok c) :
    c.artifact = p.artifact (output p.job) := by
  have hout (out : ToolchainOutput) (hrun : ((t.compile p.job).run
      (Session.answer p.space p.source) {}).1 = .ok out) : out = output p.job :=
    eq_output_of_run hrun
  unfold compile at h
  generalize (t.compile p.job).run (Session.answer p.space p.source) {} = result at hout h
  obtain ⟨result, s⟩ := result
  cases result with
  | error log => exact nomatch h
  | ok out =>
    obtain rfl := hout out rfl
    rw [← Except.ok.inj h]

end PreparedRequest
end KernelDepot
