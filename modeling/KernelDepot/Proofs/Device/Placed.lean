/-
Where the variables of modules are.

Numbers below `2 ^ 56` have addresses of their own, because eight more bits fit into 64.  A number
is given to one variable at most, so as long as there are no more numbers than these, the variables
of the modules on a device are all at different addresses, and contents are only at addresses whose
number was given out.  Every call keeps it so, and then every program of calls does.
-/
import KernelDepot.Proofs.Device.Listed
import Mathlib.Algebra.GroupWithZero.Nat

namespace KernelDepot

namespace SimulatedDriver

theorem addressOf_of_lt {n : Nat} (h : n < 2 ^ 56) : addressOf n = n * 256 :=
  Nat.mod_eq_of_lt (show n * 256 < 18446744073709551616 by omega)

theorem addressOf_injective {m n : Nat} (hm : m < 2 ^ 56) (hn : n < 2 ^ 56)
    (h : addressOf m = addressOf n) : m = n := by
  rw [addressOf_of_lt hm, addressOf_of_lt hn] at h
  exact Nat.eq_of_mul_eq_mul_right (by decide) h

end SimulatedDriver

open SimulatedDriver

/-! ## One table of symbols -/

namespace SymbolTable

/-- Whether the variables of a table are at the addresses of different numbers from a range. -/
structure IsPlaced (t : SymbolTable) (first next : Nat) : Prop where
  issued : ∀ e ∈ t.globals.entries, ∃ n, first ≤ n ∧ n < next ∧ e.2.address = addressOf n
  apart : ∀ e ∈ t.globals.entries, ∀ e' ∈ t.globals.entries,
    e.2.address = e'.2.address → e.1 = e'.1

variable {t : SymbolTable} {first next next' : Nat}

theorem IsPlaced.empty (first next : Nat) : ({} : SymbolTable).IsPlaced first next where
  issued _ he := absurd he List.not_mem_nil
  apart _ he := absurd he List.not_mem_nil

theorem IsPlaced.mono (h : t.IsPlaced first next) (hle : next ≤ next') :
    t.IsPlaced first next' where
  issued e he := by
    obtain ⟨n, hfirst, hnext, haddress⟩ := h.issued e he
    exact ⟨n, hfirst, Nat.lt_of_lt_of_le hnext hle, haddress⟩
  apart := h.apart

/-- A further variable is at the address of the next number. -/
theorem IsPlaced.insert (h : t.IsPlaced first next) (hfirst : first ≤ next)
    (hnext : next < 2 ^ 56) (name : String) (size : Nat) :
    ({ t with globals := t.globals.insert name ⟨addressOf next, size⟩ } : SymbolTable).IsPlaced
      first (next + 1) where
  issued e he := by
    rcases NameTable.mem_insertEntry he with rfl | he
    · exact ⟨next, hfirst, Nat.lt_succ_self _, rfl⟩
    · exact (h.mono (Nat.le_succ _)).issued e he
  apart := by
    have hother (e : String × DeviceGlobal) (he : e ∈ t.globals.entries) :
        e.2.address ≠ addressOf next := by
      obtain ⟨n, -, hn, haddress⟩ := h.issued e he
      intro heq
      have := addressOf_injective (hn.trans hnext) hnext (haddress.symm.trans heq)
      omega
    intro e he e' he' heq
    rcases NameTable.mem_insertEntry he with rfl | he
    · rcases NameTable.mem_insertEntry he' with rfl | he'
      · rfl
      · exact absurd heq.symm (hother e' he')
    · rcases NameTable.mem_insertEntry he' with rfl | he'
      · exact absurd heq (hother e he)
      · exact h.apart e he e' he' heq

end SymbolTable

namespace SimulatedDriver

theorem isPlaced_add {i : Intake} {first : Nat} (h : i.symbols.IsPlaced first i.next)
    (hfirst : first ≤ i.next) (item : Listing.Item) (hnext : (i.add item).next ≤ 2 ^ 56) :
    (i.add item).symbols.IsPlaced first (i.add item).next := by
  cases item with
  | blank => exact h
  | target arch => exact h
  | entry name => exact ⟨(h.mono (Nat.le_succ _)).issued, h.apart⟩
  | «global» name size => exact h.insert hfirst hnext name size

theorem isPlaced_takeIn {first : Nat} (lines : List (List Char)) {i : Intake}
    (h : i.symbols.IsPlaced first i.next) (hfirst : first ≤ i.next)
    (hnext : (takeIn i lines).2.next ≤ 2 ^ 56) :
    (takeIn i lines).2.symbols.IsPlaced first (takeIn i lines).2.next := by
  induction lines generalizing i with
  | nil => exact h
  | cons line rest ih =>
    unfold takeIn at hnext ⊢
    cases hitem : Listing.item line with
    | error fault => exact h
    | ok item =>
      simp only [hitem] at hnext ⊢
      have hle : i.next ≤ (i.add item).next := by
        have hone := takeIn_next_le i [line]
        unfold takeIn at hone
        simp only [hitem] at hone
        exact hone
      have hrest := takeIn_next_le (i.add item) rest
      exact ih (isPlaced_add h hfirst item (hrest.trans hnext)) (hfirst.trans hle) hnext

/-! ## The whole device -/

variable {d d' : SimulatedDriver} {handle handle' : Nat} {symbol symbol' : String}
  {symbols : SymbolTable} {g g' : DeviceGlobal}

def HasGlobal (d : SimulatedDriver) (handle : Nat) (symbol : String) (g : DeviceGlobal) : Prop :=
  ∃ t, (handle, t) ∈ d.modules ∧ (symbol, g) ∈ t.globals.entries

/-- Different variables on the device are at different addresses, and numbers that were not given
out have no contents. -/
structure IsLaidOut (d : SimulatedDriver) : Prop extends d.IsNumbered where
  issued : ∀ {handle symbol g}, d.HasGlobal handle symbol g → ∃ n < d.next, g.address = addressOf n
  apart : ∀ {handle symbol g handle' symbol' g'}, d.HasGlobal handle symbol g →
    d.HasGlobal handle' symbol' g' → g.address = g'.address → handle = handle' ∧ symbol = symbol'
  memory : ∀ cell ∈ d.memory, ∃ n < d.next, cell.1 = addressOf n

theorem Keeps.isLaidOut (h : Keeps d d') (hd : d.IsLaidOut)
    (hmemory : ∀ cell ∈ d'.memory, ∃ n < d'.next, cell.1 = addressOf n) : d'.IsLaidOut where
  toIsNumbered := h.isNumbered hd.toIsNumbered
  issued := by
    unfold HasGlobal
    rw [h.modules]
    intro _ _ _ hg
    obtain ⟨n, hn, haddress⟩ := hd.issued hg
    exact ⟨n, Nat.lt_of_lt_of_le hn h.next, haddress⟩
  apart := by
    unfold HasGlobal
    rw [h.modules]
    exact hd.apart
  memory := hmemory

theorem Keeps.isLaidOut_of_memory_eq (h : Keeps d d') (hd : d.IsLaidOut)
    (hmemory : d'.memory = d.memory) : d'.IsLaidOut :=
  h.isLaidOut hd fun cell hcell => by
    obtain ⟨n, hn, haddress⟩ := hd.memory cell (hmemory ▸ hcell)
    exact ⟨n, Nat.lt_of_lt_of_le hn h.next, haddress⟩

theorem Gains.hasGlobal (h : Gains d d' handle symbols) (hg : d'.HasGlobal handle' symbol g) :
    d.HasGlobal handle' symbol g ∨ handle' = handle ∧ (symbol, g) ∈ symbols.globals.entries := by
  obtain ⟨t, hmem, hentry⟩ := hg
  rw [h.modules] at hmem
  rcases List.mem_append.mp hmem with hmem | hmem
  · exact .inl ⟨t, hmem, hentry⟩
  · obtain ⟨rfl, rfl⟩ := Prod.mk.inj (List.mem_singleton.mp hmem)
    exact .inr ⟨rfl, hentry⟩

/-- The numbers of the variables that were there are lower than those of the new ones. -/
theorem Gains.isLaidOut (h : Gains d d' handle symbols) (hd : d.IsLaidOut)
    (hplaced : symbols.IsPlaced d.next d'.next) (hnext : d'.next ≤ 2 ^ 56)
    (hmemory : d'.memory = d.memory) : d'.IsLaidOut := by
  have hle : d.next ≤ d'.next := h.fresh.trans h.next.le
  have hnew {e : String × DeviceGlobal} (he : e ∈ symbols.globals.entries) {handle symbol}
      {g : DeviceGlobal} (hg : d.HasGlobal handle symbol g) : e.2.address ≠ g.address := by
    obtain ⟨m, hm, hm', hnew⟩ := hplaced.issued e he
    obtain ⟨n, hn, hold⟩ := hd.issued hg
    intro heq
    have := addressOf_injective (by omega) (by omega) (hnew.symm.trans (heq.trans hold))
    omega
  refine ⟨h.isNumbered hd.toIsNumbered, fun hg => ?_, fun hg hg' heq => ?_, fun cell hcell => ?_⟩
  · rcases h.hasGlobal hg with hg | ⟨-, hg⟩
    · obtain ⟨n, hn, haddress⟩ := hd.issued hg
      exact ⟨n, Nat.lt_of_lt_of_le hn hle, haddress⟩
    · obtain ⟨n, -, hn, haddress⟩ := hplaced.issued _ hg
      exact ⟨n, hn, haddress⟩
  · rcases h.hasGlobal hg with hold | ⟨hhandle, hentry⟩
    · rcases h.hasGlobal hg' with hold' | ⟨-, hentry'⟩
      · exact hd.apart hold hold' heq
      · exact absurd heq.symm (hnew hentry' hold)
    · rcases h.hasGlobal hg' with hold' | ⟨hhandle', hentry'⟩
      · exact absurd heq (hnew hentry hold')
      · exact ⟨hhandle.trans hhandle'.symm, hplaced.apart _ hentry _ hentry' heq⟩
  · obtain ⟨n, hn, haddress⟩ := hd.memory cell (hmemory ▸ hcell)
    exact ⟨n, Nat.lt_of_lt_of_le hn hle, haddress⟩

/-! ### Single calls -/

/-- The table of a new module has the addresses of new numbers. -/
theorem answer_load_placed (hd : d.IsNumbered) (image : Bytes) :
    match answer (.load image) d with
    | (.error _, d') => Keeps d d' ∧ d'.memory = d.memory
    | (.ok handle, d') => d'.memory = d.memory ∧ ∃ symbols, Gains d d' handle symbols ∧
      (d'.next ≤ 2 ^ 56 → symbols.IsPlaced d.next d'.next) := by
  rw [answer_eq_perform hd]
  simp only [perform]
  rcases load_cases d image with ⟨status, next, hle, hload⟩ | ⟨lines, i, htaken, hload⟩
  · rw [hload]
    exact ⟨⟨rfl, hle, rfl, rfl⟩, rfl⟩
  · have hle := takeIn_next_le ⟨{}, none, d.next⟩ lines
    have hplaced := isPlaced_takeIn (i := ⟨{}, none, d.next⟩) lines (.empty _ _) le_rfl
    rw [htaken] at hle hplaced
    rw [hload]
    refine ⟨rfl, i.symbols, ⟨rfl, hle, Nat.lt_succ_self _, rfl, rfl⟩, fun hnext => ?_⟩
    exact (hplaced ((Nat.le_succ _).trans hnext)).mono (Nat.le_succ _)

theorem next_le_answer (hd : d.IsNumbered) (call : DriverCall) :
    d.next ≤ (answer call d).2.next := by
  by_cases hload : call.kind = .load
  · cases call with
    | load image =>
      have hanswer := answer_load_placed hd image
      generalize answer (.load image) d = reply at hanswer ⊢
      obtain ⟨loaded, d'⟩ := reply
      cases loaded with
      | error status => exact hanswer.1.next
      | ok handle =>
        obtain ⟨-, symbols, hgains, -⟩ := hanswer
        exact hgains.fresh.trans hgains.next.le
    | _ => cases hload
  · by_cases hunload : call.kind = .unload
    · cases call with
      | unload handle =>
        rw [answer_eq_perform hd]
        simp only [perform, unload]
        cases d.symbols? handle <;> exact Nat.le_refl _
      | _ => cases hunload
    · exact (keeps_answer call hload hunload d).next

theorem HasGlobal.of_unload (hg : (d.unload handle).2.HasGlobal handle' symbol g) :
    d.HasGlobal handle' symbol g := by
  unfold SimulatedDriver.unload at hg
  cases hs : d.symbols? handle with
  | none => simpa only [hs] using hg
  | some symbols =>
    simp only [hs] at hg
    obtain ⟨t, hmem, hentry⟩ := hg
    exact ⟨t, List.mem_of_mem_filter hmem, hentry⟩

theorem IsLaidOut.unload (h : d.IsLaidOut) (handle : Nat) : (d.unload handle).2.IsLaidOut where
  toIsNumbered := isNumbered_unload h.toIsNumbered handle
  issued hg := by
    obtain ⟨n, hn, haddress⟩ := h.issued hg.of_unload
    refine ⟨n, ?_, haddress⟩
    unfold SimulatedDriver.unload
    cases d.symbols? handle <;> exact hn
  apart hg hg' := h.apart hg.of_unload hg'.of_unload
  memory := by
    unfold SimulatedDriver.unload
    cases d.symbols? handle with
    | none => exact h.memory
    | some symbols => exact fun cell hcell => h.memory cell (List.mem_of_mem_filter hcell)

theorem exists_hasGlobal_of_hasRoom {address size : Nat} (h : d.hasRoom address size = true) :
    ∃ handle symbol g, d.HasGlobal handle symbol g ∧ g.address = address := by
  obtain ⟨m, hm, hroom⟩ := List.any_eq_true.mp h
  obtain ⟨g, hg, hfits⟩ := List.any_eq_true.mp hroom
  obtain ⟨e, he, rfl⟩ := List.mem_map.mp hg
  exact ⟨m.1, e.1, e.2, ⟨m.2, hm, he⟩, (of_decide_eq_true hfits).1⟩

theorem IsLaidOut.copy (h : d.IsLaidOut) (address : Nat) (bytes : Bytes) :
    (perform (.copy address bytes) d).2.IsLaidOut := by
  simp only [perform]
  by_cases hroom : d.hasRoom address bytes.length = true
  · rw [if_pos hroom]
    have hkeeps : Keeps d { d with
        memory := (address, bytes) :: d.memory.filter fun cell => cell.1 ≠ address } :=
      ⟨rfl, Nat.le_refl _, rfl, rfl⟩
    refine hkeeps.isLaidOut h fun cell hcell => ?_
    rcases List.mem_cons.mp hcell with rfl | hcell
    · obtain ⟨handle, symbol, g, hg, rfl⟩ := exists_hasGlobal_of_hasRoom hroom
      exact h.issued hg
    · exact h.memory cell (List.mem_of_mem_filter hcell)
  · rw [if_neg hroom]
    exact h

/-- A call lays out no variable over another. -/
theorem IsLaidOut.answer (h : d.IsLaidOut) (call : DriverCall)
    (hnext : (answer call d).2.next ≤ 2 ^ 56) : (SimulatedDriver.answer call d).2.IsLaidOut := by
  cases call with
  | load image =>
    have hanswer := answer_load_placed h.toIsNumbered image
    generalize SimulatedDriver.answer (.load image) d = reply at hanswer hnext ⊢
    obtain ⟨loaded, d'⟩ := reply
    cases loaded with
    | error status => exact hanswer.1.isLaidOut_of_memory_eq h hanswer.2
    | ok handle =>
      obtain ⟨hmemory, symbols, hgains, hplaced⟩ := hanswer
      exact hgains.isLaidOut h (hplaced hnext) hnext hmemory
  | unload handle =>
    rw [answer_eq_perform h.toIsNumbered]
    exact h.unload handle
  | copy address bytes =>
    rw [answer_eq_perform h.toIsNumbered]
    exact h.copy address bytes
  | bind =>
    refine (keeps_bind d).isLaidOut_of_memory_eq h ?_
    rw [answer_eq_perform h.toIsNumbered]
    rfl
  | launch function shape =>
    refine (keeps_answer (.launch function shape) nofun nofun d).isLaidOut_of_memory_eq h ?_
    rw [answer_eq_perform h.toIsNumbered]
    simp only [perform]
    split <;> rfl
  | getFunction | getGlobal | occupancy =>
    rw [answer_eq_perform h.toIsNumbered]
    exact h

/-! ### Programs of calls -/

theorem isNumbered_run {α : Type} (p : Driving α) (hd : d.IsNumbered) :
    (p.run SimulatedDriver.answer d).2.IsNumbered := by
  induction p generalizing d with
  | done value => exact hd
  | ask call next ih => exact ih _ (isNumbered_answer hd call)

theorem next_le_run {α : Type} (p : Driving α) (hd : d.IsNumbered) :
    d.next ≤ (p.run SimulatedDriver.answer d).2.next := by
  induction p generalizing d with
  | done value => exact Nat.le_refl _
  | ask call next ih =>
    exact (next_le_answer hd call).trans (ih _ (isNumbered_answer hd call))

/-- No program lays out a variable over another. -/
theorem IsLaidOut.run {α : Type} (p : Driving α) (h : d.IsLaidOut)
    (hnext : (p.run SimulatedDriver.answer d).2.next ≤ 2 ^ 56) :
    (p.run SimulatedDriver.answer d).2.IsLaidOut := by
  induction p generalizing d with
  | done value => exact h
  | ask call next ih =>
    -- The bound is on the last number, and none of the calls after this one lowers it.
    have hle := next_le_run (next (SimulatedDriver.answer call d).1)
      (isNumbered_answer h.toIsNumbered call)
    exact ih _ (h.answer call (hle.trans hnext)) hnext

theorem Reached.isLaidOut (h : d.Reached) (hnext : d.next ≤ 2 ^ 56) : d.IsLaidOut := by
  induction h with
  | start major minor =>
    refine ⟨⟨rfl, nofun⟩, fun hg => ?_, fun hg => ?_, nofun⟩
    · obtain ⟨t, hmem, -⟩ := hg
      exact nomatch hmem
    · obtain ⟨t, hmem, -⟩ := hg
      exact nomatch hmem
  | call call hd ih =>
    exact (ih ((next_le_answer hd.isNumbered call).trans hnext)).answer call hnext
  | context lost _ ih =>
    have h := ih hnext
    exact ⟨⟨h.refusals, h.lt_next⟩, h.issued, h.apart, h.memory⟩

end SimulatedDriver
end KernelDepot
