/-
The modules on a simulated driver.

Loading an artifact either adds one module to the device, under a handle that was never given
out before, or leaves the modules of the device as they were, at whatever point it fails.
Unloading takes exactly one away.  As long as a module is on the device its functions can be
launched and its constants filled.
-/
import KernelDepot.Device.Simulated
import KernelDepot.Device.Module
import KernelDepot.Proofs.NameTable

namespace KernelDepot
namespace SimulatedDriver

/-- The handles of the modules on a device. -/
def table (d : SimulatedDriver) : List Nat := d.modules.map Prod.fst

/-- Whether a driver makes its context current and unloads modules when it is told to. -/
structure IsWilling (d : SimulatedDriver) : Prop where
  context : d.losesContext = false
  bind : d.refusals.lookup .bind = none
  unload : d.refusals.lookup .unload = none

/-- Whether the handles of the modules are different and none is going to be given out again. -/
structure IsSound (d : SimulatedDriver) : Prop where
  nodup : d.table.Nodup
  lt_next : ∀ n ∈ d.table, n < d.next

/-- Whether one state of a driver comes after another with no module loaded or unloaded. -/
structure Keeps (d d' : SimulatedDriver) : Prop where
  modules : d'.modules = d.modules
  next : d.next ≤ d'.next
  context : d'.losesContext = d.losesContext
  refusals : d'.refusals = d.refusals

/-- Whether one state of a driver comes after another with one module loaded in between. -/
structure Gains (d d' : SimulatedDriver) (handle : Nat) (symbols : SymbolTable) : Prop where
  modules : d'.modules = d.modules ++ [(handle, symbols)]
  fresh : d.next ≤ handle
  next : handle < d'.next
  context : d'.losesContext = d.losesContext
  refusals : d'.refusals = d.refusals

variable {d d' d'' : SimulatedDriver} {handle : Nat} {symbols : SymbolTable}

namespace Keeps

theorem refl (d : SimulatedDriver) : Keeps d d := ⟨rfl, Nat.le_refl _, rfl, rfl⟩

theorem trans (h : Keeps d d') (h' : Keeps d' d'') : Keeps d d'' where
  modules := h'.modules.trans h.modules
  next := Nat.le_trans h.next h'.next
  context := h'.context.trans h.context
  refusals := h'.refusals.trans h.refusals

theorem symbols? (h : Keeps d d') (handle : Nat) : d'.symbols? handle = d.symbols? handle := by
  unfold SimulatedDriver.symbols?
  rw [h.modules]

theorem isWilling (h : Keeps d d') (hd : d.IsWilling) : d'.IsWilling where
  context := h.context.trans hd.context
  bind := h.refusals ▸ hd.bind
  unload := h.refusals ▸ hd.unload

theorem table_eq (h : Keeps d d') : d'.table = d.table := by
  unfold table
  rw [h.modules]

theorem lt_next (h : Keeps d d') (hd : ∀ n ∈ d.table, n < d.next) :
    ∀ n ∈ d'.table, n < d'.next := by
  intro n hn
  rw [h.table_eq] at hn
  exact Nat.lt_of_lt_of_le (hd n hn) h.next

theorem isSound (h : Keeps d d') (hd : d.IsSound) : d'.IsSound where
  nodup := h.table_eq ▸ hd.nodup
  lt_next := h.lt_next hd.lt_next

end Keeps

namespace Gains

theorem trans (h : Gains d d' handle symbols) (h' : Keeps d' d'') :
    Gains d d'' handle symbols where
  modules := h'.modules.trans h.modules
  fresh := h.fresh
  next := Nat.lt_of_lt_of_le h.next h'.next
  context := h'.context.trans h.context
  refusals := h'.refusals.trans h.refusals

theorem table_eq (h : Gains d d' handle symbols) : d'.table = d.table ++ [handle] := by
  unfold table
  rw [h.modules, List.map_append]
  rfl

theorem not_mem (h : Gains d d' handle symbols) (hd : ∀ n ∈ d.table, n < d.next) :
    handle ∉ d.table :=
  fun hmem => Nat.lt_irrefl handle (Nat.lt_of_lt_of_le (hd handle hmem) h.fresh)

/-- The new module has the highest handle of all. -/
theorem lt_next (h : Gains d d' handle symbols) (hd : ∀ n ∈ d.table, n < d.next) :
    ∀ n ∈ d'.table, n < d'.next := by
  intro n hn
  rw [h.table_eq] at hn
  rcases List.mem_append.mp hn with hn | hn
  · exact Nat.lt_trans (Nat.lt_of_lt_of_le (hd n hn) h.fresh) h.next
  · rw [List.mem_singleton.mp hn]
    exact h.next

theorem isWilling (h : Gains d d' handle symbols) (hd : d.IsWilling) : d'.IsWilling where
  context := h.context.trans hd.context
  bind := h.refusals ▸ hd.bind
  unload := h.refusals ▸ hd.unload

theorem isSound (h : Gains d d' handle symbols) (hd : d.IsSound) : d'.IsSound where
  nodup := by
    have hapart (n : Nat) (hn : n ∈ d.table) (m : Nat) (hm : m ∈ [handle]) : n ≠ m := by
      rintro rfl
      obtain rfl := List.mem_singleton.mp hm
      exact h.not_mem hd.lt_next hn
    rw [h.table_eq]
    exact List.nodup_append.mpr
      ⟨hd.nodup, List.nodup_cons.mpr ⟨List.not_mem_nil, List.nodup_nil⟩, hapart⟩
  lt_next := h.lt_next hd.lt_next

theorem symbols?_of_not_mem (h : Gains d d' handle symbols) (hfresh : handle ∉ d.table) :
    d'.symbols? handle = some symbols := by
  unfold SimulatedDriver.symbols?
  have hnone : d.modules.lookup handle = none := by
    refine List.lookup_eq_none_iff.mpr fun e he => bne_iff_ne.mpr fun heq => hfresh ?_
    rw [heq]
    exact List.mem_map_of_mem he
  rw [h.modules, List.lookup_append, hnone, List.lookup_cons_self]
  rfl

theorem symbols?_of_eq_some (h : Gains d d' handle symbols) {other : Nat} {t : SymbolTable}
    (hs : d.symbols? other = some t) : d'.symbols? other = some t := by
  unfold SimulatedDriver.symbols? at hs ⊢
  rw [h.modules, List.lookup_append, hs]
  rfl

theorem symbols? (h : Gains d d' handle symbols) (hd : d.IsSound) :
    d'.symbols? handle = some symbols :=
  h.symbols?_of_not_mem (h.not_mem hd.lt_next)

end Gains

/-! ### Single calls -/

/-- Only a load and an unload have to do with the modules. -/
theorem keeps_answer (call : DriverCall) (hload : call.kind ≠ .load)
    (hunload : call.kind ≠ .unload) (d : SimulatedDriver) : Keeps d (answer call d).2 := by
  unfold answer
  cases d.refusals.lookup call.kind with
  | some status => exact .refl d
  | none =>
    cases call with
    | bind => exact ⟨rfl, Nat.le_refl _, rfl, rfl⟩
    | load image => exact absurd rfl hload
    | getFunction handle name => exact .refl d
    | getGlobal handle name => exact .refl d
    | occupancy function => exact .refl d
    | unload handle => exact absurd rfl hunload
    | copy address bytes =>
      simp only [perform]
      split
      · exact ⟨rfl, Nat.le_refl _, rfl, rfl⟩
      · exact .refl d
    | launch function shape =>
      simp only [perform]
      split
      · exact ⟨rfl, Nat.le_refl _, rfl, rfl⟩
      · exact .refl d

theorem keeps_bind (d : SimulatedDriver) : Keeps d (answer .bind d).2 :=
  keeps_answer .bind nofun nofun d

theorem bind_eq_ok (h : d.IsWilling) : (answer .bind d).1 = .ok () := by
  unfold answer
  rw [show d.refusals.lookup DriverCall.bind.kind = none from h.bind]
  simp only [perform, h.context]
  rfl

theorem takeIn_next_le (i : Intake) (lines : List (List Char)) :
    i.next ≤ (takeIn i lines).2.next := by
  induction lines generalizing i with
  | nil => exact Nat.le_refl _
  | cons line rest ih =>
    unfold takeIn
    cases Listing.item line with
    | error fault => exact Nat.le_refl _
    | ok item =>
      have hadd : i.next ≤ (i.add item).next := by
        cases item with
        | blank => exact Nat.le_refl _
        | target arch => exact Nat.le_refl _
        | entry name => exact Nat.le_succ _
        | «global» name size => exact Nat.le_succ _
      exact Nat.le_trans hadd (ih (i.add item))

/-- A load that fails may have given out handles, and that is all; one that succeeds adds a module
with what its lines were taken in as. -/
theorem load_cases (d : SimulatedDriver) (image : Bytes) :
    (∃ status next, d.next ≤ next ∧ d.load image = (.error status, { d with next })) ∨
    ∃ lines i, takeIn ⟨{}, none, d.next⟩ lines = (.ok (), i) ∧ d.load image = (.ok i.next, { d with
      next := i.next + 1
      modules := d.modules ++ [(i.next, i.symbols)]
      loads := d.loads + 1 }) := by
  unfold load
  cases Listing.body image with
  | error fault => exact .inl ⟨_, d.next, Nat.le_refl _, rfl⟩
  | ok lines =>
    have hle := takeIn_next_le ⟨{}, none, d.next⟩ lines
    simp only
    cases htaken : takeIn ⟨{}, none, d.next⟩ lines with
    | mk result i =>
      rw [htaken] at hle
      cases result with
      | error fault => exact .inl ⟨_, i.next, hle, rfl⟩
      | ok =>
        cases htarget : i.target with
        | none => exact .inl ⟨_, i.next, hle, rfl⟩
        | some target =>
          simp only
          by_cases hruns : target.ptxRunsOn d.device.arch = true
          · rw [if_pos hruns]
            exact .inr ⟨lines, i, htaken, rfl⟩
          · rw [if_neg hruns]
            exact .inl ⟨_, i.next, hle, rfl⟩

theorem answer_load (d : SimulatedDriver) (image : Bytes) :
    match answer (.load image) d with
    | (.error _, d') => Keeps d d'
    | (.ok handle, d') => ∃ symbols, Gains d d' handle symbols := by
  unfold answer
  cases d.refusals.lookup (DriverCall.load image).kind with
  | some status => exact .refl d
  | none =>
    simp only [perform]
    rcases load_cases d image with ⟨status, next, hle, hload⟩ | ⟨lines, i, htaken, hload⟩
    · rw [hload]
      exact ⟨rfl, hle, rfl, rfl⟩
    · have hle := takeIn_next_le ⟨{}, none, d.next⟩ lines
      rw [htaken] at hle
      rw [hload]
      exact ⟨i.symbols, rfl, hle, Nat.lt_succ_self _, rfl, rfl⟩

theorem launch_eq {function : Nat} (h : d.hasFunction function = true) (shape : LaunchShape) :
    (answer (.launch function shape) d).1 =
      match d.refusals.lookup .launch with
      | some status => .error status
      | none => .ok () := by
  unfold answer
  cases hr : d.refusals.lookup (DriverCall.launch function shape).kind with
  | some status => rw [show d.refusals.lookup .launch = some status from hr]
  | none =>
    rw [show d.refusals.lookup .launch = none from hr]
    simp only [perform, h]
    rfl

theorem copy_eq {address : Nat} {bytes : Bytes} (h : d.hasRoom address bytes.length = true) :
    (answer (.copy address bytes) d).1 =
      match d.refusals.lookup .copy with
      | some status => .error status
      | none => .ok () := by
  unfold answer
  cases hr : d.refusals.lookup (DriverCall.copy address bytes).kind with
  | some status => rw [show d.refusals.lookup .copy = some status from hr]
  | none =>
    rw [show d.refusals.lookup .copy = none from hr]
    simp only [perform, h]
    rfl

theorem mem_values_of_find? {α : Type} {t : NameTable α} {name : String} {value : α}
    (h : t.find? name = some value) : value ∈ t.values :=
  List.mem_map_of_mem (f := Prod.snd) (NameTable.mem_entries_of_find? h)

/-- A symbol that the driver finds is one of those of the module. -/
theorem mem_of_symbol {α : Type} (read : SymbolTable → NameTable α) {name : String} {value : α}
    (hd : d.symbols? handle = some symbols) (h : d.symbol handle read name = .ok value) :
    value ∈ (read symbols).values := by
  unfold symbol at h
  simp only [hd] at h
  cases hfind : (read symbols).find? name with
  | none => simp only [hfind] at h; exact nomatch h
  | some found =>
    simp only [hfind] at h
    rw [← Except.ok.inj h]
    exact mem_values_of_find? hfind

theorem mem_of_getFunction {name : String} {function : Nat}
    (hd : d.symbols? handle = some symbols)
    (h : (answer (.getFunction handle name) d).1 = .ok function) :
    function ∈ symbols.functions.values := by
  unfold answer at h
  cases hr : d.refusals.lookup (DriverCall.getFunction handle name).kind with
  | some status => simp only [hr] at h; exact nomatch h
  | none =>
    simp only [hr] at h
    exact mem_of_symbol (·.functions) hd h

theorem mem_of_getGlobal {name : String} {found : DeviceGlobal}
    (hd : d.symbols? handle = some symbols)
    (h : (answer (.getGlobal handle name) d).1 = .ok found) : found ∈ symbols.globals.values := by
  unfold answer at h
  cases hr : d.refusals.lookup (DriverCall.getGlobal handle name).kind with
  | some status => simp only [hr] at h; exact nomatch h
  | none =>
    simp only [hr] at h
    exact mem_of_symbol (·.globals) hd h

/-- Whether one state of a driver comes after another with one module unloaded in between. -/
structure Loses (d d' : SimulatedDriver) (handle : Nat) : Prop where
  modules : d'.modules = d.modules.filter fun m => m.1 ≠ handle
  next : d.next ≤ d'.next
  context : d'.losesContext = d.losesContext
  refusals : d'.refusals = d.refusals

theorem loses_unload (h : d.IsWilling) (handle : Nat) :
    Loses d (answer (.unload handle) d).2 handle := by
  unfold answer
  rw [show d.refusals.lookup (DriverCall.unload handle).kind = none from h.unload]
  simp only [perform, unload]
  cases hs : d.symbols? handle with
  | some symbols => exact ⟨rfl, Nat.le_refl _, rfl, rfl⟩
  | none =>
    refine ⟨(List.filter_eq_self.mpr fun m hm => ?_).symm, Nat.le_refl _, rfl, rfl⟩
    have hne := List.lookup_eq_none_iff.mp hs m hm
    exact decide_eq_true fun heq => absurd (beq_iff_eq.mpr heq.symm) (by simpa using hne)

theorem Loses.table_eq (h : Loses d d' handle) : d'.table = d.table.filter (· ≠ handle) := by
  unfold table
  rw [h.modules, List.filter_map]
  rfl

theorem Loses.symbols?_of_ne (h : Loses d d' handle) {other : Nat} (hne : other ≠ handle) :
    d'.symbols? other = d.symbols? other := by
  unfold symbols?
  rw [h.modules, lookup_filter (fun n => decide (n ≠ handle)), if_pos (decide_eq_true hne)]

theorem Keeps.trans_gains (h : Keeps d d') (h' : Gains d' d'' handle symbols) :
    Gains d d'' handle symbols where
  modules := h.modules ▸ h'.modules
  fresh := Nat.le_trans h.next h'.fresh
  next := h'.next
  context := h'.context.trans h.context
  refusals := h'.refusals.trans h.refusals

theorem Keeps.trans_loses (h : Keeps d d') (h' : Loses d' d'' handle) : Loses d d'' handle where
  modules := h.modules ▸ h'.modules
  next := Nat.le_trans h.next h'.next
  context := h'.context.trans h.context
  refusals := h'.refusals.trans h.refusals

/-- A module that is loaded and unloaded again leaves nothing behind. -/
theorem Gains.trans_loses (h : Gains d d' handle symbols) (h' : Loses d' d'' handle)
    (hd : ∀ n ∈ d.table, n < d.next) : Keeps d d'' where
  modules := by
    have hothers : d.modules.filter (fun m => m.1 ≠ handle) = d.modules :=
      List.filter_eq_self.mpr fun m hm => decide_eq_true fun heq =>
        h.not_mem hd (heq ▸ List.mem_map_of_mem hm)
    rw [h'.modules, h.modules, List.filter_append, hothers]
    simp
  next := Nat.le_trans h.fresh (Nat.le_trans (Nat.le_of_lt h.next) h'.next)
  context := h'.context.trans h.context
  refusals := h'.refusals.trans h.refusals

theorem Loses.isWilling (h : Loses d d' handle) (hd : d.IsWilling) : d'.IsWilling where
  context := h.context.trans hd.context
  bind := h.refusals ▸ hd.bind
  unload := h.refusals ▸ hd.unload

theorem Loses.isSound (h : Loses d d' handle) (hd : d.IsSound) : d'.IsSound where
  nodup := by
    rw [h.table_eq]
    exact hd.nodup.filter _
  lt_next n hn := by
    rw [h.table_eq] at hn
    exact Nat.lt_of_lt_of_le (hd.lt_next n (List.mem_filter.mp hn).1) h.next

end SimulatedDriver

/-! ## Whole operations -/

namespace LoadedModule

open SimulatedDriver

variable {d : SimulatedDriver} {handle : Nat} {symbols : SymbolTable}

/-- The functions and constants of a module are among the symbols that the driver keeps. -/
structure IsMadeOf (m : LoadedModule) (symbols : SymbolTable) : Prop where
  functions : ∀ entry f, m.function? entry = some f → f.handle ∈ symbols.functions.values
  constants : ∀ name g, m.constant? name = some g → g ∈ symbols.globals.values

def IsOn (m : LoadedModule) (d : SimulatedDriver) : Prop :=
  ∃ symbols, (m.key.handle, symbols) ∈ d.modules ∧ m.IsMadeOf symbols

theorem IsOn.mem_table {m : LoadedModule} (h : m.IsOn d) : m.key.handle ∈ d.table := by
  obtain ⟨symbols, hmem, -⟩ := h
  exact List.mem_map_of_mem (f := Prod.fst) hmem

theorem run_bindContext_of_isWilling (h : d.IsWilling) :
    (bindContext.run answer d).1 = .ok () ∧ Keeps d (bindContext.run answer d).2 := by
  have hk := keeps_bind d
  have hok := bind_eq_ok h
  unfold bindContext DriverCall.make
  simp only [Program.run_bind, Program.run_question]
  rw [hok]
  exact ⟨rfl, hk⟩

theorem run_unload (h : d.IsWilling) (handle : Nat) :
    Loses d ((unload handle).run answer d).2 handle := by
  have hk := keeps_bind d
  have hok := bind_eq_ok h
  have hl := loses_unload (hk.isWilling h) handle
  unfold unload DriverCall.make
  simp only [Program.run_bind, Program.run_question]
  rw [hok]
  exact hk.trans_loses hl

theorem run_findFunction_answer (hd : d.symbols? handle = some symbols) (entry symbol : String) :
    Keeps d ((findFunction handle entry symbol).run answer d).2 ∧
      ∀ f, ((findFunction handle entry symbol).run answer d).1 = .ok f →
        f.handle ∈ symbols.functions.values := by
  have hk := keeps_answer (.getFunction handle symbol) nofun nofun d
  have hmem (function : Nat) (hf : (answer (.getFunction handle symbol) d).1 = .ok function) :=
    mem_of_getFunction hd hf
  unfold findFunction DriverCall.make
  simp only [Program.run_bind, Program.run_question]
  generalize answer (.getFunction handle symbol) d = reply at hk hmem ⊢
  obtain ⟨found, d₁⟩ := reply
  cases found with
  | error status => exact ⟨hk, nofun⟩
  | ok function =>
    have hk' := keeps_answer (.occupancy function) nofun nofun d₁
    simp only [Program.run_bind, Program.run_question]
    generalize answer (.occupancy function) d₁ = reply at hk' ⊢
    obtain ⟨occupancy, d₂⟩ := reply
    cases occupancy with
    | error status => exact ⟨hk.trans hk', nofun⟩
    | ok occupancy =>
      refine ⟨hk.trans hk', fun f hf => ?_⟩
      rw [← Except.ok.inj hf]
      exact hmem function rfl

theorem run_findGlobal_answer (hd : d.symbols? handle = some symbols) (name symbol : String) :
    Keeps d ((findGlobal handle name symbol).run answer d).2 ∧
      ∀ g, ((findGlobal handle name symbol).run answer d).1 = .ok g →
        g ∈ symbols.globals.values := by
  have hk := keeps_answer (.getGlobal handle symbol) nofun nofun d
  have hmem (found : DeviceGlobal) (hf : (answer (.getGlobal handle symbol) d).1 = .ok found) :=
    mem_of_getGlobal hd hf
  unfold findGlobal DriverCall.make
  simp only [Program.run_bind, Program.run_question]
  generalize answer (.getGlobal handle symbol) d = reply at hk hmem ⊢
  obtain ⟨found, d₁⟩ := reply
  cases found with
  | error status => exact ⟨hk, nofun⟩
  | ok found =>
    refine ⟨hk, fun g hg => ?_⟩
    rw [← Except.ok.inj hg]
    exact hmem found rfl

/-- What single symbols have in common those of a list have. -/
theorem run_findAll_answer {α : Type} {P : α → Prop}
    {find : String → String → Driving (Except DeviceFailure α)}
    (hfind : ∀ d name symbol, d.symbols? handle = some symbols →
      Keeps d ((find name symbol).run answer d).2 ∧
        ∀ value, ((find name symbol).run answer d).1 = .ok value → P value)
    (hd : d.symbols? handle = some symbols) (l : List (String × String)) :
    Keeps d ((findAll find l).run answer d).2 ∧
      ∀ values, ((findAll find l).run answer d).1 = .ok values → ∀ e ∈ values, P e.2 := by
  induction l generalizing d with
  | nil =>
    refine ⟨.refl d, fun values hvalues e he => ?_⟩
    rw [← Except.ok.inj hvalues] at he
    exact nomatch he
  | cons head rest ih =>
    obtain ⟨name, symbol⟩ := head
    obtain ⟨hk, hp⟩ := hfind d name symbol hd
    unfold findAll
    simp only [Program.run_bind]
    generalize (find name symbol).run answer d = found at hk hp ⊢
    obtain ⟨found, d₁⟩ := found
    cases found with
    | error e => exact ⟨hk, nofun⟩
    | ok value =>
      obtain ⟨hk', hrest⟩ := ih ((hk.symbols? handle).trans hd)
      simp only [Program.run_bind]
      generalize (findAll find rest).run answer d₁ = others at hk' hrest ⊢
      obtain ⟨others, d₂⟩ := others
      cases others with
      | error e => exact ⟨hk.trans hk', nofun⟩
      | ok others =>
        refine ⟨hk.trans hk', fun values hvalues e he => ?_⟩
        rw [← Except.ok.inj hvalues] at he
        rcases List.mem_cons.mp he with rfl | he
        · exact hp value rfl
        · exact hrest others rfl e he

theorem run_findSymbols_answer (hd : d.symbols? handle = some symbols) (a : Artifact) :
    Keeps d ((findSymbols handle a).run answer d).2 ∧
      ∀ found, ((findSymbols handle a).run answer d).1 = .ok found →
        (∀ e ∈ found.1, e.2.handle ∈ symbols.functions.values) ∧
          ∀ e ∈ found.2, e.2 ∈ symbols.globals.values := by
  obtain ⟨hk, hf⟩ := run_findAll_answer (P := fun f : KernelFunction =>
    f.handle ∈ symbols.functions.values) (fun _ entry symbol hd =>
      run_findFunction_answer hd entry symbol) hd a.entries.entries
  unfold findSymbols
  simp only [Program.run_bind]
  generalize (findAll (findFunction handle) a.entries.entries).run answer d = found at hk hf ⊢
  obtain ⟨functions, d₁⟩ := found
  cases functions with
  | error e => exact ⟨hk, nofun⟩
  | ok functions =>
    obtain ⟨hk', hg⟩ := run_findAll_answer (P := fun g : DeviceGlobal =>
      g ∈ symbols.globals.values) (fun _ name symbol hd =>
        run_findGlobal_answer hd name symbol) ((hk.symbols? handle).trans hd) a.constants.entries
    simp only [Program.run_bind]
    generalize (findAll (findGlobal handle) a.constants.entries).run answer d₁ = found at hk' hg ⊢
    obtain ⟨globals, d₂⟩ := found
    cases globals with
    | error e => exact ⟨hk.trans hk', nofun⟩
    | ok globals =>
      refine ⟨hk.trans hk', fun found hfound => ?_⟩
      rw [← Except.ok.inj hfound]
      exact ⟨hf functions rfl, hg globals rfl⟩

/-- Loading an artifact adds one module to the device or leaves its modules as they are. -/
theorem run_load (hw : d.IsWilling) (hd : d.IsSound) (id : Nat) (info : DeviceInfo)
    (f : Fingerprint) (a : Artifact) :
    match (load id info f a).run answer d with
    | (⟨_, .error _⟩, d') => Keeps d d'
    | (⟨_, .ok m⟩, d') => m.key.device = id ∧
      ∃ symbols, Gains d d' m.key.handle symbols ∧ m.IsMadeOf symbols := by
  unfold load
  cases Arch.parse a.arch with
  | error e => exact .refl d
  | ok target =>
    simp only
    cases info.check target a.format with
    | error e => exact .refl d
    | ok =>
      obtain ⟨hok, hbind⟩ := run_bindContext_of_isWilling hw
      simp only [Program.run_bind]
      rw [hok]
      generalize (bindContext.run answer d).2 = d₁ at hbind ⊢
      have hload := answer_load d₁ a.image
      simp only [Program.run_bind, DriverCall.make, Program.run_question]
      generalize answer (.load a.image) d₁ = reply at hload ⊢
      obtain ⟨loaded, d₂⟩ := reply
      cases loaded with
      | error status => exact hbind.trans hload
      | ok handle =>
        obtain ⟨symbols, hgains⟩ := hload
        have hsound := hbind.isSound hd
        obtain ⟨hk, hfound⟩ := run_findSymbols_answer (hgains.symbols? hsound) a
        simp only [Program.run_bind]
        generalize (findSymbols handle a).run answer d₂ = found at hk hfound ⊢
        obtain ⟨found, d₃⟩ := found
        cases found with
        | error e =>
          have hgains := hgains.trans hk
          have hl := run_unload (hgains.isWilling (hbind.isWilling hw)) handle
          simp only [Program.run_bind, Program.run_pure]
          exact hbind.trans (hgains.trans_loses hl hsound.lt_next)
        | ok found =>
          obtain ⟨hf, hg⟩ := hfound found rfl
          have hgains := hgains.trans hk
          exact ⟨rfl, symbols, hbind.trans_gains hgains,
            ⟨fun entry f h => hf _ (NameTable.mem_of_find?_ofList h),
              fun name g h => hg _ (NameTable.mem_of_find?_ofList h)⟩⟩

theorem IsOn.of_keeps {m : LoadedModule} {d' : SimulatedDriver} (h : m.IsOn d) (hk : Keeps d d') :
    m.IsOn d' := by
  unfold IsOn
  rw [hk.modules]
  exact h

theorem IsOn.hasFunction {m : LoadedModule} (h : m.IsOn d) {entry : String}
    {f : KernelFunction} (hf : m.function? entry = some f) : d.hasFunction f.handle = true := by
  obtain ⟨symbols, hmem, hmade⟩ := h
  exact List.any_eq_true.mpr ⟨_, hmem, List.any_eq_true.mpr
    ⟨f.handle, hmade.functions entry f hf, decide_eq_true rfl⟩⟩

theorem IsOn.hasRoom {m : LoadedModule} (h : m.IsOn d) {name : String} {g : DeviceGlobal}
    (hg : m.constant? name = some g) : d.hasRoom g.address g.size = true := by
  obtain ⟨symbols, hmem, hmade⟩ := h
  exact List.any_eq_true.mpr ⟨_, hmem, List.any_eq_true.mpr
    ⟨g, hmade.constants name g hg, decide_eq_true ⟨rfl, Nat.le_refl _⟩⟩⟩

theorem keeps_run_launch (hd : d.IsWilling) (f : KernelFunction) (shape : LaunchShape) :
    Keeps d ((f.launch shape).run answer d).2 := by
  obtain ⟨hok, hbind⟩ := run_bindContext_of_isWilling hd
  unfold KernelFunction.launch DriverCall.make
  simp only [Program.run_bind]
  rw [hok]
  generalize (bindContext.run answer d).2 = d₁ at hbind ⊢
  have hk := keeps_answer (.launch f.handle shape) nofun nofun d₁
  simp only [Program.run_bind, Program.run_question]
  generalize answer (.launch f.handle shape) d₁ = reply at hk ⊢
  obtain ⟨result, d₂⟩ := reply
  cases result <;> exact hbind.trans hk

/-- A function of a module on the device is launched, unless the driver refuses launches. -/
theorem run_launch {m : LoadedModule} (hd : d.IsWilling) (h : m.IsOn d) {entry : String}
    {f : KernelFunction} (hf : m.function? entry = some f) (shape : LaunchShape) :
    ((f.launch shape).run answer d).1 = match d.refusals.lookup .launch with
      | some status => .error (.ofStatus status ("launch of '" ++ f.entry ++ "' failed"))
      | none => .ok () := by
  obtain ⟨hok, hbind⟩ := run_bindContext_of_isWilling hd
  unfold KernelFunction.launch DriverCall.make
  simp only [Program.run_bind]
  rw [hok]
  generalize (bindContext.run answer d).2 = d₁ at hbind ⊢
  simp only [Program.run_bind, Program.run_question]
  rw [launch_eq ((h.of_keeps hbind).hasFunction hf), hbind.refusals]
  cases d.refusals.lookup .launch <;> rfl

theorem keeps_run_fill (hd : d.IsWilling) (m : LoadedModule) (name : String) (bytes : Bytes) :
    Keeps d ((m.fill name bytes).run answer d).2 := by
  obtain ⟨hok, hbind⟩ := run_bindContext_of_isWilling hd
  unfold fill DriverCall.make
  cases m.constant? name with
  | none => exact .refl d
  | some g =>
    simp only
    split
    · exact .refl d
    · simp only [Program.run_bind]
      rw [hok]
      generalize (bindContext.run answer d).2 = d₁ at hbind ⊢
      have hk := keeps_answer (.copy g.address bytes) nofun nofun d₁
      simp only [Program.run_bind, Program.run_question]
      generalize answer (.copy g.address bytes) d₁ = reply at hk ⊢
      obtain ⟨result, d₂⟩ := reply
      cases result <;> exact hbind.trans hk

/-- A constant of a module on the device is filled with as many bytes as it has, unless the
driver refuses copies. -/
theorem run_fill {m : LoadedModule} (hd : d.IsWilling) (h : m.IsOn d) {name : String}
    {g : DeviceGlobal} (hg : m.constant? name = some g) {bytes : Bytes}
    (hsize : bytes.length = g.size) :
    ((m.fill name bytes).run answer d).1 = match d.refusals.lookup .copy with
      | some status =>
        .error (.device (.ofStatus status ("copy to constant '" ++ name ++ "' failed")))
      | none => .ok () := by
  obtain ⟨hok, hbind⟩ := run_bindContext_of_isWilling hd
  unfold fill DriverCall.make
  simp only [hg]
  rw [if_neg (fun hne => hne hsize.symm)]
  simp only [Program.run_bind]
  rw [hok]
  generalize (bindContext.run answer d).2 = d₁ at hbind ⊢
  have hroom := (h.of_keeps hbind).hasRoom hg
  simp only [Program.run_bind, Program.run_question]
  rw [copy_eq (hsize ▸ hroom), hbind.refusals]
  cases d.refusals.lookup .copy <;> rfl

end LoadedModule
end KernelDepot
