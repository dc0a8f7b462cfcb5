/-
The contents of variables.

On a driver that refuses no call and has its context, a load leaves all contents as they are at
whatever point it fails, and the variables of a new module have none.  A fill with as many bytes
as the constant has puts them at its address, and every other fill changes nothing at all.  An
unload takes the contents of the variables of its own module away.
-/
import KernelDepot.Proofs.Device.Placed
import KernelDepot.Proofs.Device.Working

namespace KernelDepot

/-- The values of some pairs are read from those of a table under the same names. -/
theorem NameTable.find?_ofList_of_map_eq {α β : Type} {t : NameTable β} {pairs : List (String × α)}
    {read : β → Option α}
    (h : (pairs.map fun e => (e.1, some e.2)) = t.entries.map fun e => (e.1, read e.2)) :
    (ofList pairs).names = t.names ∧
      ∀ name, (ofList pairs).find? name = (t.find? name).bind read := by
  have hnames : pairs.map Prod.fst = t.names := by
    have hfst := congrArg (List.map Prod.fst) h
    rwa [List.map_map, List.map_map] at hfst
  have hentries := entries_ofList hnames
  refine ⟨by rw [names, hentries, hnames], fun name => ?_⟩
  have hlookup := congrArg (List.lookup name) h
  rw [lookup_map_snd, lookup_map_snd] at hlookup
  unfold find?
  rw [hentries]
  cases hfound : t.entries.lookup name with
  | none =>
    rw [hfound] at hlookup
    exact Option.map_eq_none_iff.mp hlookup
  | some value =>
    rw [hfound] at hlookup
    obtain ⟨found, hpair, heq⟩ := Option.map_eq_some_iff.mp hlookup
    rw [hpair]
    exact heq

namespace SimulatedDriver

variable {d : SimulatedDriver} {handle address : Nat} {symbol : String} {symbols : SymbolTable}
  {g : DeviceGlobal}

theorem mem_modules_of_symbols? (hs : d.symbols? handle = some symbols) :
    (handle, symbols) ∈ d.modules := by
  obtain ⟨front, back, hmodules, -⟩ := List.lookup_eq_some_iff.mp hs
  rw [hmodules]
  exact List.mem_append_right _ List.mem_cons_self

theorem HasGlobal.hasRoom (h : d.HasGlobal handle symbol g) :
    d.hasRoom g.address g.size = true := by
  obtain ⟨t, hmem, hentry⟩ := h
  exact List.any_eq_true.mpr ⟨_, hmem, List.any_eq_true.mpr
    ⟨g, List.mem_map_of_mem hentry, decide_eq_true ⟨rfl, Nat.le_refl _⟩⟩⟩

theorem answer_bind (hd : d.IsNumbered) (hcontext : d.losesContext = false) :
    answer .bind d = (.ok (), { d with binds := d.binds + 1 }) := by
  rw [answer_eq_perform hd]
  simp only [perform, hcontext]
  rfl

theorem keeps_bound (d : SimulatedDriver) : Keeps d { d with binds := d.binds + 1 } :=
  ⟨rfl, Nat.le_refl _, rfl, rfl⟩

theorem IsNumbered.bound (hd : d.IsNumbered) :
    ({ d with binds := d.binds + 1 } : SimulatedDriver).IsNumbered :=
  (keeps_bound d).isNumbered hd

theorem read_congr {d' : SimulatedDriver} (h : d'.memory = d.memory) (address : Nat) :
    d'.read address = d.read address :=
  congrArg (·.lookup address) h

theorem read_copy {other : Nat} {bytes : Bytes} :
    ((address, bytes) :: d.memory.filter fun cell => cell.1 ≠ address).lookup other =
      if address = other then some bytes else d.read other := by
  rw [List.lookup_cons, lookup_filter (fun a => decide (a ≠ address))]
  by_cases heq : address = other
  · rw [if_pos heq, heq, beq_self_eq_true]
  · rw [if_neg heq, beq_false_of_ne (Ne.symm heq)]
    exact if_pos (decide_eq_true (Ne.symm heq))

theorem not_mem_addresses (hs : d.symbols? handle = some symbols)
    (h : ∀ symbol g, d.HasGlobal handle symbol g → g.address ≠ address) :
    address ∉ symbols.globals.values.map (·.address) := by
  intro hmem
  obtain ⟨g, hg, rfl⟩ := List.mem_map.mp hmem
  obtain ⟨e, he, rfl⟩ := List.mem_map.mp hg
  exact h e.1 e.2 ⟨symbols, mem_modules_of_symbols? hs, he⟩ rfl

/-- Contents at other addresses than those of the module stay. -/
theorem read_unload (h : ∀ symbol g, d.HasGlobal handle symbol g → g.address ≠ address) :
    (d.unload handle).2.read address = d.read address := by
  unfold SimulatedDriver.unload
  cases hs : d.symbols? handle with
  | none => rfl
  | some symbols =>
    exact (lookup_filter (fun a => decide (a ∉ symbols.globals.values.map (·.address))) d.memory
      address).trans (if_pos (decide_eq_true (not_mem_addresses hs h)))

theorem memory_unload
    (h : ∀ cell ∈ d.memory, ∀ symbol g, d.HasGlobal handle symbol g → g.address ≠ cell.1) :
    (d.unload handle).2.memory = d.memory := by
  unfold SimulatedDriver.unload
  cases hs : d.symbols? handle with
  | none => rfl
  | some symbols =>
    exact List.filter_eq_self.mpr fun cell hcell =>
      decide_eq_true (not_mem_addresses hs (h cell hcell))

/-- The variables of a new module have no contents yet. -/
theorem IsLaidOut.ne_of_isPlaced {next : Nat} (h : d.IsLaidOut)
    (hplaced : symbols.IsPlaced d.next next) (hnext : next ≤ 2 ^ 56) {e : String × DeviceGlobal}
    (he : e ∈ symbols.globals.entries) {cell : Nat × Bytes} (hcell : cell ∈ d.memory) :
    e.2.address ≠ cell.1 := by
  obtain ⟨m, hm, hm', hnew⟩ := hplaced.issued e he
  obtain ⟨n, hn, hold⟩ := h.memory cell hcell
  intro heq
  have := addressOf_injective (by omega) (by omega) (hnew.symm.trans (heq.trans hold))
  omega

/-- A new module that is unloaded again takes no contents away. -/
theorem Gains.memory_unload {d' : SimulatedDriver} (h : Gains d d' handle symbols)
    (hd : d.IsLaidOut) (hplaced : symbols.IsPlaced d.next d'.next) (hnext : d'.next ≤ 2 ^ 56)
    (hmemory : d'.memory = d.memory) : (d'.unload handle).2.memory = d.memory := by
  rw [← hmemory]
  refine SimulatedDriver.memory_unload fun cell hcell symbol g hg => ?_
  rcases h.hasGlobal hg with ⟨t, hmem, -⟩ | ⟨-, hentry⟩
  · exact absurd (List.mem_map_of_mem hmem) (h.not_mem hd.lt_next)
  · exact hd.ne_of_isPlaced hplaced hnext hentry (hmemory ▸ hcell)

end SimulatedDriver

namespace LoadedModule

open SimulatedDriver

variable {d : SimulatedDriver} {handle : Nat} {symbols : SymbolTable} {m : LoadedModule}

/-- A module whose constants stand for variables of a table, as an artifact says. -/
structure IsOf (m : LoadedModule) (a : Artifact) (symbols : SymbolTable) : Prop where
  names : m.constants.names = a.constants.names
  constant? : ∀ name, m.constant? name = (a.constants.find? name).bind symbols.globals.find?

/-! ## Single steps -/

theorem run_bindContext (hd : d.IsNumbered) (hcontext : d.losesContext = false) :
    bindContext.run answer d = (.ok (), { d with binds := d.binds + 1 }) := by
  unfold bindContext DriverCall.make
  simp only [Program.run_bind, Program.run_question, answer_bind hd hcontext]
  rfl

theorem run_unload_snd (hd : d.IsNumbered) (hcontext : d.losesContext = false) (handle : Nat) :
    ((unload handle).run answer d).2 =
      (({ d with binds := d.binds + 1 } : SimulatedDriver).unload handle).2 := by
  unfold unload DriverCall.make
  simp only [Program.run_bind, Program.run_question, answer_bind hd hcontext,
    answer_eq_perform hd.bound]
  rfl

theorem run_findFunction_snd (hd : d.IsNumbered) (entry symbol : String) :
    ((findFunction handle entry symbol).run answer d).2 = d := by
  unfold findFunction DriverCall.make
  simp only [Program.run_bind, Program.run_question, answer_eq_perform hd, perform]
  cases d.symbol handle (·.functions) symbol with
  | error status => rfl
  | ok function =>
    simp only [Program.run_bind, Program.run_question, answer_eq_perform hd, perform]
    rfl

theorem run_findGlobal (hd : d.IsNumbered) (hs : d.symbols? handle = some symbols)
    (name symbol : String) :
    (∀ g, ((findGlobal handle name symbol).run answer d).1 = .ok g →
      symbols.globals.find? symbol = some g) ∧
    ((findGlobal handle name symbol).run answer d).2 = d := by
  unfold findGlobal DriverCall.make
  simp only [Program.run_bind, Program.run_question, answer_eq_perform hd, perform,
    SimulatedDriver.symbol, hs]
  refine ⟨fun g hg => ?_, by cases symbols.globals.find? symbol <;> rfl⟩
  cases hfound : symbols.globals.find? symbol with
  | none => rw [hfound] at hg; cases hg
  | some found => rw [hfound] at hg; exact congrArg some (Except.ok.inj hg)

/-- Looking up symbols changes nothing, and finds the constants in the table of the module. -/
theorem run_findSymbols (hd : d.IsNumbered) (hs : d.symbols? handle = some symbols)
    (a : Artifact) :
    (∀ found, ((findSymbols handle a).run answer d).1 = .ok found →
      (found.2.map fun e => (e.1, some e.2)) =
        a.constants.entries.map fun e => (e.1, symbols.globals.find? e.2)) ∧
    ((findSymbols handle a).run answer d).2 = d := by
  have hfunctions : (∀ values, ((findAll (findFunction handle) a.entries.entries).run answer d).1 =
      .ok values → values.map (fun _ => ()) = a.entries.entries.map fun _ => ()) ∧
      ((findAll (findFunction handle) a.entries.entries).run answer d).2 = d := by
    refine map_findAll (I := (· = d)) ?_ rfl _
    rintro _ entry symbol rfl
    exact ⟨fun _ _ => rfl, run_findFunction_snd hd entry symbol⟩
  have hglobals : (∀ values, ((findAll (findGlobal handle) a.constants.entries).run answer d).1 =
      .ok values → (values.map fun e => (e.1, some e.2)) =
        a.constants.entries.map fun e => (e.1, symbols.globals.find? e.2)) ∧
      ((findAll (findGlobal handle) a.constants.entries).run answer d).2 = d := by
    refine map_findAll (I := (· = d)) ?_ rfl _
    rintro _ name symbol rfl
    obtain ⟨hfound, hkept⟩ := run_findGlobal hd hs name symbol
    exact ⟨fun g hg => congrArg (Prod.mk name) (hfound g hg).symm, hkept⟩
  unfold findSymbols
  simp only [Program.run_bind]
  generalize (findAll (findFunction handle) a.entries.entries).run answer d = found at hfunctions ⊢
  obtain ⟨functions, _⟩ := found
  obtain ⟨-, rfl⟩ := hfunctions
  cases functions with
  | error e => exact ⟨nofun, rfl⟩
  | ok functions =>
    simp only [Program.run_bind]
    generalize (findAll (findGlobal handle) a.constants.entries).run answer _ = others
      at hglobals ⊢
    obtain ⟨globals, _⟩ := others
    obtain ⟨hread, rfl⟩ := hglobals
    cases globals with
    | error e => exact ⟨nofun, rfl⟩
    | ok globals =>
      refine ⟨fun found hfound => ?_, rfl⟩
      rw [← Except.ok.inj hfound]
      exact hread globals rfl

/-! ## Whole operations -/

/-- A load leaves the contents as they are, and what it adds is at new addresses. -/
theorem run_load_of_isLaidOut (hd : d.IsLaidOut) (hcontext : d.losesContext = false) (id : Nat)
    (info : DeviceInfo) (f : Fingerprint) (a : Artifact) :
    match (load id info f a).run answer d with
    | (⟨_, .error _⟩, d') => d'.next ≤ 2 ^ 56 → Keeps d d' ∧ d'.memory = d.memory
    | (⟨_, .ok m⟩, d') => d'.next ≤ 2 ^ 56 → d'.memory = d.memory ∧
      ∃ symbols, Gains d d' m.key.handle symbols ∧ symbols.IsPlaced d.next d'.next ∧
        m.IsOf a symbols := by
  unfold load
  cases Arch.parse a.arch with
  | error e => exact fun _ => ⟨.refl d, rfl⟩
  | ok target =>
    simp only
    cases info.check target a.format with
    | error e => exact fun _ => ⟨.refl d, rfl⟩
    | ok =>
      have hbound := hd.toIsNumbered.bound
      have hbind := keeps_bound d
      simp only [Program.run_bind, run_bindContext hd.toIsNumbered hcontext, DriverCall.make,
        Program.run_question]
      have hload := answer_load_placed hbound a.image
      generalize answer (.load a.image) { d with binds := d.binds + 1 } = reply at hload ⊢
      obtain ⟨loaded, d₂⟩ := reply
      cases loaded with
      | error status => exact fun _ => ⟨hbind.trans hload.1, hload.2⟩
      | ok handle =>
        obtain ⟨hmemory, symbols, hgains, hplaced⟩ := hload
        have hgains : Gains d d₂ handle symbols := hbind.trans_gains hgains
        have hd₂ := hgains.isNumbered hd.toIsNumbered
        have hcontext₂ := hgains.context.trans hcontext
        have hgains₂ := hgains.trans (keeps_bound d₂)
        have hs := hgains.symbols?_of_not_mem (hgains.not_mem hd.lt_next)
        obtain ⟨hread, hsame⟩ := run_findSymbols hd₂ hs a
        simp only [Program.run_bind]
        generalize (findSymbols handle a).run answer d₂ = found at hread hsame ⊢
        obtain ⟨found, _⟩ := found
        obtain rfl := hsame
        cases found with
        | error e =>
          -- The module is unloaded again, and its variables have had no contents.
          have hloses := run_unload (hd₂.isWilling hcontext₂) handle
          simp only [Program.run_bind, Program.run_pure]
          refine fun hnext => ⟨hgains.trans_loses hloses hd.lt_next, ?_⟩
          have hle := hloses.next.trans hnext
          rw [run_unload_snd hd₂ hcontext₂]
          exact hgains₂.memory_unload hd (hplaced hle) hle hmemory
        | ok found =>
          obtain ⟨hnames, hconstants⟩ := NameTable.find?_ofList_of_map_eq (hread found rfl)
          exact fun hnext => ⟨hmemory, symbols, hgains, hplaced hnext, hnames, hconstants⟩

/-- A fill needs as many bytes as the constant has.  Otherwise it changes nothing. -/
theorem run_fill_cases (hd : d.IsNumbered) (hcontext : d.losesContext = false) {name : String}
    (hroom : ∀ g, m.constant? name = some g → d.hasRoom g.address g.size = true) (bytes : Bytes) :
    (∃ g, m.constant? name = some g ∧ g.size = bytes.length ∧
      (m.fill name bytes).run answer d = (.ok (), { d with
        binds := d.binds + 1
        memory := (g.address, bytes) :: d.memory.filter fun cell => cell.1 ≠ g.address })) ∨
    (∀ g, m.constant? name = some g → g.size ≠ bytes.length) ∧
      ∃ e, (m.fill name bytes).run answer d = (.error e, d) := by
  unfold fill
  cases hg : m.constant? name with
  | none => exact .inr ⟨nofun, _, rfl⟩
  | some g =>
    by_cases hsize : g.size = bytes.length
    · have hcopy : answer (.copy g.address bytes) { d with binds := d.binds + 1 } =
          (.ok (), { d with
            binds := d.binds + 1
            memory := (g.address, bytes) :: d.memory.filter fun cell => cell.1 ≠ g.address }) := by
        rw [answer_eq_perform hd.bound]
        exact if_pos (hsize ▸ hroom g hg)
      refine .inl ⟨g, rfl, hsize, ?_⟩
      simp only [hsize, ne_eq, not_true_eq_false, if_false, Program.run_bind,
        run_bindContext hd hcontext, DriverCall.make, Program.run_question, hcopy]
      rfl
    · refine .inr ⟨fun g' hg' => Option.some.inj hg' ▸ hsize, ?_⟩
      simp only [ne_eq, hsize, not_false_eq_true, if_true]
      exact ⟨_, rfl⟩

end LoadedModule
end KernelDepot
