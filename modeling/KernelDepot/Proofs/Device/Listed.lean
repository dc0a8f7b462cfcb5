/-
A listing on a simulated driver.

A listing is taken in item by item: the module has a function for every entry and a variable of
the right size for every global, and nothing is missing that the artifact lists.  The driver finds
it under its handle, because handles are never given out twice.  So what the simulated toolchain
has made of a request, the simulated driver loads, if the device runs the architecture.
-/
import KernelDepot.Proofs.Depot.Prepare
import KernelDepot.Proofs.Device.Resident
import KernelDepot.Proofs.Toolchain.Lowered

namespace KernelDepot
namespace SimulatedDriver

/-! ## States that calls lead to -/

/-- The states of a driver that refuses no call: calls are made, and its context is lost and
found. -/
inductive Reached : SimulatedDriver → Prop where
  | start (major minor : Nat) : Reached (ofCapability major minor)
  | call {d : SimulatedDriver} (call : DriverCall) : Reached d → Reached (answer call d).2
  | context {d : SimulatedDriver} (lost : Bool) :
    Reached d → Reached { d with losesContext := lost }

/-- Handles are given out once, in ascending order. -/
structure IsNumbered (d : SimulatedDriver) : Prop where
  refusals : d.refusals = []
  lt_next : ∀ n ∈ d.table, n < d.next

variable {d d' : SimulatedDriver} {handle : Nat} {symbols : SymbolTable}

theorem Keeps.isNumbered (h : Keeps d d') (hd : d.IsNumbered) : d'.IsNumbered :=
  ⟨h.refusals.trans hd.refusals, h.lt_next hd.lt_next⟩

theorem Gains.isNumbered (h : Gains d d' handle symbols) (hd : d.IsNumbered) : d'.IsNumbered :=
  ⟨h.refusals.trans hd.refusals, h.lt_next hd.lt_next⟩

theorem answer_eq_perform (h : d.IsNumbered) (call : DriverCall) :
    answer call d = perform call d := by
  unfold answer
  rw [h.refusals]
  rfl

theorem isNumbered_unload (h : d.IsNumbered) (handle : Nat) : (d.unload handle).2.IsNumbered := by
  unfold unload
  cases d.symbols? handle with
  | none => exact h
  | some symbols =>
    refine ⟨h.refusals, fun n hn => ?_⟩
    obtain ⟨m, hm, rfl⟩ := List.mem_map.mp hn
    exact h.lt_next m.1 (List.mem_map_of_mem (List.mem_of_mem_filter hm))

theorem isNumbered_answer (h : d.IsNumbered) (call : DriverCall) :
    (answer call d).2.IsNumbered := by
  by_cases hload : call.kind = .load
  · cases call with
    | load image =>
      have hanswer := answer_load d image
      generalize answer (.load image) d = reply at hanswer ⊢
      obtain ⟨loaded, d'⟩ := reply
      cases loaded with
      | error status => exact Keeps.isNumbered hanswer h
      | ok handle =>
        obtain ⟨symbols, hgains⟩ := hanswer
        exact hgains.isNumbered h
    | _ => exact nomatch hload
  · by_cases hunload : call.kind = .unload
    · cases call with
      | unload handle =>
        rw [answer_eq_perform h]
        exact isNumbered_unload h handle
      | _ => exact nomatch hunload
    · exact (keeps_answer call hload hunload d).isNumbered h

theorem Reached.isNumbered (h : d.Reached) : d.IsNumbered := by
  induction h with
  | start major minor => exact ⟨rfl, nofun⟩
  | call call _ ih => exact isNumbered_answer ih call
  | context lost _ ih => exact ⟨ih.refusals, ih.lt_next⟩

theorem IsNumbered.isWilling (h : d.IsNumbered) (hcontext : d.losesContext = false) :
    d.IsWilling where
  context := hcontext
  bind := by rw [h.refusals]; rfl
  unload := by rw [h.refusals]; rfl

/-! ## Taking in a listing -/

theorem takeIn_eq_foldl {lines : List (List Char)} {items : List Listing.Item}
    (h : lines.map Listing.item = items.map .ok) (i : Intake) :
    takeIn i lines = (.ok (), items.foldl Intake.add i) := by
  induction lines generalizing items i with
  | nil =>
    obtain rfl := List.map_eq_nil_iff.mp h.symm
    rfl
  | cons line rest ih =>
    cases items with
    | nil => exact nomatch h
    | cons item items =>
      obtain ⟨hitem, hrest⟩ := List.cons.inj h
      unfold takeIn
      rw [hitem]
      exact ih hrest (i.add item)

/-- Entries add functions. -/
theorem foldl_add_entries (names : List String) (i : Intake) :
    ((names.map Listing.Item.entry).foldl Intake.add i).target = i.target ∧
    ∀ n, n ∈ names ∨ (i.symbols.functions.find? n).isSome →
      (((names.map Listing.Item.entry).foldl Intake.add i).symbols.functions.find? n).isSome := by
  induction names generalizing i with
  | nil => exact ⟨rfl, fun n hn => hn.resolve_left List.not_mem_nil⟩
  | cons name names ih =>
    obtain ⟨htarget, hfunctions⟩ := ih (i.add (.entry name))
    refine ⟨htarget, fun n hn => hfunctions n ?_⟩
    by_cases hname : n = name
    · refine .inr ?_
      show ((i.symbols.functions.insert name i.next).find? n).isSome
      rw [NameTable.find?_insert, if_pos hname]
      rfl
    · refine hn.imp (fun hmem => (List.mem_cons.mp hmem).resolve_left hname) fun hsome => ?_
      show ((i.symbols.functions.insert name i.next).find? n).isSome
      rwa [NameTable.find?_insert, if_neg hname]

/-- Globals of one size add variables of this size and leave the functions as they are. -/
theorem foldl_add_globals (names : List String) (size : Nat) (i : Intake) :
    ((names.map fun n => Listing.Item.global n size).foldl Intake.add i).target = i.target ∧
    ((names.map fun n => Listing.Item.global n size).foldl Intake.add i).symbols.functions =
      i.symbols.functions ∧
    ∀ n, n ∈ names ∨ (∃ g, i.symbols.globals.find? n = some g ∧ g.size = size) →
      ∃ g, ((names.map fun n => Listing.Item.global n size).foldl Intake.add
        i).symbols.globals.find? n = some g ∧ g.size = size := by
  induction names generalizing i with
  | nil => exact ⟨rfl, rfl, fun n hn => hn.resolve_left List.not_mem_nil⟩
  | cons name names ih =>
    obtain ⟨htarget, hfunctions, hglobals⟩ := ih (i.add (.global name size))
    refine ⟨htarget, hfunctions, fun n hn => hglobals n ?_⟩
    have hadded : (i.add (.global name size)).symbols.globals.find? n =
        if n = name then some ⟨addressOf i.next, size⟩ else i.symbols.globals.find? n :=
      NameTable.find?_insert _ _ _ _
    by_cases hname : n = name
    · rw [hadded, if_pos hname]
      exact .inr ⟨_, rfl, rfl⟩
    · rw [hadded, if_neg hname]
      exact hn.imp_left fun hmem => (List.mem_cons.mp hmem).resolve_left hname

/-- Whether symbols have a function for every entry, and a variable of some size for every
global. -/
structure Lists (symbols : SymbolTable) (entries globals : List String) (size : Nat) : Prop where
  functions : ∀ name ∈ entries, (symbols.functions.find? name).isSome
  globals : ∀ name ∈ globals, ∃ g, symbols.globals.find? name = some g ∧ g.size = size

/-- The lines of a listing are taken in with its architecture and all its symbols. -/
theorem takeIn_linesOf {t : Arch} (ht : t.InRange) {entries globals : List String} {size : Nat}
    (hsize : size < Number.limit64)
    (hwritable : Listing.IsWritable t.text entries (globals.map fun n => (n, size))) (next : Nat) :
    ∃ i, takeIn ⟨{}, none, next⟩ (Listing.linesOf t.text entries (globals.map fun n => (n, size))) =
        (.ok (), i) ∧ i.target = some t ∧ Lists i.symbols entries globals size := by
  have hitems := Listing.mapM_item_linesOf ht hwritable fun g hg => by
    obtain ⟨n, -, rfl⟩ := List.mem_map.mp hg
    exact hsize
  have hfold : (Listing.itemsOf t entries (globals.map fun n => (n, size))).foldl Intake.add
      ⟨{}, none, next⟩ = (globals.map fun n => Listing.Item.global n size).foldl Intake.add
        ((entries.map Listing.Item.entry).foldl Intake.add ⟨{}, some t, next⟩) := by
    unfold Listing.itemsOf
    rw [List.foldl_cons, List.foldl_append, List.map_map]
    rfl
  obtain ⟨htarget, hfunctions⟩ := foldl_add_entries entries ⟨{}, some t, next⟩
  obtain ⟨htarget', hkept, hglobals⟩ := foldl_add_globals globals size
    ((entries.map Listing.Item.entry).foldl Intake.add ⟨{}, some t, next⟩)
  refine ⟨_, takeIn_eq_foldl hitems _, ?_, fun name hname => ?_, fun name hname => ?_⟩
  · rw [hfold]
    exact htarget'.trans htarget
  · rw [hfold, hkept]
    exact hfunctions name (.inl hname)
  · rw [hfold]
    exact hglobals name (.inl hname)

/-- A listing is loaded under a new handle, with all its symbols. -/
theorem answer_load_render (hd : d.IsNumbered) {t : Arch} (ht : t.InRange)
    (hruns : t.ptxRunsOn d.device.arch = true) {entries globals : List String} {size : Nat}
    (hsize : size < Number.limit64)
    (hwritable : Listing.IsWritable t.text entries (globals.map fun n => (n, size))) :
    ∃ handle symbols d', answer (.load (Text.bytes (Listing.render t.text entries
        (globals.map fun n => (n, size))))) d = (.ok handle, d') ∧
      d'.IsNumbered ∧ d'.symbols? handle = some symbols ∧ Lists symbols entries globals size := by
  obtain ⟨i, htaken, htarget, hlists⟩ := takeIn_linesOf ht hsize hwritable d.next
  have hnext := takeIn_next_le ⟨{}, none, d.next⟩
    (Listing.linesOf t.text entries (globals.map fun n => (n, size)))
  rw [htaken] at hnext
  have hload : d.load (Text.bytes (Listing.render t.text entries
      (globals.map fun n => (n, size)))) = (.ok i.next, { d with
        next := i.next + 1
        modules := d.modules ++ [(i.next, i.symbols)]
        loads := d.loads + 1 }) := by
    unfold load
    rw [Listing.body_render hwritable]
    simp only [htaken, htarget]
    exact if_pos hruns
  have hgains : Gains d { d with
      next := i.next + 1
      modules := d.modules ++ [(i.next, i.symbols)]
      loads := d.loads + 1 } i.next i.symbols :=
    ⟨rfl, hnext, Nat.lt_succ_self _, rfl, rfl⟩
  refine ⟨i.next, i.symbols, _, (answer_eq_perform hd _).trans hload, hgains.isNumbered hd,
    hgains.symbols?_of_not_mem fun hmem => ?_, hlists⟩
  exact Nat.lt_irrefl _ (Nat.lt_of_lt_of_le (hd.lt_next _ hmem) hnext)

end SimulatedDriver

/-! ## Finding the symbols -/

namespace LoadedModule

open SimulatedDriver

variable {d : SimulatedDriver} {handle : Nat} {symbols : SymbolTable}

theorem run_findFunction_of_find? (hd : d.IsNumbered) (hs : d.symbols? handle = some symbols)
    {symbol : String} {function : Nat} (h : symbols.functions.find? symbol = some function)
    (entry : String) : (findFunction handle entry symbol).run answer d =
      (.ok ⟨entry, symbol, function, ⟨216, 256⟩⟩, d) := by
  have hfound : answer (.getFunction handle symbol) d = (.ok function, d) := by
    rw [answer_eq_perform hd]
    simp only [perform, SimulatedDriver.symbol, hs, h]
  have hoccupancy : answer (.occupancy function) d = (.ok ⟨216, 256⟩, d) := by
    rw [answer_eq_perform hd]
    rfl
  unfold findFunction DriverCall.make
  simp only [Program.run_bind, Program.run_question, hfound, hoccupancy]
  rfl

theorem run_findGlobal_of_find? (hd : d.IsNumbered) (hs : d.symbols? handle = some symbols)
    {symbol : String} {found : DeviceGlobal} (h : symbols.globals.find? symbol = some found)
    (name : String) : (findGlobal handle name symbol).run answer d = (.ok found, d) := by
  have hfound : answer (.getGlobal handle symbol) d = (.ok found, d) := by
    rw [answer_eq_perform hd]
    simp only [perform, SimulatedDriver.symbol, hs, h]
  unfold findGlobal DriverCall.make
  simp only [Program.run_bind, Program.run_question, hfound]
  rfl

/-- Symbols that are each found without a change to the driver are found together. -/
theorem run_findAll_of_forall {α : Type}
    {find : String → String → Driving (Except DeviceFailure α)} {P : α → Prop}
    {l : List (String × String)}
    (h : ∀ e ∈ l, ∃ value, (find e.1 e.2).run answer d = (.ok value, d) ∧ P value) :
    ∃ values, (findAll find l).run answer d = (.ok values, d) ∧
      values.map Prod.fst = l.map Prod.fst ∧ ∀ e ∈ values, P e.2 := by
  induction l with
  | nil => exact ⟨[], rfl, rfl, nofun⟩
  | cons e rest ih =>
    obtain ⟨value, hvalue, hp⟩ := h e List.mem_cons_self
    obtain ⟨values, hvalues, hnames, hall⟩ := ih fun e he => h e (List.mem_cons_of_mem _ he)
    refine ⟨(e.1, value) :: values, ?_, congrArg (e.1 :: ·) hnames, fun e he => ?_⟩
    · unfold findAll
      simp only [Program.run_bind, hvalue, hvalues]
      rfl
    · rcases List.mem_cons.mp he with rfl | he
      · exact hp
      · exact hall e he

theorem run_findSymbols_of_lists (hd : d.IsNumbered) (hs : d.symbols? handle = some symbols)
    {a : Artifact} {size : Nat} (h : Lists symbols a.entries.values a.constants.values size) :
    ∃ functions globals, (findSymbols handle a).run answer d = (.ok (functions, globals), d) ∧
      functions.map Prod.fst = a.entries.names ∧ globals.map Prod.fst = a.constants.names ∧
      ∀ e ∈ globals, e.2.size = size := by
  have hfunctions : ∃ functions, (findAll (findFunction handle) a.entries.entries).run answer d =
      (.ok functions, d) ∧ functions.map Prod.fst = a.entries.names ∧ ∀ e ∈ functions, True := by
    refine run_findAll_of_forall (P := fun _ => True) fun e he => ?_
    obtain ⟨function, hfunction⟩ := Option.isSome_iff_exists.mp
      (h.functions e.2 (List.mem_map_of_mem he))
    exact ⟨_, run_findFunction_of_find? hd hs hfunction e.1, trivial⟩
  have hglobals : ∃ globals, (findAll (findGlobal handle) a.constants.entries).run answer d =
      (.ok globals, d) ∧ globals.map Prod.fst = a.constants.names ∧
        ∀ e ∈ globals, e.2.size = size := by
    refine run_findAll_of_forall (P := fun g : DeviceGlobal => g.size = size) fun e he => ?_
    obtain ⟨g, hg, hsize⟩ := h.globals e.2 (List.mem_map_of_mem he)
    exact ⟨g, run_findGlobal_of_find? hd hs hg e.1, hsize⟩
  obtain ⟨functions, hf, hnames, -⟩ := hfunctions
  obtain ⟨globals, hg, hconstants, hsizes⟩ := hglobals
  refine ⟨functions, globals, ?_, hnames, hconstants, hsizes⟩
  unfold findSymbols
  simp only [Program.run_bind, hf, hg]
  rfl

/-- An artifact is loaded if the driver takes its image and finds all its symbols in it. -/
theorem run_load_of_lists {a : Artifact} {t : Arch} {info : DeviceInfo} {size : Nat}
    (hd : d.IsNumbered) (hcontext : d.losesContext = false) (harch : Arch.parse a.arch = .ok t)
    (hcheck : info.check t a.format = .ok ())
    (hload : ∀ d₁ : SimulatedDriver, d₁.IsNumbered → d₁.device = d.device →
      ∃ handle symbols d₂, answer (.load a.image) d₁ = (.ok handle, d₂) ∧ d₂.IsNumbered ∧
        d₂.symbols? handle = some symbols ∧
        Lists symbols a.entries.values a.constants.values size) (id : Nat) (f : Fingerprint) :
    ∃ m d', (load id info f a).run answer d = (⟨[.moduleLoaded], .ok m⟩, d') ∧
      m.arch = a.arch ∧ m.functions.names = a.entries.names ∧
      m.constants.names = a.constants.names ∧
      ∀ name g, m.constant? name = some g → g.size = size := by
  obtain ⟨hbound, hkeeps⟩ := run_bindContext_of_isWilling (hd.isWilling hcontext)
  have hdevice : (bindContext.run answer d).2.device = d.device := by
    unfold bindContext DriverCall.make
    simp only [Program.run_bind, Program.run_question, answer_eq_perform hd]
    cases (perform .bind d).1 with
    | ok => rfl
    | error status => rfl
  obtain ⟨handle, symbols, d₂, hloaded, hd₂, hs, hlists⟩ :=
    hload _ (hkeeps.isNumbered hd) hdevice
  obtain ⟨functions, globals, hfound, hnames, hconstants, hsizes⟩ :=
    run_findSymbols_of_lists hd₂ hs hlists
  refine ⟨⟨⟨id, handle⟩, f, a.arch, .ofList functions, .ofList globals⟩, d₂, ?_, rfl, ?_, ?_, ?_⟩
  · unfold load DriverCall.make
    rw [harch]
    simp only [hcheck, Program.run_bind, Program.run_question, hbound, hloaded, hfound]
    rfl
  · show (NameTable.ofList functions).entries.map Prod.fst = _
    rw [NameTable.entries_ofList hnames, hnames]
  · show (NameTable.ofList globals).entries.map Prod.fst = _
    rw [NameTable.entries_ofList hconstants, hconstants]
  · exact fun name g hg => hsizes _ (NameTable.mem_of_find?_ofList hg)

end LoadedModule

namespace PreparedRequest

open SimulatedDriver SimulatedToolchain

variable {p : PreparedRequest}

/-- The image of a simulated compilation is loaded with every symbol of the artifact. -/
theorem answer_load_output (hr : p.request.validate = .ok p.arch) (h : p.request.IsLowerable)
    {d : SimulatedDriver} (hd : d.IsNumbered) (hruns : p.arch.ptxRunsOn d.device.arch = true) :
    ∃ handle symbols d', answer (.load (p.artifact (output p.job)).image) d = (.ok handle, d') ∧
      d'.IsNumbered ∧ d'.symbols? handle = some symbols ∧
      Lists symbols (p.artifact (output p.job)).entries.values
        (p.artifact (output p.job)).constants.values Listing.constantSize := by
  have hrange := Arch.inRange_of_parse (Request.arch_of_validate hr)
  have hwritable : Listing.IsWritable p.arch.text (p.request.entries.map lower)
      (p.request.constants.map fun c => (c, Listing.constantSize)) := by
    refine ⟨?_, fun name hname => ?_, fun g hg => ?_⟩
    · rw [Arch.text, String.toList_ofList]
      exact p.arch.isWord_chars
    · obtain ⟨e, he, rfl⟩ := List.mem_map.mp hname
      exact isWord_lower (Request.isBlankText_of_validate hr e he) (h.entries e he)
    · obtain ⟨c, hc, rfl⟩ := List.mem_map.mp hg
      exact h.constants c hc
  obtain ⟨handle, symbols, d', hload, hd', hs, hlists⟩ :=
    answer_load_render hd hrange hruns (by decide) hwritable
  rw [artifact_output h]
  refine ⟨handle, symbols, d', hload, hd', hs, fun name hname => ?_, fun name hname => ?_⟩
  · obtain ⟨entry, hentry, rfl⟩ := List.mem_map.mp hname
    obtain ⟨e, he, rfl⟩ := List.mem_map.mp (NameTable.mem_of_mem_entries_ofList hentry)
    exact hlists.functions _ (List.mem_map_of_mem he)
  · obtain ⟨entry, hentry, rfl⟩ := List.mem_map.mp hname
    obtain ⟨c, hc, rfl⟩ := List.mem_map.mp (NameTable.mem_of_mem_entries_ofList hentry)
    exact hlists.globals c hc

/-- What the simulated toolchain has compiled the simulated driver loads, on every device that
runs the architecture. -/
theorem load_compile (hr : p.request.validate = .ok p.arch) (h : p.request.IsLowerable)
    {t : SimulatedToolchain} {verbose : Bool} {c : Compilation}
    (hc : (p.compile verbose (t.compile p.job)).outcome = .ok c) {d : SimulatedDriver}
    (hd : d.Reached) (hcontext : d.losesContext = false)
    (hcheck : d.device.check p.arch .ptx = .ok ()) (id : Nat) (f : Fingerprint) :
    ∃ m d', (LoadedModule.load id d.device f c.artifact).run answer d =
        (⟨[.moduleLoaded], .ok m⟩, d') ∧
      (∀ e, (m.function? e).isSome ↔ e ∈ p.request.entries) ∧
      (∀ n, (m.constant? n).map (·.size) =
        if n ∈ p.request.constants then some Listing.constantSize else none) ∧
      Arch.parse m.arch = .ok p.arch := by
  have hruns : p.arch.ptxRunsOn d.device.arch = true := by
    unfold DeviceInfo.check at hcheck
    by_cases hruns : p.arch.ptxRunsOn d.device.arch = true
    · exact hruns
    · simp only [hruns] at hcheck
      exact nomatch hcheck
  have hparse := Arch.parse_text (Arch.inRange_of_parse (Request.arch_of_validate hr))
  have hartifact := artifact_output h
  rw [artifact_of_outcome hc]
  have harch : Arch.parse (p.artifact (output p.job)).arch = .ok p.arch := by rwa [hartifact]
  have hformat : (p.artifact (output p.job)).format = .ptx := by rw [hartifact]
  obtain ⟨m, d', hrun, hm, hfunctions, hconstants, hsizes⟩ :=
    LoadedModule.run_load_of_lists hd.isNumbered hcontext harch (hformat ▸ hcheck)
      (fun d₁ hd₁ hdevice => answer_load_output hr h hd₁ (hdevice ▸ hruns)) id f
  have hentry (e : String) : (m.function? e).isSome ↔ e ∈ p.request.entries := by
    unfold LoadedModule.function?
    rw [NameTable.find?_isSome_iff, hfunctions, hartifact]
    exact NameTable.mem_names_ofList_map
  have hconstant (n : String) : (m.constant? n).isSome ↔ n ∈ p.request.constants := by
    unfold LoadedModule.constant?
    rw [NameTable.find?_isSome_iff, hconstants, hartifact]
    exact NameTable.mem_names_ofList_map
  refine ⟨m, d', hrun, hentry, fun n => ?_, by rwa [hm]⟩
  cases hfound : m.constant? n with
  | none =>
    have hnot : n ∉ p.request.constants := fun hmem => by
      rw [← hconstant, hfound] at hmem
      exact Bool.false_ne_true hmem
    rw [if_neg hnot]
    rfl
  | some g =>
    rw [if_pos ((hconstant n).mp (by rw [hfound]; rfl)), Option.map_some, hsizes n g hfound]

end PreparedRequest

/-! ## An entry and a constant of one name -/

namespace Clashing

def request : Request :=
  ((Request.single "axpy<float>" (.inline "void alpha();") "sm_80").withEntry "alpha").withConstant
    "alpha"

def prepared : PreparedRequest :=
  ⟨request, .sm 8 0, ["-G"], ⟨{}, {}, []⟩,
    ⟨request.programName, Text.bytes "void alpha();", [], [], []⟩⟩

def fingerprint : Fingerprint := ⟨List.replicate 32 3, rfl⟩

theorem isLowerable : request.IsLowerable where
  entries := by decide +kernel
  constants := by decide +kernel

theorem isSome_outcome : (prepared.compile false
    (({} : SimulatedToolchain).compile prepared.job)).outcome.toOption.isSome = true := by
  decide +kernel

/-- The module has both. -/
theorem load_prepared : ∃ c m d',
    (prepared.compile false (({} : SimulatedToolchain).compile prepared.job)).outcome = .ok c ∧
    (LoadedModule.load 0 (SimulatedDriver.ofCapability 8 6).device fingerprint c.artifact).run
      SimulatedDriver.answer (.ofCapability 8 6) = (⟨[.moduleLoaded], .ok m⟩, d') ∧
    (m.function? "alpha").isSome ∧ (m.constant? "alpha").map (·.size) = some 4 := by
  obtain ⟨c, hc⟩ := Option.isSome_iff_exists.mp isSome_outcome
  have hc := Except.eq_ok_of_toOption hc
  obtain ⟨m, d', hrun, hentries, hconstants, -⟩ :=
    PreparedRequest.load_compile (p := prepared) (by decide +kernel) isLowerable hc
      (.start 8 6) rfl rfl 0 fingerprint
  refine ⟨c, m, d', hc, hrun, (hentries "alpha").mpr (by decide), ?_⟩
  exact (hconstants "alpha").trans (if_pos List.mem_cons_self)

end Clashing
end KernelDepot
