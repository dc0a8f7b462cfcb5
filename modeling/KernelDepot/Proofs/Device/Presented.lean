/-
What a loaded module tells of its artifact.

Handles, addresses and occupancies differ from load to load, and an artifact that was read
back from a directory is loaded again.  The rest of a module is settled by the artifact and
by the image in it: under which fingerprint and for which architecture it is, the symbols of
its entries, and the names and sizes of its constants.
-/
import KernelDepot.Proofs.Device.Working

namespace KernelDepot

namespace LoadedModule

def symbols (m : LoadedModule) : List (String × String) :=
  m.functions.entries.map fun e => (e.1, e.2.symbol)

def sizes (m : LoadedModule) : List (String × Nat) :=
  m.constants.entries.map fun e => (e.1, e.2.size)

/-- What modules of one artifact have in common. -/
structure Presents (size : Bytes → String → Nat) (f : Fingerprint) (a : Artifact)
    (m : LoadedModule) : Prop where
  fingerprint : m.fingerprint = f
  arch : m.arch = a.arch
  entry : ∀ name function, m.function? name = some function → function.entry = name
  symbols : m.symbols = a.entries.entries
  sizes : m.sizes = a.constants.entries.map fun e => (e.1, size a.image e.2)

theorem Presents.isSome_function? {size : Bytes → String → Nat} {f : Fingerprint} {a : Artifact}
    {m : LoadedModule} (h : Presents size f a m) (entry : String) :
    (m.function? entry).isSome ↔ entry ∈ a.entries.names := by
  have hnames : m.functions.names = a.entries.names := by
    unfold NameTable.names
    rw [← h.symbols, LoadedModule.symbols, List.map_map]
    rfl
  rw [← hnames]
  exact NameTable.find?_isSome_iff

theorem presents_of_map_eq {size : Bytes → String → Nat} {f : Fingerprint} {a : Artifact}
    {key : ModuleKey} {functions : List (String × KernelFunction)}
    {globals : List (String × DeviceGlobal)}
    (hfunctions : (functions.map fun e => (e.1, e.2.entry, e.2.symbol)) =
      a.entries.entries.map fun e => (e.1, e.1, e.2))
    (hglobals : (globals.map fun e => (e.1, e.2.size)) =
      a.constants.entries.map fun e => (e.1, size a.image e.2)) :
    Presents size f a ⟨key, f, a.arch, .ofList functions, .ofList globals⟩ := by
  have hnames : functions.map Prod.fst = a.entries.names := by
    have hfst := congrArg (List.map Prod.fst) hfunctions
    rwa [List.map_map, List.map_map] at hfst
  have hconstants : globals.map Prod.fst = a.constants.names := by
    have hfst := congrArg (List.map Prod.fst) hglobals
    rwa [List.map_map, List.map_map] at hfst
  refine ⟨rfl, rfl, fun name function hfunction => ?_, ?_, ?_⟩
  · have hmem := NameTable.mem_entries_of_find? hfunction
    rw [NameTable.entries_ofList hnames] at hmem
    have hread : (name, function.entry, function.symbol) ∈
        a.entries.entries.map fun e => (e.1, e.1, e.2) :=
      hfunctions ▸ List.mem_map_of_mem hmem
    obtain ⟨e, -, he⟩ := List.mem_map.mp hread
    obtain ⟨hname, hrest⟩ := Prod.mk.inj he
    exact (Prod.mk.inj hrest).1.symm.trans hname
  · have hsymbols := congrArg (List.map fun e : String × String × String => (e.1, e.2.2)) hfunctions
    rw [List.map_map, List.map_map] at hsymbols
    unfold symbols
    rw [NameTable.entries_ofList hnames]
    exact hsymbols.trans (List.map_id _)
  · unfold sizes
    rw [NameTable.entries_ofList hconstants]
    exact hglobals

end LoadedModule

namespace WorkingDriver

variable {σ α β : Type} {device : DriverHandler σ} {w : WorkingDriver device} {x : σ}
  {handle : Nat} {image : Bytes}

/-- The sizes of the variables in an image are in the image alone. -/
structure Measures (w : WorkingDriver device) (size : Bytes → String → Nat) : Prop where
  size_eq : ∀ x handle image name global, w.resident x handle image →
    (device (.getGlobal handle name) x).1 = .ok global → global.size = size image name

theorem read_findFunction (h : w.resident x handle image) (entry symbol : String) :
    (∀ function, ((LoadedModule.findFunction handle entry symbol).run device x).1 = .ok function →
      (entry, function.entry, function.symbol) = (entry, entry, symbol)) ∧
    w.resident ((LoadedModule.findFunction handle entry symbol).run device x).2 handle image := by
  refine ⟨fun function hfunction => ?_, (run_findFunction h entry symbol).2⟩
  unfold LoadedModule.findFunction DriverCall.make at hfunction
  simp only [Program.run_bind, Program.run_question] at hfunction
  cases hreply : (device (.getFunction handle symbol) x).1 with
  | error status =>
    rw [hreply] at hfunction
    exact nomatch hfunction
  | ok f =>
    simp only [hreply, Program.run_bind, Program.run_question] at hfunction
    cases hoccupancy : (device (.occupancy f) (device (.getFunction handle symbol) x).2).1 with
    | error status =>
      rw [hoccupancy] at hfunction
      exact nomatch hfunction
    | ok occupancy =>
      rw [hoccupancy] at hfunction
      rw [← Except.ok.inj hfunction]

theorem read_findGlobal {size : Bytes → String → Nat} (hsize : w.Measures size)
    (h : w.resident x handle image) (name symbol : String) :
    (∀ global, ((LoadedModule.findGlobal handle name symbol).run device x).1 = .ok global →
      (name, global.size) = (name, size image symbol)) ∧
    w.resident ((LoadedModule.findGlobal handle name symbol).run device x).2 handle image := by
  refine ⟨fun global hglobal => ?_, (run_findGlobal h name symbol).2⟩
  unfold LoadedModule.findGlobal DriverCall.make at hglobal
  simp only [Program.run_bind, Program.run_question] at hglobal
  cases hreply : (device (.getGlobal handle symbol) x).1 with
  | error status =>
    rw [hreply] at hglobal
    exact nomatch hglobal
  | ok found =>
    rw [hreply] at hglobal
    rw [← Except.ok.inj hglobal, hsize.size_eq x handle image symbol found h hreply]

theorem read_findSymbols {size : Bytes → String → Nat} (hsize : w.Measures size) (a : Artifact)
    (h : w.resident x handle a.image)
    {symbols : List (String × KernelFunction) × List (String × DeviceGlobal)}
    (hfound : ((LoadedModule.findSymbols handle a).run device x).1 = .ok symbols) :
    (symbols.1.map fun e => (e.1, e.2.entry, e.2.symbol)) =
        (a.entries.entries.map fun e => (e.1, e.1, e.2)) ∧
      (symbols.2.map fun e => (e.1, e.2.size)) =
        a.constants.entries.map fun e => (e.1, size a.image e.2) := by
  have hfunctions (values : List (String × KernelFunction)) (hvalues : ((LoadedModule.findAll
      (LoadedModule.findFunction handle) a.entries.entries).run device x).1 = .ok values) :
      (values.map fun e => (e.1, e.2.entry, e.2.symbol)) =
        a.entries.entries.map fun e => (e.1, e.1, e.2) :=
    (LoadedModule.map_findAll (I := fun x => w.resident x handle a.image)
      (fun _ name symbol hx => read_findFunction hx name symbol) h _).1 values hvalues
  have hr := (run_findAll (fun _ entry symbol hx => run_findFunction hx entry symbol) h
    a.entries.entries).2
  unfold LoadedModule.findSymbols at hfound
  rw [Program.run_bind] at hfound
  generalize (LoadedModule.findAll (LoadedModule.findFunction handle) a.entries.entries).run
    device x = found at hfunctions hr hfound
  obtain ⟨found, x₁⟩ := found
  cases found with
  | error e => exact nomatch hfound
  | ok found =>
    have hglobals (values : List (String × DeviceGlobal)) (hvalues : ((LoadedModule.findAll
        (LoadedModule.findGlobal handle) a.constants.entries).run device x₁).1 = .ok values) :
        (values.map fun e => (e.1, e.2.size)) =
          a.constants.entries.map fun e => (e.1, size a.image e.2) :=
      (LoadedModule.map_findAll (I := fun x => w.resident x handle a.image)
        (fun _ name symbol hx => read_findGlobal hsize hx name symbol) hr _).1 values hvalues
    simp only [Program.run_bind] at hfound
    generalize (LoadedModule.findAll (LoadedModule.findGlobal handle)
      a.constants.entries).run device x₁ = others at hglobals hfound
    obtain ⟨others, x₂⟩ := others
    cases others with
    | error e => exact nomatch hfound
    | ok others =>
      rw [← Except.ok.inj hfound]
      exact ⟨hfunctions _ rfl, hglobals _ rfl⟩

/-- A module that was loaded presents its artifact. -/
theorem presents_load {size : Bytes → String → Nat} (hsize : w.Measures size) (x : σ) (id : Nat)
    (info : DeviceInfo) (f : Fingerprint) (a : Artifact) {m : LoadedModule}
    (hm : ((LoadedModule.load id info f a).run device x).1.outcome = .ok m) :
    m.Presents size f a := by
  unfold LoadedModule.load at hm
  cases htarget : Arch.parse a.arch with
  | error e =>
    rw [htarget] at hm
    cases hm
  | ok target =>
    simp only [htarget] at hm
    cases hcheck : info.check target a.format with
    | error e =>
      rw [hcheck] at hm
      cases hm
    | ok =>
      simp only [hcheck, Program.run_bind] at hm
      rw [run_bindContext w] at hm
      simp only [Program.run_bind, DriverCall.make, Program.run_question] at hm
      generalize (LoadedModule.bindContext.run device x).2 = x₁ at hm
      have hres := w.resident_load a.image x₁
      generalize device (.load a.image) x₁ = reply at hres hm
      obtain ⟨loaded, x₂⟩ := reply
      cases loaded with
      | error status => cases hm
      | ok handle =>
        have hfound (symbols : List (String × KernelFunction) × List (String × DeviceGlobal))
            (hsymbols : ((LoadedModule.findSymbols handle a).run device x₂).1 = .ok symbols) :=
          read_findSymbols hsize a (hres handle rfl) hsymbols
        simp only [Program.run_bind] at hm
        generalize (LoadedModule.findSymbols handle a).run device x₂ = found at hfound hm
        obtain ⟨found, x₃⟩ := found
        cases found with
        | error e =>
          simp only [Program.run_bind, Program.run_pure] at hm
          cases hm
        | ok symbols =>
          obtain ⟨hfunctions, hglobals⟩ := hfound symbols rfl
          rw [← Except.ok.inj hm]
          exact LoadedModule.presents_of_map_eq hfunctions hglobals

end WorkingDriver
end KernelDepot
