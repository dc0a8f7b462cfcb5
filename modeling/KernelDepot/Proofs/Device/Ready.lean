/-
What a simulated driver makes of an image.

The numbers that it gives out depend on what it did before, and nothing else does: whether an
image is taken, and which symbols are in it, is settled by the image and the device
(`symbolsOf`).  So a driver that refuses no call and keeps its context is one that works, and
loading an artifact comes to the same on any two of them, apart from the numbers.
-/
import KernelDepot.Proofs.Device.Listed
import KernelDepot.Proofs.Device.Unnumbered
import KernelDepot.Proofs.Device.Working
import KernelDepot.Proofs.Program

namespace KernelDepot

def SymbolTable.unnumbered (s : SymbolTable) : SymbolTable :=
  ⟨s.functions.map fun _ => 0, s.globals.map fun g => { g with address := 0 }⟩

namespace SimulatedDriver

variable {d d' : SimulatedDriver} {handle : Nat} {symbols symbols' : SymbolTable}
  {device : DeviceInfo}

/-! ## What is in an image -/

/-- What has been read of a listing is the same but for the numbers. -/
structure Intake.Alike (i i' : Intake) : Prop where
  symbols : i'.symbols.unnumbered = i.symbols.unnumbered
  target : i'.target = i.target

theorem Intake.Alike.add {i i' : Intake} (h : i.Alike i') (item : Listing.Item) :
    (i.add item).Alike (i'.add item) := by
  obtain ⟨hfunctions, hglobals⟩ := SymbolTable.mk.inj h.symbols
  cases item with
  | blank => exact h
  | target arch => exact ⟨h.symbols, rfl⟩
  | entry name =>
    have hadded : (i'.symbols.functions.insert name i'.next).map (fun _ => 0) =
        (i.symbols.functions.insert name i.next).map fun _ => 0 := by
      rw [NameTable.map_insert, NameTable.map_insert, hfunctions]
    exact ⟨(SymbolTable.mk.injEq ..).mpr ⟨hadded, hglobals⟩, h.target⟩
  | «global» name size =>
    have hadded : (i'.symbols.globals.insert name ⟨addressOf i'.next, size⟩).map
          (fun g => { g with address := 0 }) =
        (i.symbols.globals.insert name ⟨addressOf i.next, size⟩).map
          fun g => { g with address := 0 } := by
      rw [NameTable.map_insert, NameTable.map_insert, hglobals]
    exact ⟨(SymbolTable.mk.injEq ..).mpr ⟨hfunctions, hadded⟩, h.target⟩

theorem takeIn_congr {i i' : Intake} (h : i.Alike i') (lines : List (List Char)) :
    (takeIn i' lines).1 = (takeIn i lines).1 ∧ (takeIn i lines).2.Alike (takeIn i' lines).2 := by
  induction lines generalizing i i' with
  | nil => exact ⟨rfl, h⟩
  | cons line rest ih =>
    unfold takeIn
    cases Listing.item line with
    | error fault => exact ⟨rfl, h⟩
    | ok item => exact ih (h.add item)

/-- The symbols of an image without their numbers, or why a device does not take it. -/
def symbolsOf (device : DeviceInfo) (image : Bytes) : Except DriverStatus SymbolTable :=
  match Listing.body image with
  | .error fault => .error (invalidImage fault)
  | .ok lines =>
    match takeIn ⟨{}, none, 0⟩ lines with
    | (.error fault, _) => .error (invalidImage fault)
    | (.ok (), i) =>
      match i.target with
      | none => .error (invalidImage .missingTarget)
      | some target =>
        if target.ptxRunsOn device.arch then .ok i.symbols.unnumbered else .error noBinary

theorem load_eq (d : SimulatedDriver) (image : Bytes) :
    match symbolsOf d.device image with
    | .error status => (d.load image).1 = .error status
    | .ok symbols => ∃ handle found, (d.load image).1 = .ok handle ∧
      (d.load image).2.modules = d.modules ++ [(handle, found)] ∧ d.next ≤ handle ∧
      found.unnumbered = symbols := by
  unfold symbolsOf load
  cases Listing.body image with
  | error fault => rfl
  | ok lines =>
    have hstart : Intake.Alike ⟨{}, none, 0⟩ ⟨{}, none, d.next⟩ := ⟨rfl, rfl⟩
    obtain ⟨hresult, hsymbols, htarget⟩ := takeIn_congr hstart lines
    have hle := takeIn_next_le ⟨{}, none, d.next⟩ lines
    simp only
    generalize takeIn ⟨{}, none, d.next⟩ lines = taken at hresult hsymbols htarget hle ⊢
    generalize takeIn ⟨{}, none, 0⟩ lines = fresh at hresult hsymbols htarget ⊢
    obtain ⟨result, i⟩ := taken
    obtain ⟨_, i₀⟩ := fresh
    obtain rfl := hresult
    cases result with
    | error fault => rfl
    | ok =>
      simp only at htarget ⊢
      rw [htarget]
      cases i₀.target with
      | none => rfl
      | some target =>
        simp only
        by_cases hruns : target.ptxRunsOn d.device.arch = true
        · rw [if_pos hruns, if_pos hruns]
          exact ⟨i.next, i.symbols, rfl, rfl, hle, hsymbols⟩
        · rw [if_neg hruns, if_neg hruns]

/-! ## Drivers that are ready -/

/-- A driver of a device that refuses no call and keeps its context. -/
structure IsReady (device : DeviceInfo) (d : SimulatedDriver) : Prop extends d.IsNumbered where
  context : d.losesContext = false
  device_eq : d.device = device

theorem context_answer (call : DriverCall) (d : SimulatedDriver) :
    (answer call d).2.losesContext = d.losesContext ∧ (answer call d).2.device = d.device := by
  unfold answer
  cases d.refusals.lookup call.kind with
  | some status => exact ⟨rfl, rfl⟩
  | none =>
    cases call with
    | load image =>
      rcases load_cases d image with ⟨_, _, -, hload⟩ | ⟨_, _, -, hload⟩ <;>
      · simp only [perform]
        rw [hload]
        exact ⟨rfl, rfl⟩
    | unload handle =>
      simp only [perform, unload]
      split <;> exact ⟨rfl, rfl⟩
    | copy address bytes =>
      simp only [perform]
      split <;> exact ⟨rfl, rfl⟩
    | launch function shape =>
      simp only [perform]
      split <;> exact ⟨rfl, rfl⟩
    | _ => exact ⟨rfl, rfl⟩

namespace IsReady

theorem isReady_answer (h : d.IsReady device) (call : DriverCall) :
    (answer call d).2.IsReady device :=
  ⟨isNumbered_answer h.toIsNumbered call, (context_answer call d).1.trans h.context,
    (context_answer call d).2.trans h.device_eq⟩

/-- An image is taken, under some handle, or refused for what is in it. -/
theorem answer_load (h : d.IsReady device) (image : Bytes) :
    match symbolsOf device image with
    | .error status => (answer (.load image) d).1 = .error status
    | .ok symbols => ∃ handle found, (answer (.load image) d).1 = .ok handle ∧
      (answer (.load image) d).2.symbols? handle = some found ∧ found.unnumbered = symbols := by
  have hload := load_eq d image
  rw [h.device_eq] at hload
  rw [answer_eq_perform h.toIsNumbered]
  cases hsymbols : symbolsOf device image with
  | error status =>
    rw [hsymbols] at hload
    exact hload
  | ok symbols =>
    rw [hsymbols] at hload
    obtain ⟨handle, found, hhandle, hmodules, hfresh, hfound⟩ := hload
    refine ⟨handle, found, hhandle, ?_, hfound⟩
    have hnone : d.modules.lookup handle = none := by
      refine List.lookup_eq_none_iff.mpr fun e he => bne_iff_ne.mpr fun heq => ?_
      have hlt := h.lt_next e.1 (List.mem_map_of_mem he)
      exact Nat.lt_irrefl _ (Nat.lt_of_lt_of_le (heq ▸ hlt) hfresh)
    show (d.load image).2.modules.lookup handle = _
    rw [hmodules, List.lookup_append, hnone, List.lookup_cons_self]
    rfl

end IsReady

/-- Whether a symbol is found in a table. -/
def found {α : Type} (t : NameTable α) (name : String) : Except DriverStatus Unit :=
  if (t.find? name).isSome then .ok () else .error unknownSymbol

theorem found_map {α β : Type} (change : α → β) (t : NameTable α) (name : String) :
    found (t.map change) name = found t name := by
  unfold found
  rw [NameTable.find?_map, Option.isSome_map]

theorem map_symbol {α : Type} (hs : d.symbols? handle = some symbols)
    (read : SymbolTable → NameTable α) (name : String) :
    (d.symbol handle read name).map (fun _ => ()) = found (read symbols) name := by
  unfold symbol found
  simp only [hs]
  cases (read symbols).find? name <;> rfl

/-! ## A ready driver works -/

/-- A device is driven by a simulated driver that is ready in all states. -/
structure Drives {σ : Type} (driver : σ → SimulatedDriver) (info : DeviceInfo)
    (handler : DriverHandler σ) : Prop where
  ready : ∀ x, (driver x).IsReady info
  reply : ∀ call x, (handler call x).1 = (answer call (driver x)).1
  own : ∀ call x, driver (handler call x).2 = (answer call (driver x)).2

section
variable {σ : Type} {driver : σ → SimulatedDriver} {info : DeviceInfo} {handler : DriverHandler σ}

theorem Drives.symbols?_eq (h : Drives driver info handler) (call : DriverCall)
    (hload : call.kind ≠ .load) (hunload : call.kind ≠ .unload) (x : σ) (handle : Nat) :
    (driver (handler call x).2).symbols? handle = (driver x).symbols? handle := by
  rw [h.own]
  exact (keeps_answer call hload hunload (driver x)).symbols? handle

/-- The symbols of a module are those of an image, apart from their numbers. -/
def Drives.IsResident (_ : Drives driver info handler) (x : σ) (handle : Nat) (image : Bytes) :
    Prop :=
  ∃ symbols, (driver x).symbols? handle = some symbols ∧
    symbolsOf info image = .ok symbols.unnumbered

theorem Drives.isResident_of_keeps (h : Drives driver info handler) (call : DriverCall)
    (hload : call.kind ≠ .load) (hunload : call.kind ≠ .unload) {x : σ} {handle : Nat}
    {image : Bytes} (hres : h.IsResident x handle image) :
    h.IsResident (handler call x).2 handle image := by
  obtain ⟨symbols, hsymbols, himage⟩ := hres
  exact ⟨symbols, (h.symbols?_eq call hload hunload x handle).trans hsymbols, himage⟩

def Drives.working (h : Drives driver info handler) : WorkingDriver handler where
  takes image := (symbolsOf info image).map fun _ => ()
  function image name := (symbolsOf info image).bind fun symbols => found symbols.functions name
  occupancy _ _ := .ok ()
  global image name := (symbolsOf info image).bind fun symbols => found symbols.globals name
  resident := h.IsResident
  bind_ok x := by
    rw [h.reply]
    exact bind_eq_ok ((h.ready x).isWilling (h.ready x).context)
  load_eq image x := by
    have hload := (h.ready x).answer_load image
    rw [h.reply]
    cases hsymbols : symbolsOf info image with
    | error status =>
      rw [hsymbols] at hload
      rw [hload]
      rfl
    | ok symbols =>
      rw [hsymbols] at hload
      obtain ⟨handle, _, hhandle, -, -⟩ := hload
      rw [hhandle]
      rfl
  resident_load image x handle hhandle := by
    have hload := (h.ready x).answer_load image
    rw [h.reply] at hhandle
    unfold IsResident
    rw [h.own]
    cases hsymbols : symbolsOf info image with
    | error status =>
      rw [hsymbols] at hload
      exact nomatch hload.symm.trans hhandle
    | ok symbols =>
      rw [hsymbols] at hload
      obtain ⟨handle', loaded, hhandle', hloaded, hsame⟩ := hload
      obtain rfl := Except.ok.inj (hhandle'.symm.trans hhandle)
      exact ⟨loaded, hloaded, by rw [hsame]⟩
  getFunction_eq x handle image name hres := by
    obtain ⟨symbols, hsymbols, himage⟩ := hres
    rw [h.reply, answer_eq_perform (h.ready x).toIsNumbered, himage]
    exact (map_symbol hsymbols (·.functions) name).trans (found_map _ _ _).symm
  occupancy_eq x handle image name f _ _ := by
    rw [h.reply, answer_eq_perform (h.ready _).toIsNumbered]
    rfl
  getGlobal_eq x handle image name hres := by
    obtain ⟨symbols, hsymbols, himage⟩ := hres
    rw [h.reply, answer_eq_perform (h.ready x).toIsNumbered, himage]
    exact (map_symbol hsymbols (·.globals) name).trans (found_map _ _ _).symm
  resident_getFunction _ handle _ name :=
    h.isResident_of_keeps (.getFunction handle name) nofun nofun
  resident_occupancy _ _ _ f := h.isResident_of_keeps (.occupancy f) nofun nofun
  resident_getGlobal _ handle _ name := h.isResident_of_keeps (.getGlobal handle name) nofun nofun

end

end SimulatedDriver

/-! ## Loading with two ready drivers -/

namespace LoadedModule

open SimulatedDriver

variable {d d' : SimulatedDriver} {handle handle' : Nat} {symbols symbols' : SymbolTable}
  {device : DeviceInfo}

theorem run_findFunction_eq (hd : d.IsNumbered) (hs : d.symbols? handle = some symbols)
    (entry symbol : String) : (findFunction handle entry symbol).run answer d =
      ((symbols.functions.find? symbol).elim (.error (symbolFailure unknownSymbol entry symbol))
        fun function => .ok ⟨entry, symbol, function, ⟨216, 256⟩⟩, d) := by
  cases hfind : symbols.functions.find? symbol with
  | some function => exact run_findFunction_of_find? hd hs hfind entry
  | none =>
    have hmissing : answer (.getFunction handle symbol) d = (.error unknownSymbol, d) := by
      rw [answer_eq_perform hd]
      simp only [perform, SimulatedDriver.symbol, hs, hfind]
    unfold findFunction DriverCall.make
    simp only [Program.run_bind, Program.run_question, hmissing]
    rfl

theorem run_findGlobal_eq (hd : d.IsNumbered) (hs : d.symbols? handle = some symbols)
    (name symbol : String) : (findGlobal handle name symbol).run answer d =
      ((symbols.globals.find? symbol).elim (.error (symbolFailure unknownSymbol name symbol)) .ok,
        d) := by
  cases hfind : symbols.globals.find? symbol with
  | some found => exact run_findGlobal_of_find? hd hs hfind name
  | none =>
    have hmissing : answer (.getGlobal handle symbol) d = (.error unknownSymbol, d) := by
      rw [answer_eq_perform hd]
      simp only [perform, SimulatedDriver.symbol, hs, hfind]
    unfold findGlobal DriverCall.make
    simp only [Program.run_bind, Program.run_question, hmissing]
    rfl

/-- Two results that differ at most in what is stripped off. -/
theorem cases_of_map_eq {ε α β : Type} {strip : α → β} {r r' : Except ε α}
    (h : r'.map strip = r.map strip) : (∃ e, r = .error e ∧ r' = .error e) ∨
      ∃ value value', r = .ok value ∧ r' = .ok value' ∧ strip value' = strip value := by
  cases r <;> cases r'
  · exact .inl ⟨_, rfl, congrArg Except.error (Except.error.inj h)⟩
  · exact nomatch h
  · exact nomatch h
  · exact .inr ⟨_, _, rfl, rfl, Except.ok.inj h⟩

/-- Two ways of finding something leave their drivers as they are, and find the same but for what
is stripped off. -/
def FindAlike {α β : Type} (strip : α → β) (d d' : SimulatedDriver)
    (p p' : Driving (Except DeviceFailure α)) : Prop :=
  ∃ r r', p.run answer d = (r, d) ∧ p'.run answer d' = (r', d') ∧ r'.map strip = r.map strip

/-- What is looked up in two tables is the same if the tables are, but for what is erased. -/
theorem FindAlike.of_find? {α β γ : Type} {t t' : NameTable α} {erase : α → α} {make : α → β}
    {strip : β → γ} {failure : DeviceFailure} {symbol : String}
    {p p' : Driving (Except DeviceFailure β)}
    (hp : p.run answer d = ((t.find? symbol).elim (.error failure) fun v => .ok (make v), d))
    (hp' : p'.run answer d' = ((t'.find? symbol).elim (.error failure) fun v => .ok (make v), d'))
    (h : t'.map erase = t.map erase)
    (hstrip : ∀ v v', erase v' = erase v → strip (make v') = strip (make v)) :
    FindAlike strip d d' p p' := by
  have hsymbol : (t'.find? symbol).map erase = (t.find? symbol).map erase := by
    rw [← NameTable.find?_map, ← NameTable.find?_map, h]
  refine ⟨_, _, hp, hp', ?_⟩
  cases hfind : t.find? symbol with
  | none =>
    rw [hfind, Option.map_none, Option.map_eq_none_iff] at hsymbol
    rw [hsymbol]
  | some v =>
    rw [hfind] at hsymbol
    obtain ⟨v', hfind', hv⟩ := Option.map_eq_some_iff.mp hsymbol
    rw [hfind']
    exact congrArg Except.ok (hstrip v v' hv)

theorem FindAlike.findAll {α β : Type} {strip : α → β}
    {find find' : String → String → Driving (Except DeviceFailure α)}
    (h : ∀ name symbol, FindAlike strip d d' (find name symbol) (find' name symbol))
    (l : List (String × String)) :
    FindAlike (List.map fun e => (e.1, strip e.2)) d d' (findAll find l) (findAll find' l) := by
  induction l with
  | nil => exact ⟨.ok [], .ok [], rfl, rfl, rfl⟩
  | cons e rest ih =>
    obtain ⟨r, r', hr, hr', hsame⟩ := h e.1 e.2
    obtain ⟨rs, rs', hrs, hrs', hrest⟩ := ih
    unfold FindAlike LoadedModule.findAll
    simp only [Program.run_bind, hr, hr']
    rcases cases_of_map_eq hsame with ⟨failure, rfl, rfl⟩ | ⟨value, value', rfl, rfl, hvalue⟩
    · exact ⟨_, _, rfl, rfl, rfl⟩
    simp only [Program.run_bind, hrs, hrs']
    rcases cases_of_map_eq hrest with ⟨failure, rfl, rfl⟩ | ⟨values, values', rfl, rfl, hvalues⟩
    · exact ⟨_, _, rfl, rfl, rfl⟩
    refine ⟨_, _, rfl, rfl, ?_⟩
    show Except.ok (List.map _ _) = Except.ok (List.map _ _)
    rw [List.map_cons, List.map_cons, hvalues, hvalue]

section
variable (hd : d.IsNumbered) (hd' : d'.IsNumbered) (hs : d.symbols? handle = some symbols)
  (hs' : d'.symbols? handle' = some symbols') (h : symbols'.unnumbered = symbols.unnumbered)
include hd hd' hs hs' h

theorem findAlike_findFunction (entry symbol : String) :
    FindAlike (fun f => { f with handle := 0 }) d d' (findFunction handle entry symbol)
      (findFunction handle' entry symbol) :=
  .of_find? (run_findFunction_eq hd hs entry symbol) (run_findFunction_eq hd' hs' entry symbol)
    (SymbolTable.mk.inj h).1 fun _ _ _ => rfl

theorem findAlike_findGlobal (name symbol : String) :
    FindAlike (fun g => { g with address := 0 }) d d' (findGlobal handle name symbol)
      (findGlobal handle' name symbol) :=
  .of_find? (run_findGlobal_eq hd hs name symbol) (run_findGlobal_eq hd' hs' name symbol)
    (SymbolTable.mk.inj h).2 fun _ _ hsame => hsame

theorem findAlike_findSymbols (a : Artifact) :
    FindAlike (Prod.map
      (List.map fun e : String × KernelFunction => (e.1, { e.2 with handle := 0 }))
      (List.map fun e : String × DeviceGlobal => (e.1, { e.2 with address := 0 }))) d d'
      (findSymbols handle a) (findSymbols handle' a) := by
  obtain ⟨r, r', hr, hr', hsame⟩ :=
    FindAlike.findAll (findAlike_findFunction hd hd' hs hs' h) a.entries.entries
  obtain ⟨rs, rs', hrs, hrs', hrest⟩ :=
    FindAlike.findAll (findAlike_findGlobal hd hd' hs hs' h) a.constants.entries
  unfold FindAlike findSymbols
  simp only [Program.run_bind, hr, hr']
  rcases cases_of_map_eq hsame with ⟨failure, rfl, rfl⟩ | ⟨functions, functions', rfl, rfl, hf⟩
  · exact ⟨_, _, rfl, rfl, rfl⟩
  simp only [Program.run_bind, hrs, hrs']
  rcases cases_of_map_eq hrest with ⟨failure, rfl, rfl⟩ | ⟨globals, globals', rfl, rfl, hg⟩
  · exact ⟨_, _, rfl, rfl, rfl⟩
  exact ⟨_, _, rfl, rfl, congrArg Except.ok (Prod.ext hf hg)⟩

end

theorem unnumbered_ofList (key : ModuleKey) (f : Fingerprint) (arch : String)
    (functions : List (String × KernelFunction)) (globals : List (String × DeviceGlobal)) :
    unnumbered ⟨key, f, arch, .ofList functions, .ofList globals⟩ =
      ⟨⟨key.device, 0⟩, f, arch, .ofList (functions.map fun e => (e.1, { e.2 with handle := 0 })),
        .ofList (globals.map fun e => (e.1, { e.2 with address := 0 }))⟩ := by
  unfold unnumbered
  simp only [NameTable.map_ofList]

theorem exists_run_bindContext (h : d.IsReady device) :
    ∃ d₁, bindContext.run answer d = (.ok (), d₁) ∧ d₁.IsReady device := by
  have hready := h.isReady_answer .bind
  unfold bindContext DriverCall.make
  simp only [Program.run_bind, Program.run_question]
  rw [bind_eq_ok (h.isWilling h.context)]
  exact ⟨_, rfl, hready⟩

/-- Loading an artifact comes to the same with two ready drivers, apart from the numbers. -/
theorem run_load_congr (h : d.IsReady device) (h' : d'.IsReady device) (id : Nat)
    (info : DeviceInfo) (f : Fingerprint) (a : Artifact) :
    ((load id info f a).run answer d').1.outcome.map unnumbered =
      ((load id info f a).run answer d).1.outcome.map unnumbered := by
  unfold load
  cases Arch.parse a.arch with
  | error e => rfl
  | ok target =>
    simp only
    cases info.check target a.format with
    | error e => rfl
    | ok =>
      obtain ⟨d₁, hbound, h₁⟩ := exists_run_bindContext h
      obtain ⟨d₁', hbound', h₁'⟩ := exists_run_bindContext h'
      simp only [Program.run_bind, DriverCall.make, Program.run_question, hbound, hbound']
      have hload := h₁.answer_load a.image
      have hload' := h₁'.answer_load a.image
      have h₂ := h₁.isReady_answer (.load a.image)
      have h₂' := h₁'.isReady_answer (.load a.image)
      generalize answer (.load a.image) d₁ = reply at hload h₂ ⊢
      generalize answer (.load a.image) d₁' = reply' at hload' h₂' ⊢
      obtain ⟨loaded, d₂⟩ := reply
      obtain ⟨loaded', d₂'⟩ := reply'
      cases hsymbols : symbolsOf device a.image with
      | error status =>
        rw [hsymbols] at hload hload'
        obtain rfl : loaded = _ := hload
        obtain rfl : loaded' = _ := hload'
        rfl
      | ok symbols =>
        rw [hsymbols] at hload hload'
        obtain ⟨handle, found, hhandle, hs, hfound⟩ := hload
        obtain ⟨handle', found', hhandle', hs', hfound'⟩ := hload'
        obtain rfl : loaded = _ := hhandle
        obtain rfl : loaded' = _ := hhandle'
        obtain ⟨r, r', hr, hr', hsame⟩ := findAlike_findSymbols h₂.toIsNumbered
          h₂'.toIsNumbered hs hs' (hfound'.trans hfound.symm) a
        simp only [Program.run_bind, hr, hr']
        rcases cases_of_map_eq hsame with ⟨failure, rfl, rfl⟩ | ⟨all, all', rfl, rfl, hall⟩
        · simp only [Program.run_bind, Program.run_pure]
        · obtain ⟨functions, globals⟩ := all
          obtain ⟨functions', globals'⟩ := all'
          obtain ⟨hf, hg⟩ := Prod.mk.inj hall
          refine congrArg Except.ok ?_
          rw [unnumbered_ofList, unnumbered_ofList, hf, hg]

end LoadedModule

/-- What loading an artifact comes to is the same in all states, apart from the numbers. -/
theorem SimulatedDriver.Drives.run_load_congr {σ : Type} {driver : σ → SimulatedDriver}
    {device : DeviceInfo} {handler : DriverHandler σ} (h : Drives driver device handler) (id : Nat)
    (info : DeviceInfo) (f : Fingerprint) (a : Artifact) (x y : σ) :
    ((LoadedModule.load id info f a).run handler x).1.outcome.map LoadedModule.unnumbered =
      ((LoadedModule.load id info f a).run handler y).1.outcome.map LoadedModule.unnumbered := by
  have hcomm (call : DriverCall) (x : σ) : answer call (driver x) =
      ((handler call x).1, driver (handler call x).2) :=
    Prod.ext (h.reply call x).symm (h.own call x).symm
  have hsame := LoadedModule.run_load_congr (h.ready y) (h.ready x) id info f a
  rwa [Program.run_comm hcomm, Program.run_comm hcomm] at hsame

end KernelDepot
