/-
Modules that a program holds on one device.

A program loads modules, fills their constants and drops them, in any order.  Whatever it did, and
as long as there are no more numbers than addresses, a constant of a module that it still holds has
the bytes of the last fill that succeeded for its variable, under this or another name, or none if
there was no such fill.  A fill succeeds exactly if it has as many bytes as the variable.  Nothing
else changes a constant: no fill that fails, and nothing that is done with other modules.  This is
`Holdings.remembers_run`.
-/
import KernelDepot.Proofs.Device.Filled

namespace KernelDepot

/-- A module with the artifact that it was loaded from. -/
structure Held where
  loaded : LoadedModule
  artifact : Artifact

structure ConstantFill where
  place : Nat
  name : String
  bytes : Bytes

structure Holdings where
  driver : SimulatedDriver
  /-- The number of the device. -/
  id : Nat := 0
  /-- The modules in the order in which they were loaded.  The place of one that was dropped stays
  empty. -/
  places : List (Option Held) := []
  /-- The fills that succeeded, the last one first. -/
  fills : List ConstantFill := []

namespace Holdings

open SimulatedDriver

inductive Move where
  | load (fingerprint : Fingerprint) (artifact : Artifact)
  | fill (place : Nat) (name : String) (bytes : Bytes)
  | drop (place : Nat)

def held? (h : Holdings) (place : Nat) : Option Held := h.places[place]?.join

def load (h : Holdings) (fingerprint : Fingerprint) (artifact : Artifact) : Holdings :=
  match (LoadedModule.load h.id h.driver.device fingerprint artifact).run answer h.driver with
  | (⟨_, .error _⟩, driver) => { h with driver }
  | (⟨_, .ok m⟩, driver) => { h with driver, places := h.places ++ [some ⟨m, artifact⟩] }

def fill (h : Holdings) (place : Nat) (name : String) (bytes : Bytes) : Holdings :=
  match h.held? place with
  | none => h
  | some held =>
    match (held.loaded.fill name bytes).run answer h.driver with
    | (.error _, driver) => { h with driver }
    | (.ok (), driver) => { h with driver, fills := ⟨place, name, bytes⟩ :: h.fills }

def drop (h : Holdings) (place : Nat) : Holdings :=
  match h.held? place with
  | none => h
  | some held => { h with
      driver := ((LoadedModule.unload held.loaded.key.handle).run answer h.driver).2
      places := h.places.set place none }

def next (h : Holdings) : Move → Holdings
  | .load fingerprint artifact => h.load fingerprint artifact
  | .fill place name bytes => h.fill place name bytes
  | .drop place => h.drop place

def run (h : Holdings) (moves : List Move) : Holdings := moves.foldl next h

/-- The bytes of the last fill of a constant that has the same lowered name. -/
def lastFill? (h : Holdings) (place : Nat) (a : Artifact) (name : String) : Option Bytes :=
  (h.fills.find? fun fill =>
    fill.place = place ∧ a.constants.find? fill.name = a.constants.find? name).map (·.bytes)

/-- Whether a move drops a module or fills one of its constants. -/
def Touches (h : Holdings) (place : Nat) : Move → Prop
  | .load .. => False
  | .fill other name bytes => other = place ∧ ∃ held, h.held? place = some held ∧
    ((held.loaded.fill name bytes).run answer h.driver).1 = .ok ()
  | .drop other => other = place

/-- Whether a module is still held with the same contents of its constants. -/
structure Leaves (h h' : Holdings) (place : Nat) (held : Held) : Prop where
  held? : h'.held? place = some held
  read : ∀ name g, held.loaded.constant? name = some g →
    h'.driver.read g.address = h.driver.read g.address

/-- What is known of a module that is held. -/
structure Remembers (h : Holdings) (place : Nat) (held : Held) : Prop where
  requested : ∀ name, (held.loaded.constant? name).isSome ↔ name ∈ held.artifact.constants.names
  /-- A constant is the variable with its lowered name. -/
  symbol : ∀ name g, held.loaded.constant? name = some g ↔
    ∃ symbol, held.artifact.constants.find? name = some symbol ∧
      h.driver.symbol held.loaded.key.handle (·.globals) symbol = .ok g
  read : ∀ name g, held.loaded.constant? name = some g →
    h.driver.read g.address = h.lastFill? place held.artifact name
  fill : ∀ name bytes, ((held.loaded.fill name bytes).run answer h.driver).1 = .ok () ↔
    ∃ g, held.loaded.constant? name = some g ∧ g.size = bytes.length
  untouched : ∀ move, ¬ h.Touches place move → (h.next move).driver.next ≤ 2 ^ 56 →
    h.Leaves (h.next move) place held

/-! ## What every move keeps -/

/-- Modules that are held have handles of their own and their variables on the device, with the
contents of the last fills. -/
structure IsConsistent (h : Holdings) : Prop where
  layout : h.driver.IsLaidOut
  context : h.driver.losesContext = false
  apart : ∀ {place held place' held'}, h.held? place = some held → h.held? place' = some held' →
    held.loaded.key.handle = held'.loaded.key.handle → place = place'
  resident : ∀ {place held}, h.held? place = some held → ∃ symbols,
    h.driver.symbols? held.loaded.key.handle = some symbols ∧ held.loaded.IsOf held.artifact symbols
  read : ∀ {place held name g}, h.held? place = some held → held.loaded.constant? name = some g →
    h.driver.read g.address = h.lastFill? place held.artifact name
  filled : ∀ fill ∈ h.fills, fill.place < h.places.length

variable {h : Holdings} {place place' : Nat} {held held' : Held} {name name' : String}
  {g g' : DeviceGlobal}

theorem lt_length (hheld : h.held? place = some held) : place < h.places.length := by
  unfold held? at hheld
  by_contra hle
  rw [List.getElem?_eq_none (Nat.le_of_not_lt hle)] at hheld
  exact nomatch hheld

theorem constant?_eq_some_iff (hk : h.IsConsistent) (hheld : h.held? place = some held) :
    held.loaded.constant? name = some g ↔
      ∃ symbol, held.artifact.constants.find? name = some symbol ∧
        h.driver.symbol held.loaded.key.handle (·.globals) symbol = .ok g := by
  obtain ⟨symbols, hs, hof⟩ := hk.resident hheld
  have hsymbol (symbol : String) : h.driver.symbol held.loaded.key.handle (·.globals) symbol =
      .ok g ↔ symbols.globals.find? symbol = some g := by
    unfold SimulatedDriver.symbol
    simp only [hs]
    cases symbols.globals.find? symbol with
    | none => exact ⟨nofun, nofun⟩
    | some found => rw [Except.ok.injEq, Option.some.injEq]
  simp only [hof.constant?, hsymbol, Option.bind_eq_some_iff]

/-- A constant is a variable on the device. -/
theorem exists_hasGlobal (hk : h.IsConsistent) (hheld : h.held? place = some held)
    (hg : held.loaded.constant? name = some g) : ∃ symbol,
      held.artifact.constants.find? name = some symbol ∧
        h.driver.HasGlobal held.loaded.key.handle symbol g := by
  obtain ⟨symbols, hs, hof⟩ := hk.resident hheld
  rw [hof.constant?] at hg
  obtain ⟨symbol, hname, hfound⟩ := Option.bind_eq_some_iff.mp hg
  exact ⟨symbol, hname, symbols, mem_modules_of_symbols? hs, NameTable.mem_entries_of_find? hfound⟩

/-- Constants are at one address only if they are one variable of one module. -/
theorem address_eq_iff (hk : h.IsConsistent) (hheld : h.held? place = some held)
    (hg : held.loaded.constant? name = some g) (hheld' : h.held? place' = some held')
    (hg' : held'.loaded.constant? name' = some g') :
    g.address = g'.address ↔ place = place' ∧
      held.artifact.constants.find? name = held.artifact.constants.find? name' := by
  obtain ⟨symbol, hname, hglobal⟩ := exists_hasGlobal hk hheld hg
  obtain ⟨symbol', hname', hglobal'⟩ := exists_hasGlobal hk hheld' hg'
  constructor
  · intro heq
    obtain ⟨hhandle, rfl⟩ := hk.layout.apart hglobal hglobal' heq
    obtain rfl := hk.apart hheld hheld' hhandle
    obtain rfl := Option.some.inj (hheld.symm.trans hheld')
    exact ⟨rfl, hname.trans hname'.symm⟩
  · rintro ⟨rfl, heq⟩
    obtain rfl := Option.some.inj (hheld.symm.trans hheld')
    obtain ⟨symbols, -, hof⟩ := hk.resident hheld
    rw [hof.constant?, heq, ← hof.constant?, hg'] at hg
    rw [Option.some.inj hg]

/-! ### What a move asks of the driver -/

/-- A move is one program of calls to the driver. -/
theorem exists_run_next (h : Holdings) (move : Move) :
    ∃ (α : Type) (p : Driving α), (h.next move).driver = (p.run answer h.driver).2 := by
  cases move with
  | load f a =>
    refine ⟨_, LoadedModule.load h.id h.driver.device f a, ?_⟩
    show (h.load f a).driver = _
    unfold load
    split
    next heq => rw [heq]
    next heq => rw [heq]
  | fill place name bytes =>
    show ∃ α p, (h.fill place name bytes).driver = _
    unfold fill
    cases h.held? place with
    | none => exact ⟨Unit, pure (), rfl⟩
    | some held =>
      refine ⟨_, held.loaded.fill name bytes, ?_⟩
      simp only
      split
      next heq => rw [heq]
      next heq => rw [heq]
  | drop place =>
    show ∃ α p, (h.drop place).driver = _
    unfold drop
    cases h.held? place with
    | none => exact ⟨Unit, pure (), rfl⟩
    | some held => exact ⟨_, LoadedModule.unload held.loaded.key.handle, rfl⟩

theorem isNumbered_next (hd : h.driver.IsNumbered) (move : Move) :
    (h.next move).driver.IsNumbered := by
  obtain ⟨α, p, hrun⟩ := h.exists_run_next move
  rw [hrun]
  exact isNumbered_run p hd

theorem next_le_next (hd : h.driver.IsNumbered) (move : Move) :
    h.driver.next ≤ (h.next move).driver.next := by
  obtain ⟨α, p, hrun⟩ := h.exists_run_next move
  rw [hrun]
  exact SimulatedDriver.next_le_run p hd

theorem isLaidOut_next (hd : h.driver.IsLaidOut) (move : Move)
    (hnext : (h.next move).driver.next ≤ 2 ^ 56) : (h.next move).driver.IsLaidOut := by
  obtain ⟨α, p, hrun⟩ := h.exists_run_next move
  rw [hrun] at hnext ⊢
  exact hd.run p hnext

/-! ### Loads -/

theorem held?_append {h' : Holdings} {new : Held} (hplaces : h'.places = h.places ++ [some new]) :
    h'.held? place = if place = h.places.length then some new else h.held? place := by
  unfold held?
  rw [hplaces]
  by_cases hlt : place < h.places.length
  · rw [List.getElem?_append_left hlt, if_neg hlt.ne]
  · by_cases heq : place = h.places.length
    · rw [if_pos heq, heq, List.getElem?_concat_length]
      rfl
    · have hbeyond : (h.places ++ [some new]).length ≤ place := by
        rw [List.length_append, List.length_singleton]
        omega
      rw [if_neg heq, List.getElem?_eq_none hbeyond, List.getElem?_eq_none (Nat.le_of_not_lt hlt)]

theorem held?_append_cases {h' : Holdings} {new : Held}
    (hplaces : h'.places = h.places ++ [some new]) (hheld : h'.held? place = some held) :
    h.held? place = some held ∨ place = h.places.length ∧ held = new := by
  rw [held?_append hplaces] at hheld
  by_cases heq : place = h.places.length
  · rw [if_pos heq] at hheld
    exact .inr ⟨heq, (Option.some.inj hheld).symm⟩
  · rw [if_neg heq] at hheld
    exact .inl hheld

/-- A load that fails changes no module and no contents; one that succeeds adds a module with
variables at new addresses. -/
theorem load_cases (hk : h.IsConsistent) (f : Fingerprint) (a : Artifact)
    (hnext : (h.load f a).driver.next ≤ 2 ^ 56) :
    (∃ driver, h.load f a = { h with driver } ∧ Keeps h.driver driver ∧
      driver.memory = h.driver.memory) ∨
    ∃ driver m symbols, h.load f a = { h with driver, places := h.places ++ [some ⟨m, a⟩] } ∧
      driver.memory = h.driver.memory ∧ Gains h.driver driver m.key.handle symbols ∧
      symbols.IsPlaced h.driver.next driver.next ∧ m.IsOf a symbols := by
  have hload := LoadedModule.run_load_of_isLaidOut hk.layout hk.context h.id h.driver.device f a
  unfold load at hnext ⊢
  generalize (LoadedModule.load h.id h.driver.device f a).run answer h.driver = result
    at hload hnext ⊢
  obtain ⟨⟨events, outcome⟩, driver⟩ := result
  cases outcome with
  | error e => exact .inl ⟨driver, rfl, hload hnext⟩
  | ok m =>
    obtain ⟨hmemory, symbols, hgains, hplaced, hof⟩ := hload hnext
    exact .inr ⟨driver, m, symbols, rfl, hmemory, hgains, hplaced, hof⟩

theorem leaves_load (hk : h.IsConsistent) (f : Fingerprint) (a : Artifact)
    (hnext : (h.load f a).driver.next ≤ 2 ^ 56) (hheld : h.held? place = some held) :
    h.Leaves (h.load f a) place held := by
  rcases load_cases hk f a hnext with
    ⟨driver, hload, -, hmemory⟩ | ⟨driver, m, symbols, hload, hmemory, -⟩
  · rw [hload]
    exact ⟨hheld, fun _ g _ => read_congr hmemory g.address⟩
  · rw [hload]
    refine ⟨?_, fun _ g _ => read_congr hmemory g.address⟩
    rw [held?_append rfl, if_neg (lt_length hheld).ne]
    exact hheld

/-- A module that is held has an older handle than a new one. -/
theorem handle_ne_of_gains {driver : SimulatedDriver} {handle : Nat} {symbols : SymbolTable}
    (hk : h.IsConsistent) (hgains : Gains h.driver driver handle symbols)
    (hheld : h.held? place = some held) : held.loaded.key.handle ≠ handle := by
  obtain ⟨t, hs, -⟩ := hk.resident hheld
  rintro rfl
  exact hgains.not_mem hk.layout.lt_next (List.mem_map_of_mem (mem_modules_of_symbols? hs))

theorem lastFill?_of_length_le (hk : h.IsConsistent) (hplace : h.places.length ≤ place)
    (a : Artifact) (name : String) : h.lastFill? place a name = none := by
  unfold lastFill?
  rw [Option.map_eq_none_iff, List.find?_eq_none]
  intro fill hfill hmatch
  have hold := hk.filled fill hfill
  have hsame := (of_decide_eq_true hmatch).1
  omega

theorem IsConsistent.of_keeps {driver : SimulatedDriver} (hk : h.IsConsistent)
    (hlayout : driver.IsLaidOut) (hkeeps : Keeps h.driver driver)
    (hmemory : driver.memory = h.driver.memory) : ({ h with driver } : Holdings).IsConsistent where
  layout := hlayout
  context := hkeeps.context.trans hk.context
  apart := hk.apart
  resident hheld := by
    obtain ⟨t, hs, hof⟩ := hk.resident hheld
    exact ⟨t, (hkeeps.symbols? _).trans hs, hof⟩
  read hheld hg := (read_congr hmemory _).trans (hk.read hheld hg)
  filled := hk.filled

theorem IsConsistent.of_gains {driver : SimulatedDriver} {m : LoadedModule} {a : Artifact}
    {symbols : SymbolTable} (hk : h.IsConsistent) (hlayout : driver.IsLaidOut)
    (hmemory : driver.memory = h.driver.memory)
    (hgains : Gains h.driver driver m.key.handle symbols)
    (hplaced : symbols.IsPlaced h.driver.next driver.next) (hof : m.IsOf a symbols)
    (hnext : driver.next ≤ 2 ^ 56) :
    ({ h with driver, places := h.places ++ [some ⟨m, a⟩] } : Holdings).IsConsistent where
  layout := hlayout
  context := hgains.context.trans hk.context
  apart hheld hheld' heq := by
    rcases held?_append_cases rfl hheld with hold | ⟨rfl, rfl⟩
    · rcases held?_append_cases rfl hheld' with hold' | ⟨rfl, rfl⟩
      · exact hk.apart hold hold' heq
      · exact absurd heq (handle_ne_of_gains hk hgains hold)
    · rcases held?_append_cases rfl hheld' with hold' | ⟨rfl, rfl⟩
      · exact absurd heq.symm (handle_ne_of_gains hk hgains hold')
      · rfl
  resident hheld := by
    rcases held?_append_cases rfl hheld with hold | ⟨rfl, rfl⟩
    · obtain ⟨t, hs, hof⟩ := hk.resident hold
      exact ⟨t, hgains.symbols?_of_eq_some hs, hof⟩
    · exact ⟨symbols, hgains.symbols?_of_not_mem (hgains.not_mem hk.layout.lt_next), hof⟩
  read hheld hg := by
    refine (read_congr hmemory _).trans ?_
    rcases held?_append_cases rfl hheld with hold | ⟨rfl, rfl⟩
    · exact hk.read hold hg
    · -- Nothing was filled into the new module, and no old contents are at its addresses.
      rw [hof.constant?] at hg
      obtain ⟨symbol, -, hfound⟩ := Option.bind_eq_some_iff.mp hg
      refine (List.lookup_eq_none_iff.mpr fun cell hcell => bne_iff_ne.mpr ?_).trans
        (lastFill?_of_length_le hk (Nat.le_refl _) _ _).symm
      exact hk.layout.ne_of_isPlaced hplaced hnext (NameTable.mem_entries_of_find? hfound) hcell
  filled fill hfill := by
    refine Nat.lt_of_lt_of_le (hk.filled fill hfill) ?_
    rw [List.length_append]
    exact Nat.le_add_right _ _

theorem IsConsistent.load (hk : h.IsConsistent) (f : Fingerprint) (a : Artifact)
    (hnext : (h.load f a).driver.next ≤ 2 ^ 56) : (h.load f a).IsConsistent := by
  have hlayout : (h.load f a).driver.IsLaidOut := isLaidOut_next hk.layout (.load f a) hnext
  rcases load_cases hk f a hnext with
    ⟨driver, hload, hkeeps, hmemory⟩ | ⟨driver, m, symbols, hload, hmemory, hgains, hplaced, hof⟩
  · rw [hload] at hlayout ⊢
    exact hk.of_keeps hlayout hkeeps hmemory
  · rw [hload] at hnext hlayout ⊢
    exact hk.of_gains hlayout hmemory hgains hplaced hof hnext

/-! ### Fills -/

theorem hasRoom_of_constant? (hk : h.IsConsistent) (hheld : h.held? place = some held)
    (g : DeviceGlobal) (hg : held.loaded.constant? name = some g) :
    h.driver.hasRoom g.address g.size = true := by
  obtain ⟨symbol, -, hglobal⟩ := exists_hasGlobal hk hheld hg
  exact hglobal.hasRoom

/-- A fill of a constant that the module has and that is as long puts its bytes there, and every
other fill changes nothing. -/
theorem fill_cases (hk : h.IsConsistent) (place : Nat) (name : String) (bytes : Bytes) :
    h.fill place name bytes = h ∨
    ∃ held g, h.held? place = some held ∧ held.loaded.constant? name = some g ∧
      h.fill place name bytes = { h with
        driver := { h.driver with
          binds := h.driver.binds + 1
          memory := (g.address, bytes) ::
            h.driver.memory.filter fun cell => cell.1 ≠ g.address }
        fills := ⟨place, name, bytes⟩ :: h.fills } ∧
      ((held.loaded.fill name bytes).run answer h.driver).1 = .ok () := by
  unfold fill
  cases hheld : h.held? place with
  | none => exact .inl rfl
  | some held =>
    simp only
    rcases LoadedModule.run_fill_cases hk.layout.toIsNumbered hk.context
      (hasRoom_of_constant? hk hheld) bytes with ⟨g, hg, -, hfill⟩ | ⟨-, e, hfill⟩
    · rw [hfill]
      exact .inr ⟨held, g, rfl, hg, rfl, by rw [hfill]⟩
    · rw [hfill]
      exact .inl rfl

theorem lastFill?_cons {h' : Holdings} (fill : ConstantFill) (hfills : h'.fills = fill :: h.fills)
    (a : Artifact) : h'.lastFill? place a name =
      if fill.place = place ∧ a.constants.find? fill.name = a.constants.find? name
      then some fill.bytes else h.lastFill? place a name := by
  unfold lastFill?
  rw [hfills, List.find?_cons]
  split
  next hmatch => rw [if_pos (of_decide_eq_true hmatch)]; rfl
  next hmatch => rw [if_neg (of_decide_eq_false hmatch)]

theorem IsConsistent.fill (hk : h.IsConsistent) (place : Nat) (name : String) (bytes : Bytes)
    (hnext : (h.fill place name bytes).driver.next ≤ 2 ^ 56) :
    (h.fill place name bytes).IsConsistent := by
  have hlayout : (h.fill place name bytes).driver.IsLaidOut :=
    isLaidOut_next hk.layout (.fill place name bytes) hnext
  rcases fill_cases hk place name bytes with hfill | ⟨held, g, hheld, hg, hfill, -⟩
  · rw [hfill]
    exact hk
  · rw [hfill] at hlayout ⊢
    refine ⟨hlayout, hk.context, hk.apart, hk.resident, fun hheld' hg' => ?_, fun fill hmem => ?_⟩
    · -- The bytes are read at the address that was filled, and recorded for the constants there.
      have haddress := address_eq_iff hk hheld' hg' hheld hg
      have hcond := (eq_comm.trans haddress).trans (and_congr eq_comm eq_comm)
      refine read_copy.trans (Eq.trans ?_ (lastFill?_cons (h := h) ⟨place, name, bytes⟩ rfl _).symm)
      exact if_congr hcond rfl (hk.read hheld' hg')
    · rcases List.mem_cons.mp hmem with rfl | hmem
      · exact lt_length hheld
      · exact hk.filled fill hmem

theorem leaves_fill (hk : h.IsConsistent) {other : Nat} {name : String} {bytes : Bytes}
    (htouches : ¬ h.Touches place (.fill other name bytes)) (hheld : h.held? place = some held) :
    h.Leaves (h.fill other name bytes) place held := by
  rcases fill_cases hk other name bytes with hfill | ⟨held', g', hheld', hg', hfill, hok⟩
  · rw [hfill]
    exact ⟨hheld, fun _ _ _ => rfl⟩
  · rw [hfill]
    refine ⟨hheld, fun name g hg => read_copy.trans (if_neg fun heq => ?_)⟩
    obtain ⟨rfl, -⟩ := (address_eq_iff hk hheld' hg' hheld hg).mp heq
    exact htouches ⟨rfl, held', hheld', hok⟩

/-! ### Drops -/

theorem held?_set {h' : Holdings} {other : Nat} (hplaces : h'.places = h.places.set other none) :
    h'.held? place = if other = place then none else h.held? place := by
  unfold held?
  rw [hplaces, List.getElem?_set]
  by_cases heq : other = place
  · rw [if_pos heq, if_pos heq]
    split <;> rfl
  · rw [if_neg heq, if_neg heq]

theorem held?_set_of_eq_some {h' : Holdings} {other : Nat}
    (hplaces : h'.places = h.places.set other none) (hheld : h'.held? place = some held) :
    other ≠ place ∧ h.held? place = some held := by
  rw [held?_set hplaces] at hheld
  by_cases heq : other = place
  · rw [if_pos heq] at hheld
    exact nomatch hheld
  · rw [if_neg heq] at hheld
    exact ⟨heq, hheld⟩

/-- An unload of one module takes nothing away from another. -/
theorem read_unload_of_ne (hk : h.IsConsistent) {other : Nat} {dropped : Held} (hne : other ≠ place)
    (hdropped : h.held? other = some dropped) (hheld : h.held? place = some held)
    (hg : held.loaded.constant? name = some g) :
    ((LoadedModule.unload dropped.loaded.key.handle).run answer h.driver).2.read g.address =
      h.driver.read g.address := by
  obtain ⟨symbol, -, hglobal⟩ := exists_hasGlobal hk hheld hg
  rw [LoadedModule.run_unload_snd hk.layout.toIsNumbered hk.context]
  refine read_unload fun symbol' g' hglobal' heq => hne ?_
  exact hk.apart hdropped hheld (hk.layout.apart hglobal' hglobal heq).1

theorem IsConsistent.drop (hk : h.IsConsistent) (other : Nat)
    (hnext : (h.drop other).driver.next ≤ 2 ^ 56) : (h.drop other).IsConsistent := by
  have hlayout : (h.drop other).driver.IsLaidOut := isLaidOut_next hk.layout (.drop other) hnext
  unfold Holdings.drop at hlayout ⊢
  cases hdropped : h.held? other with
  | none => exact hk
  | some dropped =>
    have hloses := LoadedModule.run_unload (hk.layout.isWilling hk.context)
      dropped.loaded.key.handle
    simp only [hdropped] at hlayout ⊢
    refine ⟨hlayout, hloses.context.trans hk.context, fun hheld hheld' heq => ?_,
      fun hheld => ?_, fun hheld hg => ?_, fun fill hfill => ?_⟩
    · obtain ⟨-, hheld⟩ := held?_set_of_eq_some rfl hheld
      obtain ⟨-, hheld'⟩ := held?_set_of_eq_some rfl hheld'
      exact hk.apart hheld hheld' heq
    · obtain ⟨hne, hheld⟩ := held?_set_of_eq_some rfl hheld
      obtain ⟨symbols, hs, hof⟩ := hk.resident hheld
      refine ⟨symbols, (hloses.symbols?_of_ne fun heq => ?_).trans hs, hof⟩
      exact hne (hk.apart hdropped hheld heq.symm)
    · obtain ⟨hne, hheld⟩ := held?_set_of_eq_some rfl hheld
      exact (read_unload_of_ne hk hne hdropped hheld hg).trans (hk.read hheld hg)
    · rw [List.length_set]
      exact hk.filled fill hfill

theorem leaves_drop (hk : h.IsConsistent) {other : Nat} (hne : other ≠ place)
    (hheld : h.held? place = some held) : h.Leaves (h.drop other) place held := by
  unfold Holdings.drop
  cases hdropped : h.held? other with
  | none => exact ⟨hheld, fun _ _ _ => rfl⟩
  | some dropped =>
    refine ⟨?_, fun name g hg => read_unload_of_ne hk hne hdropped hheld hg⟩
    rw [held?_set rfl, if_neg hne]
    exact hheld

/-! ## Runs of moves -/

theorem IsConsistent.next (hk : h.IsConsistent) (move : Move)
    (hnext : (h.next move).driver.next ≤ 2 ^ 56) : (h.next move).IsConsistent := by
  cases move with
  | load f a => exact hk.load f a hnext
  | fill place name bytes => exact hk.fill place name bytes hnext
  | drop place => exact hk.drop place hnext

theorem next_le_run (hd : h.driver.IsNumbered) (moves : List Move) :
    h.driver.next ≤ (h.run moves).driver.next := by
  induction moves generalizing h with
  | nil => exact Nat.le_refl _
  | cons move moves ih =>
    exact (next_le_next hd move).trans (ih (isNumbered_next hd move))

theorem IsConsistent.run (hk : h.IsConsistent) (moves : List Move)
    (hnext : (h.run moves).driver.next ≤ 2 ^ 56) : (h.run moves).IsConsistent := by
  induction moves generalizing h with
  | nil => exact hk
  | cons move moves ih =>
    have hd := isNumbered_next hk.layout.toIsNumbered move
    exact ih (hk.next move ((next_le_run hd moves).trans hnext)) hnext

theorem isConsistent_start {d : SimulatedDriver} (hd : d.IsLaidOut)
    (hcontext : d.losesContext = false) (id : Nat) :
    ({ driver := d, id } : Holdings).IsConsistent :=
  ⟨hd, hcontext, nofun, nofun, nofun, nofun⟩

theorem IsConsistent.remembers (hk : h.IsConsistent) (hheld : h.held? place = some held) :
    h.Remembers place held where
  requested name := by
    obtain ⟨symbols, -, hof⟩ := hk.resident hheld
    rw [← hof.names]
    exact NameTable.find?_isSome_iff
  symbol _ _ := constant?_eq_some_iff hk hheld
  read _ _ hg := hk.read hheld hg
  fill name bytes := by
    rcases LoadedModule.run_fill_cases hk.layout.toIsNumbered hk.context
      (hasRoom_of_constant? hk hheld) bytes with ⟨g, hg, hsize, hfill⟩ | ⟨hsize, e, hfill⟩
    · rw [hfill]
      exact iff_of_true rfl ⟨g, hg, hsize⟩
    · rw [hfill]
      exact iff_of_false nofun fun ⟨g, hg, hequal⟩ => hsize g hg hequal
  untouched move htouches hnext := by
    cases move with
    | load f a => exact leaves_load hk f a hnext hheld
    | fill other name bytes => exact leaves_fill hk htouches hheld
    | drop other => exact leaves_drop hk htouches hheld

/-- Every module that is held after some moves has in its constants what was last put there. -/
theorem remembers_run {d : SimulatedDriver} (hd : d.Reached) (hcontext : d.losesContext = false)
    (id : Nat) (moves : List Move)
    (hnext : (run { driver := d, id } moves).driver.next ≤ 2 ^ 56) {place : Nat} {held : Held}
    (hheld : (run { driver := d, id } moves).held? place = some held) :
    (run { driver := d, id } moves).Remembers place held := by
  have hlayout := hd.isLaidOut ((next_le_run hd.isNumbered moves).trans hnext)
  exact ((isConsistent_start hlayout hcontext id).run moves hnext).remembers hheld

/-! ### Two names of one variable -/

namespace Aliased

def artifact : Artifact where
  image := Text.bytes "// mock-ptx\n.target sm_80\n.entry k\n.global c 4\n"
  format := .ptx
  arch := "sm_80"
  entries := .ofList [("k", "k")]
  constants := .ofList [("c", "c"), ("d", "c")]

def fingerprint : Fingerprint := ⟨List.replicate 32 4, rfl⟩

/-- Load the artifact twice, fill the variable of each module, fill the first one again with too
few bytes, and drop the second one. -/
def moves : List Move :=
  [.load fingerprint artifact, .load fingerprint artifact, .fill 0 "c" [1, 2, 3, 4],
    .fill 1 "d" [5, 6, 7, 8], .fill 0 "d" [9], .drop 1]

def after : Holdings := run { driver := .ofCapability 8 6 } moves

/-- The bytes that were filled in under one name are read under the other. -/
theorem remembers_after : ∃ held g, after.held? 0 = some held ∧ after.Remembers 0 held ∧
    held.loaded.constant? "d" = some g ∧ after.driver.read g.address = some [1, 2, 3, 4] := by
  have hlast : ((after.held? 0).bind fun held => (held.loaded.constant? "d").bind fun _ =>
      after.lastFill? 0 held.artifact "d") = some [1, 2, 3, 4] := by decide +kernel
  obtain ⟨held, hheld, hlast⟩ := Option.bind_eq_some_iff.mp hlast
  obtain ⟨g, hg, hlast⟩ := Option.bind_eq_some_iff.mp hlast
  have hremembers := remembers_run (.start 8 6) rfl 0 moves (by decide +kernel) hheld
  exact ⟨held, g, hheld, hremembers, hg, (hremembers.read "d" g hg).trans hlast⟩

end Aliased

end Holdings
end KernelDepot
