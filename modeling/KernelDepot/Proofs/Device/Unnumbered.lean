/-
Modules apart from their numbers.

A driver gives out numbers for modules, functions and globals, and which ones depends on what it
did before.  Two modules that are the same without their numbers have the same symbols, and their
handles are the same without their numbers too.
-/
import KernelDepot.Proofs.Depot.Steps
import KernelDepot.Proofs.NameTable

namespace KernelDepot

/-- The table with every value changed. -/
def NameTable.map {α β : Type} (change : α → β) (t : NameTable α) : NameTable β where
  entries := t.entries.map fun e => (e.1, change e.2)
  sorted := List.pairwise_map.mpr t.sorted

theorem NameTable.find?_map {α β : Type} (change : α → β) (t : NameTable α) (name : String) :
    (t.map change).find? name = (t.find? name).map change :=
  lookup_map_snd t.entries change name

theorem NameTable.map_insert {α β : Type} (change : α → β) (t : NameTable α) (name : String)
    (value : α) : (t.insert name value).map change = (t.map change).insert name (change value) := by
  have hentries (l : List (String × α)) :
      (insertEntry name value l).map (fun e => (e.1, change e.2)) =
        insertEntry name (change value) (l.map fun e => (e.1, change e.2)) := by
    induction l with
    | nil => rfl
    | cons e rest ih =>
      rw [List.map_cons, insertEntry, insertEntry, apply_ite (List.map _), apply_ite (List.map _),
        List.map_cons, List.map_cons, List.map_cons, List.map_cons, ih]
  exact eq_of_entries (hentries t.entries)

theorem NameTable.map_ofList {α β : Type} (change : α → β) (pairs : List (String × α)) :
    (ofList pairs).map change = ofList (pairs.map fun e => (e.1, change e.2)) := by
  have hfold (t : NameTable α) :
      (pairs.foldl (fun t pair => t.insert pair.1 pair.2) t).map change =
        (pairs.map fun e => (e.1, change e.2)).foldl (fun t pair => t.insert pair.1 pair.2)
          (t.map change) := by
    induction pairs generalizing t with
    | nil => rfl
    | cons pair rest ih => rw [List.foldl_cons, List.map_cons, List.foldl_cons, ih, map_insert]
  exact hfold empty

namespace LoadedModule

def unnumbered (m : LoadedModule) : LoadedModule where
  key := ⟨m.key.device, 0⟩
  fingerprint := m.fingerprint
  arch := m.arch
  functions := m.functions.map fun f => { f with handle := 0 }
  constants := m.constants.map fun g => { g with address := 0 }

end LoadedModule

def KernelHandle.unnumbered (h : KernelHandle) : KernelHandle :=
  ⟨h.loaded.unnumbered, { h.function with handle := 0 }⟩

def Outcome.unnumbered (outcome : Outcome) : Outcome := outcome.map KernelHandle.unnumbered

theorem Outcome.isOk_unnumbered (outcome : Outcome) :
    Except.isOk (Outcome.unnumbered outcome) = outcome.isOk := by
  cases outcome <;> rfl

/-- The entries of an index without the numbers of their modules. -/
def Depot.unnumberedEntries (entries : List (Fingerprint × LoadedModule)) :
    List (Fingerprint × LoadedModule) :=
  entries.map fun e => (e.1, e.2.unnumbered)

theorem LoadedModule.outcome_unnumbered (m : LoadedModule) (entry : String) :
    m.unnumbered.outcome entry = Outcome.unnumbered (m.outcome entry) := by
  have hf : m.unnumbered.function? entry =
      (m.function? entry).map fun f => { f with handle := 0 } :=
    NameTable.find?_map _ m.functions entry
  unfold outcome KernelHandle.of
  rw [hf]
  cases m.function? entry <;> rfl

/-- Modules that differ in numbers at most give handles that differ in numbers at most. -/
theorem LoadedModule.outcome_congr {m m' : LoadedModule} (h : m'.unnumbered = m.unnumbered)
    (entry : String) :
    Outcome.unnumbered (m'.outcome entry) = Outcome.unnumbered (m.outcome entry) := by
  rw [← outcome_unnumbered, h, outcome_unnumbered]

theorem Depot.find?_congr {d d' : Depot}
    (h : unnumberedEntries d'.index = unnumberedEntries d.index) (f : Fingerprint) :
    (d'.find? f).map LoadedModule.unnumbered = (d.find? f).map LoadedModule.unnumbered := by
  unfold find?
  rw [← lookup_map_snd, ← lookup_map_snd]
  exact congrArg (·.lookup f) h

end KernelDepot
