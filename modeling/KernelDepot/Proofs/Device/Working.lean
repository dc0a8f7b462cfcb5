/-
Loading an artifact with a driver that works.

A working driver makes its context current whenever it is asked to, and what it makes of an
image is in the image alone: what it did before has no say in whether it takes the image and
which symbols it finds in it.  Then the outcome of loading an artifact can be said in
advance.  It is the `verdict` on the artifact, and only the handles differ from load to load.
-/
import KernelDepot.Device.Module
import KernelDepot.Proofs.NameTable

namespace KernelDepot

/-- What is known of every single symbol that is found, as long as the driver is in some states, is
known of a list of them. -/
theorem LoadedModule.map_findAll {σ α β : Type} {device : DriverHandler σ} {I : σ → Prop}
    {find : String → String → Driving (Except DeviceFailure α)} {read : String × α → β}
    {expect : String × String → β}
    (hfind : ∀ x name symbol, I x →
      (∀ value, ((find name symbol).run device x).1 = .ok value →
        read (name, value) = expect (name, symbol)) ∧ I ((find name symbol).run device x).2)
    {x : σ} (h : I x) (l : List (String × String)) :
    (∀ values, ((findAll find l).run device x).1 = .ok values → values.map read = l.map expect) ∧
      I ((findAll find l).run device x).2 := by
  induction l generalizing x with
  | nil => exact ⟨fun values hvalues => by rw [← Except.ok.inj hvalues]; rfl, h⟩
  | cons e rest ih =>
    obtain ⟨name, symbol⟩ := e
    obtain ⟨hread, hI⟩ := hfind x name symbol h
    unfold findAll
    simp only [Program.run_bind]
    generalize (find name symbol).run device x = found at hread hI ⊢
    obtain ⟨found, x₁⟩ := found
    cases found with
    | error e => exact ⟨nofun, hI⟩
    | ok value =>
      obtain ⟨hrest, hI⟩ := ih hI
      simp only [Program.run_bind]
      generalize (findAll find rest).run device x₁ = others at hrest hI ⊢
      obtain ⟨others, x₂⟩ := others
      cases others with
      | error e => exact ⟨nofun, hI⟩
      | ok others =>
        refine ⟨fun values hvalues => ?_, hI⟩
        rw [← Except.ok.inj hvalues, List.map_cons, List.map_cons, hread value rfl,
          hrest others rfl]

/-- A driver that works, and what it makes of images and of the symbols in them. -/
structure WorkingDriver {σ : Type} (device : DriverHandler σ) where
  takes : Bytes → Except DriverStatus Unit
  function : Bytes → String → Except DriverStatus Unit
  occupancy : Bytes → String → Except DriverStatus Unit
  global : Bytes → String → Except DriverStatus Unit
  /-- Whether a handle stands for a module made of an image. -/
  resident : σ → Nat → Bytes → Prop
  bind_ok : ∀ x, (device .bind x).1 = .ok ()
  load_eq : ∀ image x, (device (.load image) x).1.map (fun _ => ()) = takes image
  resident_load : ∀ image x handle, (device (.load image) x).1 = .ok handle →
    resident (device (.load image) x).2 handle image
  getFunction_eq : ∀ x handle image name, resident x handle image →
    (device (.getFunction handle name) x).1.map (fun _ => ()) = function image name
  occupancy_eq : ∀ x handle image name f, resident x handle image →
    (device (.getFunction handle name) x).1 = .ok f →
    (device (.occupancy f) (device (.getFunction handle name) x).2).1.map (fun _ => ()) =
      occupancy image name
  getGlobal_eq : ∀ x handle image name, resident x handle image →
    (device (.getGlobal handle name) x).1.map (fun _ => ()) = global image name
  resident_getFunction : ∀ x handle image name, resident x handle image →
    resident (device (.getFunction handle name) x).2 handle image
  resident_occupancy : ∀ x handle image f, resident x handle image →
    resident (device (.occupancy f) x).2 handle image
  resident_getGlobal : ∀ x handle image name, resident x handle image →
    resident (device (.getGlobal handle name) x).2 handle image

namespace WorkingDriver

variable {σ α : Type} {device : DriverHandler σ} (w : WorkingDriver device)

def entryVerdict (image : Bytes) (entry symbol : String) : Except DeviceFailure Unit := do
  (w.function image symbol).mapError (LoadedModule.symbolFailure · entry symbol)
  (w.occupancy image symbol).mapError
    (DeviceFailure.ofStatus · ("occupancy query failed for '" ++ entry ++ "'"))

def constantVerdict (image : Bytes) (name symbol : String) : Except DeviceFailure Unit :=
  (w.global image symbol).mapError (LoadedModule.symbolFailure · name symbol)

def symbolVerdict (a : Artifact) : Except DeviceFailure Unit := do
  forM a.entries.entries fun e => w.entryVerdict a.image e.1 e.2
  forM a.constants.entries fun e => w.constantVerdict a.image e.1 e.2

def verdict (info : DeviceInfo) (a : Artifact) : Except DeviceFailure Unit := do
  let target ← (Arch.parse a.arch).mapError fun e => ⟨.invalidImage, e.message, none⟩
  info.check target a.format
  (w.takes a.image).mapError (LoadedModule.loadFailure info target)
  w.symbolVerdict a

variable {w} {x : σ} {handle : Nat} {image : Bytes}

theorem run_findFunction (h : w.resident x handle image) (entry symbol : String) :
    ((LoadedModule.findFunction handle entry symbol).run device x).1.map (fun _ => ()) =
      w.entryVerdict image entry symbol ∧
    w.resident ((LoadedModule.findFunction handle entry symbol).run device x).2 handle image := by
  have hf := w.getFunction_eq x handle image symbol h
  have hr := w.resident_getFunction x handle image symbol h
  have ho := w.occupancy_eq x handle image symbol
  unfold LoadedModule.findFunction entryVerdict DriverCall.make
  simp only [Program.run_bind, Program.run_question]
  rw [← hf]
  cases hreply : (device (.getFunction handle symbol) x).1 with
  | error status => exact ⟨rfl, hr⟩
  | ok f =>
    have ho := ho f h hreply
    have hr := w.resident_occupancy _ handle image f hr
    simp only [Program.run_bind, Program.run_question]
    rw [← ho]
    cases (device (.occupancy f) (device (.getFunction handle symbol) x).2).1 with
    | error status => exact ⟨rfl, hr⟩
    | ok occupancy => exact ⟨rfl, hr⟩

theorem run_findGlobal (h : w.resident x handle image) (name symbol : String) :
    ((LoadedModule.findGlobal handle name symbol).run device x).1.map (fun _ => ()) =
      w.constantVerdict image name symbol ∧
    w.resident ((LoadedModule.findGlobal handle name symbol).run device x).2 handle image := by
  have hg := w.getGlobal_eq x handle image symbol h
  have hr := w.resident_getGlobal x handle image symbol h
  unfold LoadedModule.findGlobal constantVerdict DriverCall.make
  simp only [Program.run_bind, Program.run_question]
  rw [← hg]
  cases (device (.getGlobal handle symbol) x).1 with
  | error status => exact ⟨rfl, hr⟩
  | ok global => exact ⟨rfl, hr⟩

/-- A list of symbols is found if each of them is, and up to the first that is not. -/
theorem run_findAll {find : String → String → Driving (Except DeviceFailure α)}
    {judge : String → String → Except DeviceFailure Unit}
    (hfind : ∀ x name symbol, w.resident x handle image →
      ((find name symbol).run device x).1.map (fun _ => ()) = judge name symbol ∧
        w.resident ((find name symbol).run device x).2 handle image)
    (h : w.resident x handle image) (l : List (String × String)) :
    ((LoadedModule.findAll find l).run device x).1.map (·.map Prod.fst) =
      (forM l fun e => judge e.1 e.2).map (fun _ => l.map Prod.fst) ∧
    w.resident ((LoadedModule.findAll find l).run device x).2 handle image := by
  induction l generalizing x with
  | nil => exact ⟨rfl, h⟩
  | cons e rest ih =>
    obtain ⟨name, symbol⟩ := e
    obtain ⟨hj, hr⟩ := hfind x name symbol h
    unfold LoadedModule.findAll
    simp only [Program.run_bind, List.forM_cons]
    rw [← hj]
    cases hreply : ((find name symbol).run device x).1 with
    | error e => exact ⟨rfl, hr⟩
    | ok value =>
      obtain ⟨hrest, hr⟩ := ih hr
      simp only [Program.run_bind]
      generalize hothers : ((LoadedModule.findAll find rest).run device
        ((find name symbol).run device x).2).1 = others at hrest ⊢
      refine ⟨?_, ?_⟩
      · show _ = (forM rest fun e => judge e.1 e.2).map fun _ => name :: rest.map Prod.fst
        cases others with
        | error e =>
          cases hforM : forM rest fun e => judge e.1 e.2 with
          | error e' =>
            rw [hforM] at hrest
            exact congrArg Except.error (Except.error.inj hrest)
          | ok =>
            rw [hforM] at hrest
            exact nomatch hrest
        | ok values =>
          cases hforM : forM rest fun e => judge e.1 e.2 with
          | error e' =>
            rw [hforM] at hrest
            exact nomatch hrest
          | ok =>
            rw [hforM] at hrest
            exact congrArg (fun names => Except.ok (name :: names)) (Except.ok.inj hrest)
      · cases others <;> exact hr

theorem run_findSymbols (a : Artifact) (h : w.resident x handle a.image) :
    ((LoadedModule.findSymbols handle a).run device x).1.map (·.1.map Prod.fst) =
      (w.symbolVerdict a).map fun _ => a.entries.names := by
  obtain ⟨hf, hr⟩ := run_findAll (fun _ entry symbol hx => run_findFunction hx entry symbol) h
    a.entries.entries
  unfold LoadedModule.findSymbols symbolVerdict
  simp only [Program.run_bind]
  generalize ((LoadedModule.findAll (LoadedModule.findFunction handle) a.entries.entries).run
    device x) = found at hf hr ⊢
  obtain ⟨functions, x₁⟩ := found
  obtain ⟨hg, -⟩ := run_findAll (fun _ name symbol hx => run_findGlobal hx name symbol) hr
    a.constants.entries
  cases functions with
  | error e =>
    cases hv : forM a.entries.entries fun e => w.entryVerdict a.image e.1 e.2 with
    | error e' =>
      rw [hv] at hf
      exact congrArg Except.error (Except.error.inj hf)
    | ok =>
      rw [hv] at hf
      exact nomatch hf
  | ok functions =>
    cases hv : forM a.entries.entries fun e => w.entryVerdict a.image e.1 e.2 with
    | error e' =>
      rw [hv] at hf
      exact nomatch hf
    | ok =>
      rw [hv] at hf
      simp only [Program.run_bind]
      generalize ((LoadedModule.findAll (LoadedModule.findGlobal handle)
        a.constants.entries).run device x₁).1 = globals at hg ⊢
      show _ = (forM a.constants.entries fun e => w.constantVerdict a.image e.1 e.2).map
        fun _ => a.entries.names
      generalize (forM a.constants.entries fun e => w.constantVerdict a.image e.1 e.2) = v at hg ⊢
      cases globals <;> cases v
      · exact congrArg Except.error (Except.error.inj hg)
      · exact nomatch hg
      · exact nomatch hg
      · exact congrArg Except.ok (Except.ok.inj hf)

theorem run_bindContext (w : WorkingDriver device) (x : σ) :
    (LoadedModule.bindContext.run device x).1 = .ok () := by
  unfold LoadedModule.bindContext DriverCall.make
  simp only [Program.run_bind, Program.run_question]
  rw [w.bind_ok]
  rfl

/-- The outcome of loading an artifact is the verdict on it, and a module that was loaded has
the entries that the artifact lists. -/
theorem outcome_load (w : WorkingDriver device) (x : σ) (id : Nat) (info : DeviceInfo)
    (f : Fingerprint) (a : Artifact) :
    ((LoadedModule.load id info f a).run device x).1.outcome.map (fun _ => ()) =
      w.verdict info a ∧
    ∀ m, ((LoadedModule.load id info f a).run device x).1.outcome = .ok m →
      ∀ entry, (m.function? entry).isSome ↔ entry ∈ a.entries.names := by
  unfold LoadedModule.load
  cases htarget : Arch.parse a.arch with
  | error e =>
    unfold verdict
    rw [htarget]
    exact ⟨rfl, nofun⟩
  | ok target =>
    have hv : w.verdict info a = (info.check target a.format).bind fun _ =>
        ((w.takes a.image).mapError (LoadedModule.loadFailure info target)).bind fun _ =>
          w.symbolVerdict a := by
      unfold verdict
      rw [htarget]
      rfl
    rw [hv]
    simp only
    cases hcheck : info.check target a.format with
    | error e => exact ⟨rfl, nofun⟩
    | ok =>
      simp only [Program.run_bind]
      rw [run_bindContext w]
      simp only [Program.run_bind, DriverCall.make, Program.run_question]
      generalize hx : (LoadedModule.bindContext.run device x).2 = x₁
      have htakes := w.load_eq a.image x₁
      have hres := w.resident_load a.image x₁
      generalize device (.load a.image) x₁ = reply at htakes hres ⊢
      obtain ⟨loaded, x₂⟩ := reply
      cases loaded with
      | error status =>
        rw [← htakes]
        exact ⟨rfl, nofun⟩
      | ok handle =>
        have hfound := run_findSymbols a (hres handle rfl)
        rw [← htakes]
        show _ = w.symbolVerdict a ∧ _
        simp only [Program.run_bind]
        generalize (LoadedModule.findSymbols handle a).run device x₂ = found at hfound ⊢
        obtain ⟨symbols, x₃⟩ := found
        generalize w.symbolVerdict a = v at hfound ⊢
        cases symbols with
        | error e =>
          cases v with
          | error e' =>
            simp only [Program.run_bind, Program.run_pure]
            exact ⟨congrArg Except.error (Except.error.inj hfound), nofun⟩
          | ok => exact nomatch hfound
        | ok symbols =>
          cases v with
          | error e' => exact nomatch hfound
          | ok =>
            refine ⟨rfl, ?_⟩
            rintro m hm entry
            have hnames : symbols.1.map Prod.fst = a.entries.names := Except.ok.inj hfound
            rw [← Except.ok.inj hm, ← hnames]
            exact NameTable.find?_isSome_iff.trans NameTable.mem_names_ofList

end WorkingDriver
end KernelDepot
