/-
What all drivers have in common.

Whatever a driver answers, a module that was loaded has the entries that its artifact lists, and
a load that fails does not fail in the way in which the making of a handle does: if it blames a
symbol it has a status of the driver to show for it.
-/
import KernelDepot.Depot.Basic
import KernelDepot.Proofs.Device.Blame
import KernelDepot.Proofs.Device.Working

namespace KernelDepot

/-- Whether a failure blames an entry that a module lacks, without having asked the driver. -/
def DeviceFailure.LacksEntry (e : DeviceFailure) : Prop :=
  e.status = none ∧ ∃ name, e.fault = .missingSymbol name

theorem DeviceFailure.LacksEntry.isArtifactFault {e : DeviceFailure} (h : e.LacksEntry) :
    e.isArtifactFault = true := by
  obtain ⟨-, name, hname⟩ := h
  unfold DeviceFailure.isArtifactFault
  rw [hname]

theorem DeviceInfo.not_lacksEntry_of_check {info : DeviceInfo} {target : Arch}
    {format : ImageFormat} {e : DeviceFailure} (h : info.check target format = .error e) :
    ¬ e.LacksEntry := fun hlacks =>
  Bool.false_ne_true ((isArtifactFault_of_check h).1.symm.trans hlacks.isArtifactFault)

theorem KernelHandle.lacksEntry_of {m : LoadedModule} {entry : String} {e : DeviceFailure}
    (h : KernelHandle.of m entry = .error e) : e.LacksEntry := by
  unfold KernelHandle.of at h
  cases hf : m.function? entry with
  | some f =>
    rw [hf] at h
    exact nomatch h
  | none =>
    rw [hf] at h
    rw [← Except.error.inj h]
    exact ⟨rfl, entry, rfl⟩

namespace LoadedModule

variable {σ α : Type} {device : DriverHandler σ}

/-- A list of symbols is found under the names under which it was looked up. -/
theorem names_of_findAll {find : String → String → Driving (Except DeviceFailure α)}
    (l : List (String × String)) {x : σ} {values : List (String × α)}
    (h : ((findAll find l).run device x).1 = .ok values) :
    values.map Prod.fst = l.map Prod.fst :=
  (map_findAll (I := fun _ => True) (fun _ _ _ _ => ⟨fun _ _ => rfl, trivial⟩) trivial l).1 values h

theorem names_of_findSymbols {handle : Nat} {a : Artifact} {x : σ}
    {found : List (String × KernelFunction) × List (String × DeviceGlobal)}
    (h : ((findSymbols handle a).run device x).1 = .ok found) :
    found.1.map Prod.fst = a.entries.names := by
  have hnames (values : List (String × KernelFunction))
      (hvalues : ((findAll (findFunction handle) a.entries.entries).run device x).1 =
        .ok values) : values.map Prod.fst = a.entries.names := names_of_findAll _ hvalues
  unfold findSymbols at h
  simp only [Program.run_bind] at h
  generalize (findAll (findFunction handle) a.entries.entries).run device x = functions
    at hnames h
  obtain ⟨functions, x₁⟩ := functions
  cases functions with
  | error e => exact nomatch h
  | ok functions =>
    simp only [Program.run_bind] at h
    generalize (findAll (findGlobal handle) a.constants.entries).run device x₁ = globals at h
    obtain ⟨globals, x₂⟩ := globals
    cases globals with
    | error e => exact nomatch h
    | ok globals =>
      rw [← Except.ok.inj h]
      exact hnames functions rfl

/-- A load that fails and blames a symbol has asked the driver for it. -/
theorem not_lacksEntry_of_outcome {id : Nat} {info : DeviceInfo} {f : Fingerprint} {a : Artifact}
    {x : σ} {e : DeviceFailure} (h : ((load id info f a).run device x).1.outcome = .error e) :
    ¬ e.LacksEntry := by
  intro hlacks
  obtain ⟨hstatus, hblamed⟩ := isArtifactFault_load_iff h
  have hnone : Driving.failure? device (load id info f a) x = none :=
    Option.map_eq_none_iff.mp (hstatus.symm.trans hlacks.1)
  rcases hblamed.mp hlacks.isArtifactFault with ⟨fault, hparse⟩ | ⟨call, status, hfailed, -⟩
  · unfold load at h
    rw [hparse] at h
    obtain rfl := Except.error.inj h
    exact nomatch hlacks.2
  · exact nomatch hnone.symm.trans hfailed

/-- A module has the entries that its artifact lists. -/
theorem isSome_function?_of_outcome {id : Nat} {info : DeviceInfo} {f : Fingerprint} {a : Artifact}
    {x : σ} {m : LoadedModule} (h : ((load id info f a).run device x).1.outcome = .ok m)
    (entry : String) : (m.function? entry).isSome ↔ entry ∈ a.entries.names := by
  unfold load at h
  cases htarget : Arch.parse a.arch with
  | error fault =>
    rw [htarget] at h
    cases h
  | ok target =>
    rw [htarget] at h
    simp only at h
    cases hcheck : info.check target a.format with
    | error e =>
      rw [hcheck] at h
      cases h
    | ok =>
      rw [hcheck] at h
      simp only [Program.run_bind] at h
      generalize bindContext.run device x = bound at h
      obtain ⟨bound, x₁⟩ := bound
      cases bound with
      | error e => cases h
      | ok =>
        simp only [Program.run_bind, DriverCall.make, Program.run_question] at h
        generalize device (.load a.image) x₁ = reply at h
        obtain ⟨loaded, x₂⟩ := reply
        cases loaded with
        | error status => cases h
        | ok handle =>
          have hnames (found : List (String × KernelFunction) × List (String × DeviceGlobal))
              (hfound : ((findSymbols handle a).run device x₂).1 = .ok found) :=
            names_of_findSymbols hfound
          simp only [Program.run_bind] at h
          generalize (findSymbols handle a).run device x₂ = found at hnames h
          obtain ⟨found, x₃⟩ := found
          cases found with
          | error e =>
            simp only [Program.run_bind, Program.run_pure] at h
            cases h
          | ok found =>
            rw [← Except.ok.inj h, ← hnames found rfl]
            exact NameTable.find?_isSome_iff.trans NameTable.mem_names_ofList

end LoadedModule
end KernelDepot
