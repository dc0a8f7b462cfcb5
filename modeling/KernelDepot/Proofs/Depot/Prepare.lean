/-
What a prepared request is made of.
-/
import KernelDepot.Depot.Prepare
import KernelDepot.Proofs.Include.Served

namespace KernelDepot

theorem Except.eq_ok_of_toOption {ε α : Type} {x : Except ε α} {a : α}
    (h : x.toOption = some a) : x = .ok a := by
  cases x with
  | error e => exact nomatch h
  | ok b => exact congrArg _ (Option.some.inj h)

/-- A request that passes its check has an architecture that can be read. -/
theorem Request.arch_of_validate {r : Request} {arch : Arch} (h : r.validate = .ok arch) :
    Arch.parse r.arch = .ok arch := by
  unfold validate at h
  split at h
  · exact nomatch h
  · split at h
    · exact nomatch h
    · split at h
      · exact nomatch h
      · cases hp : Arch.parse r.arch with
        | error e => rw [hp] at h; exact nomatch h
        | ok a => rw [hp] at h; rw [← Except.ok.inj h]

theorem Request.entries_of_validate {r : Request} {arch : Arch} (h : r.validate = .ok arch) :
    r.entries ≠ [] := by
  intro he
  unfold validate at h
  rw [if_pos (by rw [he]; rfl)] at h
  exact nomatch h

/-- Only what a search path serves of a disk shows in a compilation. -/
theorem PreparedRequest.compile_congr {p : PreparedRequest} {disk disk' : Disk}
    (h : ∀ name, p.space.path.resolve disk name = p.space.path.resolve disk' name)
    (verbose : Bool) (dialogue : Dialogue) :
    PreparedRequest.compile { p with space := { p.space with disk := disk } } verbose dialogue =
      PreparedRequest.compile { p with space := { p.space with disk := disk' } } verbose
        dialogue := by
  have hanswer : Session.answer { p.space with disk := disk } p.source =
      Session.answer { p.space with disk := disk' } p.source := by
    funext request s
    unfold Session.answer Session.search
    simp only
    rw [h request.name]
  unfold compile
  simp only
  rw [hanswer]
  rfl

/-- A request as it is prepared on another disk. -/
def KeyedRequest.on (order : KeyedRequest) (disk : Disk) : KeyedRequest :=
  { order with space := { order.space with disk } }

namespace Depot

/-- How a request is prepared depends on what its search path serves of the disk. -/
theorem prepare_congr {path : SearchPath} {request : Request} {disk disk' : Disk}
    (h : path.ServesAlike request.includeDirs disk disk') (d : Depot) :
    (d.prepare disk' path request).outcome.map (·.on disk) =
      (d.prepare disk path request).outcome := by
  unfold prepare
  cases request.validate with
  | error e => rfl
  | ok arch =>
    simp only
    cases d.setup.device.check arch .ptx with
    | error e => rfl
    | ok checked =>
      simp only
      rw [Scan.ofSource_congr h]
      cases (Scan.ofSource ⟨path.withRoots disk request.includeDirs, disk, d.setup.builtins⟩
        request.source).outcome with
      | error e => rfl
      | ok source =>
        show Except.ok _ = Except.ok _
        unfold KeyedRequest.on
        simp only [h.withRoots]

/-- Everything that preparing a request settles. -/
structure Prepares (d : Depot) (disk : Disk) (path : SearchPath) (r : Request)
    (p : KeyedRequest) : Prop where
  request : p.request = r
  arch : r.validate = .ok p.arch
  device : d.setup.device.check p.arch .ptx = .ok ()
  flags : p.flags = d.setup.flags ++ r.flags
  space : p.space = ⟨path.withRoots disk r.includeDirs, disk, d.setup.builtins⟩
  source : (Scan.ofSource p.space r.source).outcome = .ok p.source
  fingerprint : p.fingerprint = .compute r p.flags p.source d.setup.toolchain

theorem prepare_eq_ok_iff {d : Depot} {disk : Disk} {path : SearchPath} {r : Request}
    {p : KeyedRequest} :
    (d.prepare disk path r).outcome = .ok p ↔ d.Prepares disk path r p := by
  unfold prepare
  constructor
  · intro h
    cases hv : r.validate with
    | error e => simp only [hv] at h; exact nomatch h
    | ok arch =>
      cases hc : d.setup.device.check arch .ptx with
      | error e => simp only [hv, hc] at h; exact nomatch h
      | ok _ =>
        simp only [hv, hc] at h
        generalize hs : Scan.ofSource
          ⟨path.withRoots disk r.includeDirs, disk, d.setup.builtins⟩ r.source = scan at h
        cases ho : scan.outcome with
        | error e => rw [ho] at h; exact nomatch h
        | ok source =>
          rw [ho] at h
          obtain rfl := Except.ok.inj h
          exact ⟨rfl, hv, hc, rfl, rfl, by rw [hs]; exact ho, rfl⟩
  · intro h
    have hs := h.source
    rw [h.space] at hs
    simp only [h.arch, h.device, hs, Except.map]
    obtain ⟨⟨request, arch, flags, space, source⟩, fingerprint⟩ := p
    obtain ⟨hrequest, -, -, hflags, hspace, -, hfingerprint⟩ := h
    dsimp only at hrequest hflags hspace hfingerprint
    subst hrequest hflags hspace hfingerprint
    rfl

end Depot
end KernelDepot
