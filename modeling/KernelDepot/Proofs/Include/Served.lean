/-
What a search path serves of a disk.

A search path looks at a disk to find the include roots of a request, and then every provider looks
up names in it.  On two disks on which both come to the same a scan comes to the same: this is
`ofSource_congr`.  The bound on the number of files may differ, but neither scan meets its own.
-/
import KernelDepot.Proofs.Include.Closure

namespace KernelDepot

/-- A search path finds the same roots on two disks, and its providers the same contents. -/
structure SearchPath.ServesAlike (path : SearchPath) (dirs : List String) (disk disk' : Disk) :
    Prop where
  withRoots : path.withRoots disk' dirs = path.withRoots disk dirs
  lookup : ∀ r ∈ (path.withRoots disk dirs).registrations, ∀ name,
    r.provider.lookup disk' name = r.provider.lookup disk name

namespace SearchPath

variable {path : SearchPath} {dirs : List String} {disk disk' disk'' : Disk}

theorem ServesAlike.refl (path : SearchPath) (dirs : List String) (disk : Disk) :
    path.ServesAlike dirs disk disk :=
  ⟨rfl, fun _ _ _ => rfl⟩

theorem ServesAlike.symm (h : path.ServesAlike dirs disk disk') :
    path.ServesAlike dirs disk' disk where
  withRoots := h.withRoots.symm
  lookup r hr name := by
    rw [h.withRoots] at hr
    exact (h.lookup r hr name).symm

theorem ServesAlike.trans (h : path.ServesAlike dirs disk disk')
    (h' : path.ServesAlike dirs disk' disk'') : path.ServesAlike dirs disk disk'' where
  withRoots := h'.withRoots.trans h.withRoots
  lookup r hr name := by
    have hr' : r ∈ (path.withRoots disk' dirs).registrations := h.withRoots.symm ▸ hr
    exact (h'.lookup r hr' name).trans (h.lookup r hr name)

theorem ask_congr {provider : Provider} {name : String}
    (h : provider.lookup disk' name = provider.lookup disk name) :
    ask disk' provider name = ask disk provider name := by
  unfold ask
  rw [h]

theorem resolveAmong_congr {rs : List Registration}
    (h : ∀ r ∈ rs, ∀ name, r.provider.lookup disk' name = r.provider.lookup disk name)
    (name : String) : resolveAmong disk' name rs = resolveAmong disk name rs := by
  induction rs with
  | nil => rfl
  | cons r rest ih =>
    obtain ⟨hr, hrest⟩ := List.forall_mem_cons.mp h
    unfold resolveAmong
    rw [ask_congr (hr name), ih hrest]

theorem resolve_congr (h : path.ServesAlike dirs disk disk') (name : String) :
    (path.withRoots disk dirs).resolve disk' name = (path.withRoots disk dirs).resolve disk name :=
  resolveAmong_congr h.lookup name

theorem resolveIn_congr (h : path.ServesAlike dirs disk disk') (id name : String) :
    (path.withRoots disk dirs).resolveIn disk' id name =
      (path.withRoots disk dirs).resolveIn disk id name := by
  unfold resolveIn
  cases hfind : (path.withRoots disk dirs).registrations.find? fun r => r.provider.id = id with
  | none => rfl
  | some r => exact ask_congr (h.lookup r (List.mem_of_find?_eq_some hfind) name)

end SearchPath

/-! ## Scans on two disks -/

/-- A scan without a bound comes to one result. -/
theorem Survey.Drains.unique {space : IncludeSpace} {s : Survey}
    {first second : Except Interruption Survey} (h : Drains space s first)
    (h' : Drains space s second) : first = second := by
  induction h with
  | done hp =>
    cases h' with
    | done => rfl
    | stop hp' hread' => exact nomatch hp.symm.trans hp'
    | next hp' hread' => exact nomatch hp.symm.trans hp'
  | stop hp hread =>
    cases h' with
    | done hp' => exact nomatch hp.symm.trans hp'
    | stop hp' hread' =>
      obtain ⟨rfl, rfl⟩ := List.cons.inj (hp.symm.trans hp')
      exact hread.symm.trans hread'
    | next hp' hread' =>
      obtain ⟨rfl, rfl⟩ := List.cons.inj (hp.symm.trans hp')
      exact nomatch hread.symm.trans hread'
  | next hp hread _ ih =>
    cases h' with
    | done hp' => exact nomatch hp.symm.trans hp'
    | stop hp' hread' =>
      obtain ⟨rfl, rfl⟩ := List.cons.inj (hp.symm.trans hp')
      exact nomatch hread.symm.trans hread'
    | next hp' hread' hrest' =>
      obtain ⟨rfl, rfl⟩ := List.cons.inj (hp.symm.trans hp')
      obtain rfl := Except.ok.inj (hread.symm.trans hread')
      exact ih hrest'

theorem Scan.outcome_of_drains {space : IncludeSpace} (origin : String) {page : Page} {s : Survey}
    (h : Survey.Drains space ⟨[], [page]⟩ (.ok s)) :
    (ofPage space origin page).outcome = .ok
      { origin
        text := page.content
        dependencies := s.findings.filterMap Finding.dependency?
        builtins := s.findings.filterMap Finding.builtin?
        deferred := s.findings.filterMap Finding.deferred? } := by
  unfold ofPage
  rw [(drains_start space page).unique h]

section
variable {path : SearchPath} {dirs : List String} {disk disk' : Disk}
  (h : path.ServesAlike dirs disk disk') (builtins : List String)
include h

theorem Survey.read_congr (page : Page) (s : Survey) :
    read ⟨path.withRoots disk dirs, disk', builtins⟩ page s =
      read ⟨path.withRoots disk dirs, disk, builtins⟩ page s := by
  have hlook (d : Directive) :
      IncludeSpace.look ⟨path.withRoots disk dirs, disk', builtins⟩ page d =
        IncludeSpace.look ⟨path.withRoots disk dirs, disk, builtins⟩ page d := by
    unfold IncludeSpace.look
    simp only [SearchPath.resolve_congr h, SearchPath.resolveIn_congr h]
  have hfollow : follow ⟨path.withRoots disk dirs, disk', builtins⟩ page =
      follow ⟨path.withRoots disk dirs, disk, builtins⟩ page := by
    funext s d
    unfold follow
    rw [hlook]
  unfold read
  rw [hfollow]

theorem Survey.Drains.congr {s : Survey} {result : Except Interruption Survey}
    (hr : Drains ⟨path.withRoots disk dirs, disk', builtins⟩ s result) :
    Drains ⟨path.withRoots disk dirs, disk, builtins⟩ s result := by
  induction hr with
  | done hp => exact .done hp
  | stop hp hread =>
    rw [read_congr h] at hread
    exact .stop hp hread
  | next hp hread _ ih =>
    rw [read_congr h] at hread
    exact .next hp hread ih

theorem Scan.ofPage_congr (origin : String) (page : Page) :
    ofPage ⟨path.withRoots disk dirs, disk', builtins⟩ origin page =
      ofPage ⟨path.withRoots disk dirs, disk, builtins⟩ origin page := by
  have hdrain := ((drains_start _ page).congr h builtins).unique (drains_start _ page)
  unfold ofPage
  rw [hdrain]

theorem Scan.ofSource_congr (source : ProgramSource) :
    ofSource ⟨path.withRoots disk' dirs, disk', builtins⟩ source =
      ofSource ⟨path.withRoots disk dirs, disk, builtins⟩ source := by
  rw [h.withRoots]
  unfold ofSource
  cases source with
  | inline text => exact ofPage_congr h builtins _ _
  | named name =>
    simp only [SearchPath.resolve_congr h, ofPage_congr h]

end

end KernelDepot
