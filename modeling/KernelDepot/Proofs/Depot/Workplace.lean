/-
Places of work on a simulated machine.

A depot has its store in a directory of plain files, somewhere on a disk without links, and a
device whose driver is ready.  Nothing that a depot does changes that, so it may be taken for
granted at all times (`Workplace.host`).  The names of a store are short enough to be names of
files there, so the directory is reliable; the driver works; and every root that is apart from the
directory serves the same at all times.
-/
import KernelDepot.Proofs.Artifact.Written
import KernelDepot.Proofs.Artifact.Represented
import KernelDepot.Proofs.Depot.Balance
import KernelDepot.Proofs.Depot.Mirrored
import KernelDepot.Proofs.Depot.Outlook
import KernelDepot.Proofs.Device.Ready
import KernelDepot.Proofs.Provider.Elsewhere

namespace KernelDepot

open ArtifactStore Disk Text

/-! ## The names of the files of a store -/

theorem Disk.nameFault?_eq_none {folder : Place} {name : String}
    (hnul : hasNul (pathOf folder) = false)
    (hroom : (bytes (pathOf folder)).length + nameLimit < pathLimit) (hname : Path.IsPlain name)
    (hascii : IsAscii name) (hlength : name.length ≤ nameLimit) :
    nameFault? folder name = none := by
  have hclean : hasNul name = false :=
    List.any_eq_false.mpr fun c hc hzero => (hascii c hc).1 (of_decide_eq_true hzero)
  have hslash : (bytes "/").length = 1 := by decide
  have hpath : hasNul (Path.join (pathOf folder) name) = false ∧
      (bytes (Path.join (pathOf folder) name)).length ≤ pathLimit := by
    rcases Path.join_cases (pathOf folder) hname.slash_not_mem with hjoin | hjoin <;>
    · rw [hjoin]
      simp only [hasNul_append, length_bytes_append, hascii.length_bytes, hnul, hclean, hslash]
      exact ⟨rfl, by omega⟩
  have hlong : isTooLong (Path.join (pathOf folder) name) = false :=
    Bool.and_eq_false_iff.mpr (.inr (decide_eq_false (Nat.not_lt.mpr hpath.2)))
  unfold nameFault?
  simp only [hlong, hpath.1, Bool.false_eq_true, if_false]
  exact if_neg (Nat.not_lt.mpr (hascii.length_bytes ▸ hlength))

/-- The numbers of a ticket take 32 and 64 bits. -/
def Ticket.IsSized (t : Ticket) : Prop :=
  t.process < Number.limit32 ∧ t.serial < Number.limit64

namespace ArtifactStore

variable {f : Fingerprint} {name : String} {t : Ticket}

theorem isAscii_of_mem_namesOf (h : name ∈ namesOf f) : IsAscii name ∧ name.length ≤ 70 := by
  have hext : ∀ ext ∈ [".json", ".ptx", ".cubin"], IsAscii ext ∧ ext.length ≤ 6 := by decide
  obtain ⟨ext, hmem, rfl⟩ := exists_extension h
  obtain ⟨hascii, hlength⟩ := hext ext hmem
  refine ⟨isAscii_append.mpr ⟨fun c hc => ?_, hascii⟩, ?_⟩
  · rw [Fingerprint.hex, String.toList_ofList] at hc
    have hdigit : Hex.IsDigit c := Hex.isDigit_of_mem_encode hc
    refine ⟨fun hzero => ?_, hdigit.toNat_lt⟩
    have hnul : c = Char.ofNat 0 := by rw [← hzero, Char.ofNat_toNat]
    exact absurd (hnul ▸ hdigit) (by decide)
  · rw [String.length_append, length_hex]
    omega

theorem isAscii_decimalText (n : Nat) : IsAscii (Number.decimalText n) := by
  intro c hc
  rw [Number.decimalText, String.toList_ofList] at hc
  have hrange := Number.toNat_of_isDigit (Json.isDigit_of_mem_decimal hc)
  omega

theorem isAscii_temporaryName (h : name ∈ namesOf f) (ht : t.IsSized) :
    IsAscii (temporaryName name t) ∧ (temporaryName name t).length ≤ nameLimit := by
  obtain ⟨hascii, hlength⟩ := isAscii_of_mem_namesOf h
  have hends : IsAscii "." ∧ IsAscii ".tmp" ∧ ".".length = 1 ∧ ".tmp".length = 4 := by decide
  have hprocess : (Number.decimal t.process).length ≤ 10 :=
    Number.length_decimal_le (Nat.lt_of_lt_of_le ht.1 (by decide))
  have hserial : (Number.decimal t.serial).length ≤ 20 :=
    Number.length_decimal_le (Nat.lt_of_lt_of_le ht.2 (by decide))
  unfold temporaryName Ticket.text
  constructor
  · simp only [isAscii_append, isAscii_decimalText, hascii, hends, and_self]
  · simp only [String.length_append, Number.decimalText, String.length_ofList, hends, nameLimit]
    omega

end ArtifactStore

/-- The names that a step gives are those of entries of the directory. -/
def FileOp.IsPlain : FileOp → Prop
  | isFile name | read name | write name _ | delete name | size name => Path.IsPlain name
  | rename source target => Path.IsPlain source ∧ Path.IsPlain target
  | list | ticket => True

instance : (op : FileOp) → Decidable op.IsPlain
  | .isFile name | .read name | .write name _ | .delete name | .size name =>
    inferInstanceAs (Decidable (Path.IsPlain name))
  | .rename source target =>
    inferInstanceAs (Decidable (Path.IsPlain source ∧ Path.IsPlain target))
  | .list | .ticket => .isTrue trivial

theorem FileOp.IsAt.isPlain {f : Fingerprint} {op : FileOp} (h : op.IsAt f) : op.IsPlain := by
  cases op with
  | isFile | read | write | delete => exact IsFileOf.isPlain h
  | rename => exact ⟨h.1.isPlain, h.2.isPlain⟩
  | ticket => trivial
  | list | size => exact h.elim

/-! ## Places of work -/

/-- The directory of a store on a disk without links, a device, and a toolchain. -/
structure Workplace where
  disk : Disk
  folder : Place
  deviceId : Nat
  device : DeviceInfo
  toolchain : Toolchain
  not_link : ∀ place target, disk.entryAt place ≠ some (.link target)
  hasNul_eq : hasNul (pathOf folder) = false
  hasRoom : (bytes (pathOf folder)).length + nameLimit < pathLimit

namespace Workplace

variable (w : Workplace)

def dir : String := pathOf w.folder

/-- A machine whose disk differs from the one of the place in the files of the store only, and
whose driver is ready. -/
structure Suits (m : Machine) : Prop where
  isAround : w.disk.IsAround m.disk w.folder
  isFolder : m.disk.IsFolder w.folder
  isReady : (Machine.driver w.deviceId m).IsReady w.device
  isSized : m.ticket.IsSized

variable {w} {m : Machine} {name : String}

theorem Suits.changed {disk : Disk} (h : w.Suits m) (haround : m.disk.IsAround disk w.folder)
    (hfolder : disk.IsFolder w.folder) : w.Suits { m with disk } :=
  ⟨h.isAround.trans haround, hfolder, h.isReady, h.isSized⟩

theorem Suits.files (h : w.Suits m) (op : FileOp) (hop : op.IsPlain) :
    w.Suits (Machine.files w.dir op m).2 := by
  cases op with
  | isFile | read | list | size => exact h
  | ticket => exact ⟨h.isAround, h.isFolder, h.isReady, h.isSized.1, Nat.mod_lt _ (by decide)⟩
  | write name content =>
    show w.Suits (m.changed (m.disk.write (Path.join (pathOf w.folder) name) content)).2
    rw [h.isFolder.write_join hop]
    cases hfault : nameFault? w.folder name with
    | some e => exact h
    | none => exact h.changed (.put ..) (h.isFolder.put hop hfault content)
  | delete name =>
    show w.Suits (m.changed (m.disk.delete (Path.join (pathOf w.folder) name))).2
    rw [h.isFolder.delete_join hop]
    cases m.disk.fileIn? w.folder name with
    | some _ => exact h.changed (.erase ..) (h.isFolder.erase name)
    | none => exact h
  | rename source target =>
    show w.Suits (m.changed (m.disk.rename (Path.join (pathOf w.folder) source)
      (Path.join (pathOf w.folder) target))).2
    have hrename := h.isFolder.rename_join hop.1 hop.2
    split at hrename
    next content hcontent hfault =>
      rw [hrename]
      by_cases hsame : source = target
      · rw [if_pos hsame]
        exact h
      · rw [if_neg hsame]
        exact h.changed ((IsAround.erase ..).trans (.put ..))
          ((h.isFolder.erase source).put hop.2 hfault content)
    next =>
      obtain ⟨e, he⟩ := hrename
      rw [he]
      exact h

theorem exists_drivers (id : Nat) (call : DriverCall) (m : Machine) :
    ∃ drivers, (Machine.device id call m).2 = { m with drivers } := by
  unfold Machine.device
  split
  · exact ⟨m.drivers, rfl⟩
  · exact ⟨_, rfl⟩

theorem disk_device (id : Nat) (call : DriverCall) (m : Machine) :
    (Machine.device id call m).2.disk = m.disk := by
  obtain ⟨drivers, hdrivers⟩ := exists_drivers id call m
  rw [hdrivers]

theorem Suits.device (h : w.Suits m) (call : DriverCall) :
    w.Suits (Machine.device w.deviceId call m).2 := by
  have hready := h.isReady.isReady_answer call
  rw [← (Machine.simulates_facility fun _ => w.toolchain).own w.deviceId call m] at hready
  change (Machine.driver w.deviceId (Machine.device w.deviceId call m).2).IsReady w.device at hready
  obtain ⟨drivers, hdrivers⟩ := exists_drivers w.deviceId call m
  rw [hdrivers] at hready ⊢
  exact ⟨h.isAround, h.isFolder, hready, h.isSized⟩

/-- The machines that can be met at a place of work. -/
abbrev State (w : Workplace) : Type := { m : Machine // w.Suits m }

/-- The surroundings that a depot has.  Nothing is done to files that are not in the directory of
the store. -/
def host (w : Workplace) : Host w.State where
  disk x := x.1.disk
  files op x :=
    ((Machine.files w.dir op x.1).1,
      if h : op.IsPlain then ⟨(Machine.files w.dir op x.1).2, x.2.files op h⟩ else x)
  device call x :=
    ((Machine.device w.deviceId call x.1).1,
      ⟨(Machine.device w.deviceId call x.1).2, x.2.device call⟩)
  compile job x := (w.toolchain.compile job, x)

theorem mirrors_host (w : Workplace) :
    (Machine.host w.deviceId w.dir w.toolchain).Mirrors w.host Subtype.val where
  disk _ := rfl
  files f op hop x := by
    unfold host
    simp only [dif_pos hop.isPlain]
    rfl
  device _ _ := rfl
  compile _ _ := rfl

/-! ## The directory -/

/-- The contents of the files in the directory. -/
def content (w : Workplace) (x : w.State) : String → Option Bytes := x.1.disk.fileIn? w.folder

variable {source target : String}

theorem files_fst (op : FileOp) (x : w.State) :
    (w.host.files op x).1 = (Machine.files w.dir op x.1).1 := rfl

theorem content_files {op : FileOp} (h : op.IsPlain) (x : w.State) :
    w.content (w.host.files op x).2 = (Machine.files w.dir op x.1).2.disk.fileIn? w.folder := by
  unfold host content
  simp only [dif_pos h]

theorem files_read (hname : Path.IsPlain name) (x : w.State) :
    (w.host.files (.read name) x).1 = match w.content x name with
      | some content => .ok content
      | none => .error ((nameFault? w.folder name).getD .notFound) :=
  x.2.isFolder.read_join hname

theorem content_delete (hname : Path.IsPlain name) (x : w.State) (other : String) :
    w.content (w.host.files (.delete name) x).2 other =
      if other = name then none else w.content x other := by
  have hrun : Machine.files w.dir (.delete name) x.1 =
      x.1.changed (x.1.disk.delete (Path.join (pathOf w.folder) name)) := rfl
  rw [@content_files w (.delete name) hname x, hrun, x.2.isFolder.delete_join hname]
  cases hcontent : x.1.disk.fileIn? w.folder name with
  | some found => exact fileIn?_erase ..
  | none =>
    by_cases hother : other = name
    · rw [if_pos hother, hother]
      exact hcontent
    · rw [if_neg hother]
      rfl

/-- A file is written unless its name is at fault. -/
theorem files_write (hname : Path.IsPlain name) (bytes : Bytes) (x : w.State) :
    match nameFault? w.folder name with
    | some e => (w.host.files (.write name bytes) x).1 = .error e ∧
      w.content (w.host.files (.write name bytes) x).2 = w.content x
    | none => (w.host.files (.write name bytes) x).1 = .ok () ∧
      ∀ other, w.content (w.host.files (.write name bytes) x).2 other =
        if other = name then some bytes else w.content x other := by
  have hrun : Machine.files w.dir (.write name bytes) x.1 =
      x.1.changed (x.1.disk.write (Path.join (pathOf w.folder) name) bytes) := rfl
  rw [@content_files w (.write name bytes) hname x, files_fst, hrun,
    x.2.isFolder.write_join hname]
  cases nameFault? w.folder name with
  | some e => exact ⟨rfl, rfl⟩
  | none => exact ⟨rfl, fun other => fileIn?_put ..⟩

/-- A file is renamed, or nothing happens. -/
theorem files_rename (hsource : Path.IsPlain source) (htarget : Path.IsPlain target)
    (x : w.State) :
    match w.content x source, nameFault? w.folder target with
    | some content, none => (w.host.files (.rename source target) x).1 = .ok () ∧
      w.content (w.host.files (.rename source target) x).2 target = some content ∧
      ∀ other, other ≠ source → other ≠ target →
        w.content (w.host.files (.rename source target) x).2 other = w.content x other
    | _, _ => (∃ e, (w.host.files (.rename source target) x).1 = .error e) ∧
      w.content (w.host.files (.rename source target) x).2 = w.content x := by
  have hrun : Machine.files w.dir (.rename source target) x.1 =
      x.1.changed (x.1.disk.rename (Path.join (pathOf w.folder) source)
        (Path.join (pathOf w.folder) target)) := rfl
  rw [@content_files w (.rename source target) ⟨hsource, htarget⟩ x, files_fst, hrun]
  have hrename := x.2.isFolder.rename_join hsource htarget
  unfold content
  cases hcontent : x.1.disk.fileIn? w.folder source with
  | none =>
    rw [hcontent] at hrename
    obtain ⟨e, he⟩ := hrename
    rw [he]
    exact ⟨⟨e, rfl⟩, rfl⟩
  | some content =>
    rw [hcontent] at hrename
    cases hfault : nameFault? w.folder target with
    | some fault =>
      rw [hfault] at hrename
      obtain ⟨e, he⟩ := hrename
      rw [he]
      exact ⟨⟨e, rfl⟩, rfl⟩
    | none =>
      rw [hfault] at hrename
      have hdisk : x.1.disk.rename _ _ = .ok _ := hrename
      rw [hdisk]
      refine ⟨rfl, ?_⟩
      by_cases hsame : source = target
      · rw [if_pos hsame]
        exact ⟨hsame ▸ hcontent, fun _ _ _ => rfl⟩
      · rw [if_neg hsame]
        refine ⟨(fileIn?_put ..).trans (if_pos rfl), fun other hs ht => ?_⟩
        exact (fileIn?_put ..).trans ((if_neg ht).trans ((fileIn?_erase ..).trans (if_neg hs)))

def kept (w : Workplace) : KeptFiles w.host.files where
  content := w.content
  isPlain x name bytes h := (x.2.isFolder.named name bytes h).1
  read_some x name bytes h := by
    rw [files_read (x.2.isFolder.named name bytes h).1, h]
  read_none x name hname h := by
    rw [files_read hname, h]
    exact ⟨_, rfl⟩
  content_read x name hname := @content_files w (.read name) hname x
  content_isFile x name hname := @content_files w (.isFile name) hname x
  content_delete x name hname other := by
    rw [content_delete hname]
    by_cases hother : other = name
    · exact .inr (if_pos hother)
    · exact .inl (if_neg hother)

theorem nameFault?_of_mem_namesOf (w : Workplace) {f : Fingerprint} (h : name ∈ namesOf f) :
    nameFault? w.folder name = none := by
  obtain ⟨hascii, hlength⟩ := isAscii_of_mem_namesOf h
  exact nameFault?_eq_none w.hasNul_eq w.hasRoom (isPlain_of_mem_namesOf h) hascii
    (hlength.trans (by decide))

theorem nameFault?_temporaryName (w : Workplace) {f : Fingerprint} (h : name ∈ namesOf f)
    {t : Ticket} (ht : t.IsSized) : nameFault? w.folder (temporaryName name t) = none := by
  obtain ⟨hascii, hlength⟩ := isAscii_temporaryName h ht
  exact nameFault?_eq_none w.hasNul_eq w.hasRoom (isPlain_temporaryName h t) hascii hlength

theorem isObedient_kept (w : Workplace) : w.kept.IsObedient where
  content_ticket x := @content_files w .ticket trivial x
  written x name bytes hname hok := by
    have hwrite := files_write hname bytes x
    split at hwrite
    · cases hwrite.1.symm.trans hok
    · exact (hwrite.2 name).trans (if_pos rfl)
  write_of_ne x name bytes other hname hne := by
    have hwrite := files_write hname bytes x
    split at hwrite
    · exact congrFun hwrite.2 other
    · exact (hwrite.2 other).trans (if_neg hne)
  renamed x source target hs ht hok := by
    have hrename := files_rename hs ht x
    split at hrename
    next content hcontent hfault => exact hrename.2.1.trans hcontent.symm
    next =>
      obtain ⟨e, he⟩ := hrename.1
      cases he.symm.trans hok
  notRenamed x source target e hs ht he := by
    have hrename := files_rename hs ht x
    split at hrename
    · cases hrename.1.symm.trans he
    · exact congrFun hrename.2 target
  rename_of_ne x source target other hs ht hne hne' := by
    have hrename := files_rename hs ht x
    split at hrename
    · exact hrename.2.2 other hne hne'
    · exact congrFun hrename.2 other
  delete_of_ne x name other hname hne := (content_delete hname x other).trans (if_neg hne)
  isFile_eq x name hname := x.2.isFolder.isFile_join hname
  read_missing x f name hmem hnone := by
    rw [files_read (isPlain_of_mem_namesOf hmem), show w.content x name = none from hnone,
      w.nameFault?_of_mem_namesOf hmem]
    rfl
  deleted x name hname := (content_delete hname x name).trans (if_pos rfl)

/-- The directory does what it is asked to. -/
theorem isReliable_kept (w : Workplace) : w.kept.IsReliable where
  toIsObedient := w.isObedient_kept
  write_ok x y f name bytes hmem := by
    have hwrite := files_write (isPlain_temporaryName hmem y.1.ticket) bytes x
    rw [w.nameFault?_temporaryName hmem y.2.isSized] at hwrite
    exact hwrite.1
  rename_ok x f name t hmem hsome := by
    have hrename := files_rename (isPlain_temporaryName hmem t) (isPlain_of_mem_namesOf hmem) x
    obtain ⟨bytes, hbytes⟩ := Option.isSome_iff_exists.mp hsome
    rw [show w.content x (temporaryName name t) = some bytes from hbytes,
      w.nameFault?_of_mem_namesOf hmem] at hrename
    exact hrename.1
  list_ok x := x.2.isFolder.exists_list w.hasNul_eq (by have := w.hasRoom; omega)
  content_list x := @content_files w .list trivial x
  size_ok x name bytes h :=
    x.2.isFolder.size_join (x.2.isFolder.named name bytes h).1 bytes h
  content_size x name hname := @content_files w (.size name) hname x

/-! ## The device and the roots -/

theorem drives (w : Workplace) : SimulatedDriver.Drives
    (fun x : w.State => Machine.driver w.deviceId x.1) w.device w.host.device :=
  have h := Machine.simulates_facility fun _ => w.toolchain
  { ready := fun x => x.2.isReady
    reply := fun call x => h.reply w.deviceId call x.1
    own := fun call x => h.own w.deviceId call x.1 }

variable {path : SearchPath} {dirs : List String}

/-- The providers of a search path and some include roots are apart from the store. -/
structure Spares (w : Workplace) (path : SearchPath) (dirs : List String) : Prop where
  providers : ∀ r ∈ path.registrations, r.provider.IsApart w.disk w.folder
  roots : ∀ root ∈ dirs, IncludeRoot.IsBeside root w.disk w.folder

theorem Spares.servesAlike (h : w.Spares path dirs) (x : w.State) :
    path.ServesAlike dirs w.disk x.1.disk :=
  SearchPath.servesAlike_of_isApart w.not_link h.providers h.roots x.2.isAround

/-- A place of work is calm. -/
def calm (w : Workplace) (h : w.Spares path dirs) : Calm w.host path dirs where
  disk := w.disk
  dialogue := w.toolchain.compile
  driver := w.drives.working
  files := w.kept
  serves := h.servesAlike
  compile_eq _ _ := rfl
  content_compile _ _ := rfl
  content_device call x := by
    show (Machine.device w.deviceId call x.1).2.disk.fileIn? w.folder = _
    rw [disk_device]
    rfl

end Workplace
end KernelDepot
