/-
What a preimage says about the inputs.

`records` is the list of records that a preimage encodes.  Reading it from the front
gives back every input of the compilation up to what the fingerprint is meant to leave
out: the dependencies are known as a sorted list of names, providers and contents, and
the names left to the toolchain as sets.  `agree_of_ofInputs_eq` is the statement that
other files use.
-/
import KernelDepot.Proofs.Fingerprint.Records
import KernelDepot.Proofs.NameTable

namespace KernelDepot

/-- What a fingerprint covers of a dependency. -/
def Dependency.key (d : Dependency) : String × String × Bytes := (d.name, d.provider, d.content)

namespace Preimage

def listRecords (tag : String) (items : List String) : List Record :=
  (tag, littleEndian 4 items.length) :: items.map fun item => (tag, Text.bytes item)

def dependencyRecords (k : String × String × Bytes) : List Record :=
  [("dep-name", Text.bytes k.1), ("dep-provider", Text.bytes k.2.1), ("dep-content", k.2.2)]

/-- What is covered of the dependencies, in the order in which it is written. -/
def sortedKeys (source : ResolvedSource) : List (String × String × Bytes) :=
  (source.dependencies.mergeSort dependencyLe).map Dependency.key

def records (request : Request) (flags : List String) (source : ResolvedSource)
    (toolchain : ToolchainIdentity) : List Record :=
  ("version", littleEndian 4 formatVersion) ::
  ("toolchain", Text.bytes toolchain.name) ::
  ("toolchain-version", Text.bytes toolchain.version) ::
  (listRecords "entries" request.entries ++
  (listRecords "constants" request.constants ++
  (("origin", Text.bytes source.origin) ::
  ("source", source.text) ::
  (listRecords "flags" flags ++
  (("arch", Text.bytes request.arch) ::
  ("dependencies", littleEndian 4 source.dependencies.length) ::
  ((sortedKeys source).flatMap dependencyRecords ++
  (listRecords "builtins" (nameSet source.builtins) ++
  listRecords "deferred" (nameSet source.deferred))))))))

def values (request : Request) (flags : List String) (source : ResolvedSource)
    (toolchain : ToolchainIdentity) : List Bytes :=
  Text.bytes toolchain.name :: Text.bytes toolchain.version :: Text.bytes source.origin ::
  source.text :: Text.bytes request.arch ::
  ((request.entries ++ request.constants ++ flags ++ source.builtins ++ source.deferred).map
    Text.bytes ++
  source.dependencies.flatMap fun d => [Text.bytes d.name, Text.bytes d.provider, d.content])

/-- No text or content has so many bytes that an address could not tell them apart. -/
def Addressable (request : Request) (flags : List String) (source : ResolvedSource)
    (toolchain : ToolchainIdentity) : Prop :=
  ∀ v ∈ values request flags source toolchain, v.length < 2 ^ 64

instance (request : Request) (flags : List String) (source : ResolvedSource)
    (toolchain : ToolchainIdentity) : Decidable (Addressable request flags source toolchain) :=
  inferInstanceAs (Decidable (∀ v ∈ values request flags source toolchain, v.length < 2 ^ 64))

/-- Two compilations whose fingerprints are made from the same bytes. -/
structure Agree (request₁ request₂ : Request) (flags₁ flags₂ : List String)
    (source₁ source₂ : ResolvedSource) (toolchain₁ toolchain₂ : ToolchainIdentity) : Prop where
  toolchain : toolchain₁ = toolchain₂
  entries : request₁.entries = request₂.entries
  constants : request₁.constants = request₂.constants
  origin : source₁.origin = source₂.origin
  text : source₁.text = source₂.text
  flags : flags₁ = flags₂
  arch : request₁.arch = request₂.arch
  dependencies : sortedKeys source₁ = sortedKeys source₂
  builtins : nameSet source₁.builtins = nameSet source₂.builtins
  deferred : nameSet source₁.deferred = nameSet source₂.deferred

/-! ## The records are what is encoded -/

theorem encode_listRecords (tag : String) (items : List String) :
    encode (listRecords tag items) = listFields tag items := by
  unfold listRecords listFields countField
  rw [encode_cons, encode, List.flatMap_map]
  rfl

theorem encode_dependencyRecords (d : Dependency) :
    encode (dependencyRecords d.key) = dependencyFields d := by
  simp [dependencyRecords, dependencyFields, Dependency.key, textField]

theorem encode_flatMap_dependencyRecords (ds : List Dependency) :
    encode ((ds.map Dependency.key).flatMap dependencyRecords) = ds.flatMap dependencyFields := by
  induction ds with
  | nil => rfl
  | cons d ds ih =>
    rw [List.map_cons, List.flatMap_cons, List.flatMap_cons, encode_append, ih,
      encode_dependencyRecords]

theorem ofInputs_eq_encode (request : Request) (flags : List String) (source : ResolvedSource)
    (toolchain : ToolchainIdentity) :
    ofInputs request flags source toolchain = encode (records request flags source toolchain) := by
  simp only [ofInputs, records, encode_cons, encode_append, encode_listRecords,
    encode_flatMap_dependencyRecords, sortedKeys, countField, textField, List.append_assoc]

/-! ## Lists of records -/

theorem tag_of_mem_listRecords {tag : String} {items : List String} {r : Record}
    (h : r ∈ listRecords tag items) : r.1 = tag := by
  rcases List.mem_cons.mp h with rfl | h
  · rfl
  · obtain ⟨item, -, rfl⟩ := List.mem_map.mp h
    rfl

theorem tag_of_mem_dependencyRecords {keys : List (String × String × Bytes)} {r : Record}
    (h : r ∈ keys.flatMap dependencyRecords) :
    r.1 = "dep-name" ∨ r.1 = "dep-provider" ∨ r.1 = "dep-content" := by
  obtain ⟨k, -, hr⟩ := List.mem_flatMap.mp h
  simp only [dependencyRecords, List.mem_cons, List.not_mem_nil, or_false] at hr
  rcases hr with rfl | rfl | rfl <;> simp

theorem listRecords_injective {tag : String} {a b : List String}
    (h : listRecords tag a = listRecords tag b) : a = b := by
  obtain ⟨-, h⟩ := List.cons.inj h
  exact (List.map_inj_right fun x y hxy => Text.bytes_injective (Prod.mk.inj hxy).2).mp h

theorem dependencyRecords_injective {a b : List (String × String × Bytes)}
    (h : a.flatMap dependencyRecords = b.flatMap dependencyRecords) : a = b := by
  induction a generalizing b with
  | nil =>
    cases b with
    | nil => rfl
    | cons k b => simp [dependencyRecords] at h
  | cons k a ih =>
    cases b with
    | nil => simp [dependencyRecords] at h
    | cons l b =>
      simp only [List.flatMap_cons, dependencyRecords, List.cons_append, List.nil_append,
        List.cons.injEq, Prod.mk.injEq, true_and] at h
      obtain ⟨hname, hprovider, hcontent, hrest⟩ := h
      have hkl : k = l := Prod.ext (Text.bytes_injective hname)
        (Prod.ext (Text.bytes_injective hprovider) hcontent)
      rw [hkl, ih hrest]

/-- The items of a list are read up to the first record of another tag. -/
theorem listRecords_append_inj {tag : String} {a b : List String} {r s : List Record}
    (hr : ∀ x ∈ r.head?, x.1 ≠ tag) (hs : ∀ x ∈ s.head?, x.1 ≠ tag)
    (h : listRecords tag a ++ r = listRecords tag b ++ s) : a = b ∧ r = s := by
  obtain ⟨hab, hrs⟩ := append_inj_of_head (p := fun x => x.1 = tag)
    (fun _ => tag_of_mem_listRecords) (fun _ => tag_of_mem_listRecords) hr hs h
  exact ⟨listRecords_injective hab, hrs⟩

/-- The dependencies are read up to the first record of another kind. -/
theorem dependencyRecords_append_inj {a b : List (String × String × Bytes)} {r s : List Record}
    (hr : ∀ x ∈ r.head?, ¬ (x.1 = "dep-name" ∨ x.1 = "dep-provider" ∨ x.1 = "dep-content"))
    (hs : ∀ x ∈ s.head?, ¬ (x.1 = "dep-name" ∨ x.1 = "dep-provider" ∨ x.1 = "dep-content"))
    (h : a.flatMap dependencyRecords ++ r = b.flatMap dependencyRecords ++ s) :
    a = b ∧ r = s := by
  obtain ⟨hab, hrs⟩ := append_inj_of_head (fun _ => tag_of_mem_dependencyRecords)
    (fun _ => tag_of_mem_dependencyRecords) hr hs h
  exact ⟨dependencyRecords_injective hab, hrs⟩

/-! ## Reading a preimage -/

section
variable {request₁ request₂ : Request} {flags₁ flags₂ : List String}
variable {source₁ source₂ : ResolvedSource} {toolchain₁ toolchain₂ : ToolchainIdentity}

theorem agree_of_records_eq
    (h : records request₁ flags₁ source₁ toolchain₁ = records request₂ flags₂ source₂ toolchain₂) :
    Agree request₁ request₂ flags₁ flags₂ source₁ source₂ toolchain₁ toolchain₂ := by
  unfold records at h
  simp only [List.cons.injEq, Prod.mk.injEq, true_and] at h
  obtain ⟨hname, hversion, h⟩ := h
  obtain ⟨hentries, h⟩ := listRecords_append_inj (by simp [listRecords]) (by simp [listRecords]) h
  obtain ⟨hconstants, h⟩ := listRecords_append_inj (by simp) (by simp) h
  simp only [List.cons.injEq, Prod.mk.injEq, true_and] at h
  obtain ⟨horigin, htext, h⟩ := h
  obtain ⟨hflags, h⟩ := listRecords_append_inj (by simp) (by simp) h
  simp only [List.cons.injEq, Prod.mk.injEq, true_and] at h
  obtain ⟨harch, -, h⟩ := h
  obtain ⟨hkeys, h⟩ :=
    dependencyRecords_append_inj (by simp [listRecords]) (by simp [listRecords]) h
  obtain ⟨hbuiltins, h⟩ :=
    listRecords_append_inj (by simp [listRecords]) (by simp [listRecords]) h
  exact {
    toolchain := by
      cases toolchain₁
      cases toolchain₂
      rw [ToolchainIdentity.mk.injEq]
      exact ⟨Text.bytes_injective hname, Text.bytes_injective hversion⟩
    entries := hentries
    constants := hconstants
    origin := Text.bytes_injective horigin
    text := htext
    flags := hflags
    arch := Text.bytes_injective harch
    dependencies := hkeys
    builtins := hbuiltins
    deferred := listRecords_injective h }

theorem mem_nameSet {names : List String} {n : String} : n ∈ nameSet names ↔ n ∈ names := by
  unfold nameSet
  rw [NameTable.mem_names_ofList, List.map_map]
  exact (List.map_id names).symm ▸ Iff.rfl

theorem mem_sortedKeys {s : ResolvedSource} {k : String × String × Bytes} :
    k ∈ sortedKeys s ↔ ∃ d ∈ s.dependencies, d.key = k := by
  unfold sortedKeys
  rw [List.mem_map]
  simp only [(List.mergeSort_perm s.dependencies dependencyLe).mem_iff]

theorem fits_mk {tag : String} {value : Bytes} (htag : (Text.bytes tag).length < 2 ^ 64)
    (hvalue : value.length < 2 ^ 64) : Record.Fits (tag, value) := ⟨htag, hvalue⟩

theorem fits_listRecords {tag : String} {items : List String}
    (htag : (Text.bytes tag).length < 2 ^ 64)
    (hitems : ∀ item ∈ items, (Text.bytes item).length < 2 ^ 64) :
    ∀ r ∈ listRecords tag items, Record.Fits r := by
  intro r hr
  rcases List.mem_cons.mp hr with rfl | hr
  · exact ⟨htag, by rw [length_littleEndian]; decide⟩
  · obtain ⟨item, hitem, rfl⟩ := List.mem_map.mp hr
    exact ⟨htag, hitems item hitem⟩

theorem fits_dependencyRecords {s : ResolvedSource}
    (h : ∀ d ∈ s.dependencies, (Text.bytes d.name).length < 2 ^ 64 ∧
      (Text.bytes d.provider).length < 2 ^ 64 ∧ d.content.length < 2 ^ 64) :
    ∀ r ∈ (sortedKeys s).flatMap dependencyRecords, Record.Fits r := by
  intro r hr
  obtain ⟨k, hk, hr⟩ := List.mem_flatMap.mp hr
  obtain ⟨d, hd, rfl⟩ := mem_sortedKeys.mp hk
  obtain ⟨hname, hprovider, hcontent⟩ := h d hd
  simp only [dependencyRecords, List.mem_cons, List.not_mem_nil, or_false] at hr
  rcases hr with rfl | rfl | rfl
  · exact fits_mk (by decide) hname
  · exact fits_mk (by decide) hprovider
  · exact fits_mk (by decide) hcontent

/-- The tags are short, so addressable inputs make records that fit. -/
theorem fits_of_addressable {request : Request} {flags : List String} {source : ResolvedSource}
    {toolchain : ToolchainIdentity} (h : Addressable request flags source toolchain) :
    ∀ r ∈ records request flags source toolchain, Record.Fits r := by
  have hcount (n : Nat) : (littleEndian 4 n).length < 2 ^ 64 := by rw [length_littleEndian]; decide
  simp only [Addressable, values, List.forall_mem_cons, List.forall_mem_append, List.forall_mem_map,
    List.mem_flatMap] at h
  obtain ⟨hname, hversion, horigin, htext, harch, ⟨⟨⟨⟨hentries, hconstants⟩, hflags⟩, hbuiltins⟩,
    hdeferred⟩, hdeps⟩ := h
  simp only [records, List.forall_mem_cons, List.forall_mem_append]
  refine ⟨fits_mk (by decide) (hcount _), fits_mk (by decide) hname, fits_mk (by decide) hversion,
    fits_listRecords (by decide) hentries, fits_listRecords (by decide) hconstants,
    fits_mk (by decide) horigin, fits_mk (by decide) htext, fits_listRecords (by decide) hflags,
    fits_mk (by decide) harch, fits_mk (by decide) (hcount _),
    fits_dependencyRecords fun d hd => ?_,
    fits_listRecords (by decide) fun n hn => hbuiltins n (mem_nameSet.mp hn),
    fits_listRecords (by decide) fun n hn => hdeferred n (mem_nameSet.mp hn)⟩
  exact ⟨hdeps _ ⟨d, hd, by simp⟩, hdeps _ ⟨d, hd, by simp⟩, hdeps _ ⟨d, hd, by simp⟩⟩

/-- Equal preimages come from inputs that agree. -/
theorem agree_of_ofInputs_eq (h₁ : Addressable request₁ flags₁ source₁ toolchain₁)
    (h₂ : Addressable request₂ flags₂ source₂ toolchain₂)
    (h : ofInputs request₁ flags₁ source₁ toolchain₁ =
      ofInputs request₂ flags₂ source₂ toolchain₂) :
    Agree request₁ request₂ flags₁ flags₂ source₁ source₂ toolchain₁ toolchain₂ := by
  rw [ofInputs_eq_encode, ofInputs_eq_encode] at h
  exact agree_of_records_eq
    (encode_injective (fits_of_addressable h₁) (fits_of_addressable h₂) h)

end

end Preimage
end KernelDepot
