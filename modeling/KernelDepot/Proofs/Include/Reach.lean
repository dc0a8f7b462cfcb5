/-
The files that a program reaches.

A program reaches its own text, and from every file that it reaches the files that the
directives of that file find.  `asked` says which providers a directive asks and in which
order, and `Reaches` is the least set of files that is closed under finding.  Nothing here
mentions the scan or its stack; `IsClosure` is what a scan is meant to compute.
-/
import KernelDepot.Include.Closure
import KernelDepot.Proofs.SearchPath

namespace KernelDepot
namespace IncludeSpace

open SearchPath

/-- The providers that are asked for a directive, in order: for a name in quotes the provider
of the file that includes it, and then all of them. -/
def asked (space : IncludeSpace) (page : Page) (d : Directive) : List Registration :=
  (match d.quoted, page.provider with
    | true, some id => (space.path.registrations.find? fun r => r.provider.id = id).toList
    | _, _ => []) ++ space.path.registrations

/-- A directive of the page names the file, and of the providers that are asked for it this one
is the first that has the name. -/
structure Finds (space : IncludeSpace) (page : Page) (name provider : String) (content : Bytes) :
    Prop where
  notBuiltin : name ∉ space.builtins
  answer : ∃ d ∈ Directive.ofBytes page.content, d.name = name ∧
    ∃ r, Answers space.disk name (space.asked page d) r (.ok content) ∧ r.provider.id = provider

/-- The files that are reached from a page by following directives. -/
inductive Reaches (space : IncludeSpace) (root : Page) : Page → Prop where
  | root : Reaches space root root
  | follow {page : Page} {name provider : String} {content : Bytes} :
    Reaches space root page → space.Finds page name provider content →
      Reaches space root ⟨name, some provider, content⟩

/-- A name stands in a directive of a file that is reached. -/
def Mentions (space : IncludeSpace) (root : Page) (name : String) : Prop :=
  ∃ page, space.Reaches root page ∧ ∃ d ∈ Directive.ofBytes page.content, d.name = name

/-- A directive of a file that is reached asks a provider that cannot read the file. -/
def Stumbles (space : IncludeSpace) (root : Page) (u : Unreadable) : Prop :=
  ∃ page, space.Reaches root page ∧ ∃ d ∈ Directive.ofBytes page.content,
    d.name ∉ space.builtins ∧ u.name = d.name ∧
    ∃ r, Answers space.disk d.name (space.asked page d) r (.error u.cause) ∧
      r.provider.id = u.provider

/-- The page that a program starts from, and where its text came from. -/
inductive Starts (space : IncludeSpace) : ProgramSource → String → Page → Prop where
  | inline (text : String) :
    Starts space (.inline text) "text" ⟨mainProgramName, none, Text.bytes text⟩
  | named {name : String} {r : Registration} {content : Bytes} :
    Answers space.disk name space.path.registrations r (.ok content) →
      Starts space (.named name) (r.provider.id ++ ":" ++ name) ⟨name, some r.provider.id, content⟩

/-- The sets of files and of names that make up what is reached from a page. -/
structure IsClosure (space : IncludeSpace) (root : Page) (source : ResolvedSource) : Prop where
  /-- The dependencies are the files that some reached file finds. -/
  dependencies : ∀ name provider content,
    (∃ d ∈ source.dependencies, d.name = name ∧ d.provider = provider ∧ d.content = content) ↔
      ∃ page, space.Reaches root page ∧ space.Finds page name provider content
  /-- None is listed twice. -/
  once : (source.dependencies.map fun d => (d.name, d.provider)).Nodup
  /-- Each has the bytes that its provider serves. -/
  served : ∀ d ∈ source.dependencies, ∃ r ∈ space.path.registrations,
    r.provider.id = d.provider ∧ r.provider.lookup space.disk d.name = .ok (some d.content)
  builtins : ∀ name, name ∈ source.builtins ↔ name ∈ space.builtins ∧ space.Mentions root name
  nodup_builtins : source.builtins.Nodup
  deferred : ∀ name, name ∈ source.deferred ↔
    name ∉ space.builtins ∧ space.Mentions root name ∧
      ∀ r ∈ space.path.registrations, r.provider.lookup space.disk name = .ok none
  nodup_deferred : source.deferred.Nodup
  /-- A name belongs to one of the three kinds only. -/
  disjoint : ∀ d ∈ source.dependencies, d.name ∉ source.builtins ∧ d.name ∉ source.deferred
  disjoint_names : ∀ name ∈ source.builtins, name ∉ source.deferred

variable {space : IncludeSpace} {page root : Page} {d : Directive}

/-! ## Looking up a directive -/

/-- A look-up asks the providers of the directive in turn. -/
theorem look_eq (space : IncludeSpace) (page : Page) (d : Directive) :
    space.look page d = resolveAmong space.disk d.name (space.asked page d) := by
  unfold look asked
  cases d.quoted with
  | false => rfl
  | true =>
    cases page.provider with
    | none => rfl
    | some id =>
      simp only [resolveIn, resolve]
      cases hr : space.path.registrations.find? (fun r => decide (r.provider.id = id)) with
      | none => rfl
      | some r =>
        simp only [Option.toList_some, List.singleton_append, resolveAmong]
        cases ask space.disk r.provider d.name with
        | error e => rfl
        | ok found => cases found <;> rfl

theorem mem_asked {r : Registration} : r ∈ space.asked page d ↔ r ∈ space.path.registrations := by
  unfold asked
  rw [List.mem_append]
  constructor
  · rintro (h | h)
    · split at h
      · exact List.mem_of_find?_eq_some (Option.mem_toList.mp h)
      · exact absurd h List.not_mem_nil
    · exact h
  · exact .inr

theorem look_eq_none_iff : space.look page d = .ok none ↔
    ∀ r ∈ space.path.registrations, r.provider.lookup space.disk d.name = .ok none := by
  rw [look_eq, resolveAmong_eq_none_iff]
  constructor
  · intro h r hr
    exact h r (mem_asked.mpr hr)
  · intro h r hr
    exact h r (mem_asked.mp hr)

theorem finds_of_look {hit : Resolution} (hd : d ∈ Directive.ofBytes page.content)
    (hb : d.name ∉ space.builtins) (h : space.look page d = .ok (some hit)) :
    space.Finds page d.name hit.provider hit.content := by
  rw [look_eq, resolveAmong_eq_some_iff] at h
  exact ⟨hb, d, hd, rfl, h⟩

theorem Finds.exists_look {name provider : String} {content : Bytes}
    (h : space.Finds page name provider content) :
    ∃ d ∈ Directive.ofBytes page.content, d.name = name ∧
      space.look page d = .ok (some ⟨provider, content⟩) := by
  obtain ⟨d, hd, rfl, r, ha, rfl⟩ := h.answer
  refine ⟨d, hd, rfl, ?_⟩
  rw [look_eq]
  exact resolveAmong_eq_some_iff.mpr ⟨r, ha, rfl⟩

theorem Finds.exists_lookup {name provider : String} {content : Bytes}
    (h : space.Finds page name provider content) :
    ∃ r ∈ space.path.registrations, r.provider.id = provider ∧
      r.provider.lookup space.disk name = .ok (some content) := by
  obtain ⟨d, -, rfl, r, ha, rfl⟩ := h.answer
  exact ⟨r, mem_asked.mp ha.mem, rfl, ha.lookup_eq⟩

/-- A file is known by its name and its provider. -/
theorem Finds.content_eq (hpath : space.path.Assembled) {page' : Page} {name provider : String}
    {a b : Bytes} (ha : space.Finds page name provider a)
    (hb : space.Finds page' name provider b) : a = b := by
  obtain ⟨r, hr, hrid, hra⟩ := ha.exists_lookup
  obtain ⟨q, hq, hqid, hqb⟩ := hb.exists_lookup
  obtain rfl := hpath.eq_of_id_eq hr hq (hrid.trans hqid.symm)
  exact Option.some.inj (Except.ok.inj (hra.symm.trans hqb))

theorem stumbles_of_look {u : Unreadable} (hp : space.Reaches root page)
    (hd : d ∈ Directive.ofBytes page.content) (hb : d.name ∉ space.builtins)
    (h : space.look page d = .error u) : space.Stumbles root u := by
  rw [look_eq, resolveAmong_eq_error_iff] at h
  obtain ⟨r, cause, ha, rfl⟩ := h
  exact ⟨page, hp, d, hd, hb, rfl, r, ha, rfl⟩

/-- Where a program stumbles some look-up fails. -/
theorem Stumbles.exists_look {u : Unreadable} (h : space.Stumbles root u) :
    ∃ page, space.Reaches root page ∧ ∃ d ∈ Directive.ofBytes page.content,
      d.name ∉ space.builtins ∧ space.look page d = .error u := by
  obtain ⟨page, hp, d, hd, hb, hname, r, ha, hid⟩ := h
  refine ⟨page, hp, d, hd, hb, ?_⟩
  rw [look_eq]
  exact resolveAmong_eq_error_iff.mpr ⟨r, u.cause, ha, by rw [← hname, hid]⟩

/-! ## The texts that can be reached -/

/-- The text of a page and all texts that the providers can serve. -/
def texts (space : IncludeSpace) (root : Page) : List Bytes :=
  root.content :: space.path.registrations.flatMap fun r => r.provider.texts space.disk

theorem Finds.content_mem_texts {name provider : String} {content : Bytes}
    (h : space.Finds page name provider content) : content ∈ space.texts root := by
  obtain ⟨r, hr, -, hlookup⟩ := h.exists_lookup
  exact List.mem_cons_of_mem _
    (List.mem_flatMap.mpr ⟨r, hr, r.provider.mem_texts _ _ _ hlookup⟩)

theorem Reaches.content_mem_texts (h : space.Reaches root page) :
    page.content ∈ space.texts root := by
  cases h with
  | root => exact List.mem_cons_self
  | follow _ hf => exact hf.content_mem_texts

end IncludeSpace
end KernelDepot
