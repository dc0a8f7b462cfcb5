/-
A store is a map in which nothing is written twice.

A store over an empty directory answers every sequence of queries as a catalogue without
entries does: this is `perform_eq_answers`.  An artifact is written if there is none for its
fingerprint and then stays until it is removed, and nothing that is done for one fingerprint
shows in an answer about another.
-/
import KernelDepot.Proofs.Artifact.Represented

namespace KernelDepot

open ArtifactStore

/-! ## Any number of queries -/

/-- A query brings only artifacts that are regular. -/
def StoreQuery.IsRegular (formats : Fingerprint → ImageFormat) (q : StoreQuery) : Prop :=
  ∀ f a, q = .request (.store f a) → a.IsRegular formats f

namespace Catalogue

variable {c d : Catalogue} {formats : Fingerprint → ImageFormat} {f : Fingerprint} {q : StoreQuery}

theorem IsRegular.answer (hc : c.IsRegular formats) (hq : q.IsRegular formats) :
    (c.answer q).2.IsRegular formats := by
  cases q with
  | request r =>
    cases r with
    | store f a =>
      cases hf : c.lookup f with
      | some present =>
        rw [answer_store_of_some a hf]
        exact hc
      | none =>
        rw [answer_store_of_none a hf]
        intro g b hb
        by_cases hg : g = f
        · subst hg
          obtain rfl := Option.some.inj ((AList.lookup_insert c).symm.trans hb)
          exact hq g a rfl
        · exact hc g b ((AList.lookup_insert_ne hg).symm.trans hb)
    | load f => exact hc
    | remove f =>
      intro g b hb
      by_cases hg : g = f
      · subst hg
        exact nomatch (AList.lookup_erase g c).symm.trans hb
      · exact hc g b ((AList.lookup_erase_ne hg).symm.trans hb)
    | clear => exact fun g b hb => nomatch (AList.lookup_empty g).symm.trans hb
  | contains f => exact hc
  | stats => exact hc

/-- An answer about a fingerprint depends on the entry of that fingerprint. -/
theorem answer_congr (hq : q.concerns f = true) (h : c.lookup f = d.lookup f) :
    (c.answer q).1 = (d.answer q).1 ∧ (c.answer q).2.lookup f = (d.answer q).2.lookup f := by
  cases q with
  | request r =>
    cases r with
    | store g a =>
      obtain rfl : g = f := of_decide_eq_true hq
      cases hd : d.lookup g with
      | none =>
        rw [answer_store_of_none a (h.trans hd), answer_store_of_none a hd]
        exact ⟨rfl, (AList.lookup_insert c).trans (AList.lookup_insert d).symm⟩
      | some b =>
        rw [answer_store_of_some a (h.trans hd), answer_store_of_some a hd]
        exact ⟨rfl, h⟩
    | load g =>
      obtain rfl : g = f := of_decide_eq_true hq
      exact ⟨congrArg (fun found => StoreAnswer.reply (.loaded (.ok found))) h, h⟩
    | remove g =>
      obtain rfl : g = f := of_decide_eq_true hq
      exact ⟨rfl, (AList.lookup_erase g c).trans (AList.lookup_erase g d).symm⟩
    | clear => exact ⟨rfl, rfl⟩
  | contains g =>
    obtain rfl : g = f := of_decide_eq_true hq
    exact ⟨congrArg (fun found : Option Artifact => StoreAnswer.contained found.isSome) h, h⟩
  | stats => exact absurd hq Bool.false_ne_true

/-- Any other query leaves that entry alone. -/
theorem lookup_answer (hq : q.concerns f = false) : (c.answer q).2.lookup f = c.lookup f := by
  cases q with
  | request r =>
    cases r with
    | store g a =>
      have hne : f ≠ g := Ne.symm (of_decide_eq_false hq)
      cases hc : c.lookup g with
      | none =>
        rw [answer_store_of_none a hc]
        exact AList.lookup_insert_ne hne
      | some b => rw [answer_store_of_some a hc]
    | load g => rfl
    | remove g => exact AList.lookup_erase_ne (Ne.symm (of_decide_eq_false hq))
    | clear => exact absurd hq.symm Bool.false_ne_true
  | contains g => rfl
  | stats => rfl

/-- The answers about a fingerprint are those that there would be without all other queries. -/
theorem answersAbout_answers (h : c.lookup f = d.lookup f) (qs : List StoreQuery) :
    StoreQuery.answersAbout f qs (c.answers qs).1 =
      (d.answers (qs.filter (·.concerns f))).1 := by
  induction qs generalizing c d with
  | nil => rfl
  | cons q qs ih =>
    have hcons : StoreQuery.answersAbout f (q :: qs) (c.answers (q :: qs)).1 =
        if q.concerns f then (c.answer q).1 ::
            StoreQuery.answersAbout f qs ((c.answer q).2.answers qs).1
          else StoreQuery.answersAbout f qs ((c.answer q).2.answers qs).1 := rfl
    rw [hcons]
    cases hq : q.concerns f with
    | true =>
      obtain ⟨hanswer, hlookup⟩ := answer_congr hq h
      rw [List.filter_cons_of_pos hq, if_pos rfl, ih hlookup, hanswer]
      rfl
    | false =>
      rw [List.filter_cons_of_neg (by rw [hq]; exact Bool.false_ne_true),
        if_neg Bool.false_ne_true]
      exact ih ((lookup_answer hq).trans h)

end Catalogue

namespace ArtifactStore

variable {σ : Type} {files : FileHandler σ} {k : KeptFiles files} {s : ArtifactStore} {x : σ}
  {c : Catalogue} {formats : Fingerprint → ImageFormat}

theorem obeys (h : k.IsReliable) (he : s.enabled = true) (hr : Represents (k.content x) c)
    (hc : c.IsRegular formats) {q : StoreQuery} (hq : q.IsRegular formats) : s.Obeys k x c q := by
  cases q with
  | request r =>
    cases r with
    | store f a => exact hr.obeys_store h he hc (hq f a rfl)
    | load f => exact hr.obeys_load h he hc
    | remove f => exact hr.obeys_remove h he
    | clear => exact hr.obeys_clear h he
  | contains f => exact hr.obeys_contains h he
  | stats => exact hr.obeys_stats h he

theorem perform_of_represents (h : k.IsReliable) (he : s.enabled = true)
    (hr : Represents (k.content x) c) (hc : c.IsRegular formats) {qs : List StoreQuery}
    (hqs : ∀ q ∈ qs, q.IsRegular formats) :
    ((s.perform qs).run files x).1 = (c.answers qs).1 ∧
      Represents (k.content ((s.perform qs).run files x).2) (c.answers qs).2 := by
  induction qs generalizing x c with
  | nil => exact ⟨rfl, hr⟩
  | cons q qs ih =>
    obtain ⟨hq, hrest⟩ := List.forall_mem_cons.mp hqs
    obtain ⟨hanswer, hfiles⟩ := obeys h he hr hc hq
    obtain ⟨hanswers, hafter⟩ := ih hfiles (hc.answer hq) hrest
    unfold perform Catalogue.answers
    simp only [Program.run_bind, Program.run_pure]
    rw [hanswer, hanswers]
    exact ⟨rfl, hafter⟩

/-- A store over an empty directory answers all queries as a catalogue without entries does,
and what it answers about one fingerprint is what it would answer if nothing were ever asked
about others. -/
theorem perform_eq_answers (h : k.IsReliable) (he : s.enabled = true)
    (hempty : ∀ name, k.content x name = none) (formats : Fingerprint → ImageFormat)
    (qs : List StoreQuery) (hqs : ∀ q ∈ qs, q.IsRegular formats) :
    ((s.perform qs).run files x).1 = (Catalogue.answers ∅ qs).1 ∧
      Represents (k.content ((s.perform qs).run files x).2) (Catalogue.answers ∅ qs).2 ∧
      ∀ f, StoreQuery.answersAbout f qs ((s.perform qs).run files x).1 =
        ((s.perform (qs.filter (·.concerns f))).run files x).1 := by
  have hregular : Catalogue.IsRegular formats ∅ := fun f a hf =>
    nomatch (AList.lookup_empty f).symm.trans hf
  have hrepresents := Represents.empty hempty
  obtain ⟨hanswers, hafter⟩ := perform_of_represents h he hrepresents hregular hqs
  refine ⟨hanswers, hafter, fun f => ?_⟩
  have hfew : ∀ q ∈ qs.filter (·.concerns f), q.IsRegular formats := fun q hq =>
    hqs q (List.mem_of_mem_filter hq)
  rw [hanswers, (perform_of_represents h he hrepresents hregular hfew).1,
    Catalogue.answersAbout_answers rfl]

end ArtifactStore

/-! ## A directory in memory -/

namespace Drawer

abbrev Files := AList fun _ : String => Bytes

def read (d : Files) (name : String) : Except FileFault Bytes :=
  match d.lookup name with
  | some bytes => .ok bytes
  | none => .error .notFound

def delete (d : Files) (name : String) : Except FileFault Unit × Files :=
  match d.lookup name with
  | some _ => (.ok (), d.erase name)
  | none => (.error .notFound, d)

def rename (d : Files) (source target : String) : Except FileFault Unit × Files :=
  match d.lookup source with
  | some bytes => (.ok (), (d.erase source).insert target bytes)
  | none => (.error .notFound, d)

def handler : FileHandler Files := fun op d =>
  match op with
  | .isFile name => ((d.lookup name).isSome, d)
  | .read name => (read d name, d)
  | .write name bytes => (.ok (), d.insert name bytes)
  | .rename source target => rename d source target
  | .delete name => delete d name
  | .list => (.ok (d.keys.filter fun name => decide (Path.IsPlain name)), d)
  | .size name => ((read d name).map List.length, d)
  | .ticket => (⟨0, 0⟩, d)

variable (d : Files)

theorem read_of_some {name : String} {bytes : Bytes} (h : d.lookup name = some bytes) :
    read d name = .ok bytes := by
  simp only [read, h]

theorem read_of_none {name : String} (h : d.lookup name = none) :
    read d name = .error .notFound := by
  simp only [read, h]

theorem lookup_delete (name other : String) :
    (delete d name).2.lookup other = if other = name then none else d.lookup other := by
  unfold delete
  by_cases ho : other = name
  · subst ho
    rw [if_pos rfl]
    cases hd : d.lookup other with
    | none => exact hd
    | some bytes => exact AList.lookup_erase other d
  · rw [if_neg ho]
    cases d.lookup name with
    | none => rfl
    | some bytes => exact AList.lookup_erase_ne ho

theorem rename_of_some {source : String} {bytes : Bytes} (target : String)
    (h : d.lookup source = some bytes) :
    rename d source target = (.ok (), (d.erase source).insert target bytes) := by
  simp only [rename, h]

theorem rename_of_none {source : String} (target : String) (h : d.lookup source = none) :
    rename d source target = (.error .notFound, d) := by
  simp only [rename, h]

theorem lookup_rename_of_ok {source target : String} (h : (rename d source target).1 = .ok ()) :
    (rename d source target).2.lookup target = d.lookup source := by
  cases hd : d.lookup source with
  | none =>
    rw [rename_of_none d target hd] at h
    exact nomatch h
  | some bytes =>
    rw [rename_of_some d target hd]
    exact AList.lookup_insert _

theorem lookup_rename_of_error {source target : String} {e : FileFault}
    (h : (rename d source target).1 = .error e) :
    (rename d source target).2.lookup target = d.lookup target := by
  cases hd : d.lookup source with
  | none => rw [rename_of_none d target hd]
  | some bytes =>
    rw [rename_of_some d target hd] at h
    exact nomatch h

theorem lookup_rename_of_ne {source target other : String} (hs : other ≠ source)
    (ht : other ≠ target) : (rename d source target).2.lookup other = d.lookup other := by
  cases hd : d.lookup source with
  | none => rw [rename_of_none d target hd]
  | some bytes =>
    rw [rename_of_some d target hd]
    exact (AList.lookup_insert_ne ht).trans (AList.lookup_erase_ne hs)

def kept : KeptFiles handler where
  content d := plainly d.lookup
  isPlain _ _ _ h := (eq_some_of_plainly h).1
  read_some d _ _ h := read_of_some d (eq_some_of_plainly h).2
  read_none d _ hname h := ⟨.notFound, read_of_none d ((plainly_eq hname).symm.trans h)⟩
  content_read _ _ _ := rfl
  content_isFile _ _ _ := rfl
  content_delete d name hname other := by
    have hdelete := lookup_delete d name other
    by_cases ho : other = name
    · subst ho
      exact .inr ((plainly_eq hname).trans (hdelete.trans (if_pos rfl)))
    · exact .inl (plainly_congr (hdelete.trans (if_neg ho)))

theorem isReliable_kept : kept.IsReliable where
  content_ticket _ := rfl
  written d _ _ hname _ := (plainly_eq hname).trans (AList.lookup_insert d)
  write_of_ne _ _ _ _ _ h := plainly_congr (AList.lookup_insert_ne h)
  renamed d source _ hs ht h := by
    have hsource : kept.content d source = d.lookup source := plainly_eq hs
    rw [hsource]
    exact (plainly_eq ht).trans (lookup_rename_of_ok d h)
  notRenamed d _ _ _ _ _ h := plainly_congr (lookup_rename_of_error d h)
  rename_of_ne d _ _ _ _ _ hs ht := plainly_congr (lookup_rename_of_ne d hs ht)
  delete_of_ne d name other _ h := plainly_congr ((lookup_delete d name other).trans (if_neg h))
  isFile_eq d name hname := by
    have hcontent : kept.content d name = d.lookup name := plainly_eq hname
    rw [hcontent]
    rfl
  read_missing d _ _ hname h :=
    read_of_none d ((plainly_eq (isPlain_of_mem_namesOf hname)).symm.trans h)
  deleted d name hname := (plainly_eq hname).trans ((lookup_delete d name name).trans (if_pos rfl))
  write_ok _ _ _ _ _ _ := rfl
  rename_ok d f name t _ h := by
    obtain ⟨bytes, hbytes⟩ := Option.isSome_iff_exists.mp h
    exact congrArg Prod.fst (rename_of_some d name (eq_some_of_plainly hbytes).2)
  list_ok d := by
    refine ⟨_, rfl, d.keys_nodup.filter _, fun name => ?_⟩
    show name ∈ d.keys.filter (fun name => decide (Path.IsPlain name)) ↔
      (plainly d.lookup name).isSome
    rw [List.mem_filter, decide_eq_true_iff, ← AList.mem_keys, ← AList.lookup_isSome]
    constructor
    · rintro ⟨hsome, hplain⟩
      rwa [plainly_eq hplain]
    · intro hsome
      obtain ⟨bytes, hbytes⟩ := Option.isSome_iff_exists.mp hsome
      obtain ⟨hplain, hlookup⟩ := eq_some_of_plainly hbytes
      exact ⟨Option.isSome_iff_exists.mpr ⟨bytes, hlookup⟩, hplain⟩
  content_list _ := rfl
  size_ok d _ _ h := congrArg (Except.map List.length) (read_of_some d (eq_some_of_plainly h).2)
  content_size _ _ _ := rfl

def store : ArtifactStore := ⟨"cache", true⟩

def first : Fingerprint := ⟨List.replicate 32 1, rfl⟩

def second : Fingerprint := ⟨List.replicate 32 2, rfl⟩

def artifact (text : String) : Artifact :=
  ⟨Text.bytes text, .ptx, "sm_80", .ofList [("k", "k")], .empty⟩

def queries : List StoreQuery :=
  [.request (.store first (artifact ".entry k")), .request (.store second (artifact ".entry kk")),
    .request (.store first (artifact "")), .stats, .request (.remove second), .contains second,
    .request (.load first)]

/-- The second artifact for a fingerprint is not written, and the first one is found. -/
theorem perform_queries : kept.IsReliable ∧ store.enabled = true ∧
    (∀ q ∈ queries, q.IsRegular fun _ => .ptx) ∧
    ((store.perform queries).run handler ∅).1 = [.reply (.stored (.ok true)),
      .reply (.stored (.ok true)), .reply (.stored (.ok false)), .measured ⟨2, 17⟩,
      .reply .removed, .contained false, .reply (.loaded (.ok (some (artifact ".entry k"))))] := by
  have hregular : ∀ q ∈ queries, q.IsRegular fun _ => .ptx := by
    intro q hq f a heq
    subst heq
    simp only [queries, List.mem_cons, List.not_mem_nil, StoreQuery.request.injEq,
      StoreRequest.store.injEq, reduceCtorEq, or_false] at hq
    rcases hq with ⟨-, rfl⟩ | ⟨-, rfl⟩ | ⟨-, rfl⟩
    all_goals exact ⟨rfl, by decide⟩
  refine ⟨isReliable_kept, rfl, hregular, ?_⟩
  have hempty (name : String) : kept.content ∅ name = none :=
    plainly_of_none (AList.lookup_empty name)
  exact (perform_eq_answers isReliable_kept rfl hempty (fun _ => .ptx) queries hregular).1.trans
    rfl

end Drawer
end KernelDepot
