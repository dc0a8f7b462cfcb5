/-
The names and values of tables.
-/
import KernelDepot.NameTable

namespace KernelDepot

theorem lookup_map_snd {α β γ : Type} [BEq α] (l : List (α × β)) (change : β → γ) (a : α) :
    (l.map fun e => (e.1, change e.2)).lookup a = (l.lookup a).map change := by
  induction l with
  | nil => rfl
  | cons e rest ih =>
    rw [List.map_cons, List.lookup_cons, List.lookup_cons, ih]
    split <;> rfl

theorem lookup_filter {α β : Type} [BEq α] [LawfulBEq α] (keep : α → Bool) (l : List (α × β))
    (a : α) : (l.filter fun e => keep e.1).lookup a = if keep a then l.lookup a else none := by
  induction l with
  | nil => simp
  | cons e rest ih =>
    obtain ⟨b, value⟩ := e
    rw [List.filter_cons, List.lookup_cons]
    by_cases ha : a = b
    · subst ha
      cases hkeep : keep a with
      | true => simp
      | false => simpa [hkeep] using ih
    · rw [beq_false_of_ne ha, ← ih]
      cases hkeep : keep b with
      | true => simp [List.lookup_cons, beq_false_of_ne ha]
      | false => simp

namespace NameTable

variable {α : Type}

theorem mem_map_fst_insertEntry {name n : String} {value : α} {l : List (String × α)} :
    n ∈ (insertEntry name value l).map Prod.fst ↔ n = name ∨ n ∈ l.map Prod.fst := by
  induction l with
  | nil => simp [insertEntry]
  | cons head rest ih =>
    obtain ⟨m, v⟩ := head
    unfold insertEntry
    by_cases hlt : name < m
    · rw [if_pos hlt, List.map_cons, List.mem_cons]
    · by_cases heq : name = m
      · rw [if_neg hlt, if_pos heq, heq]
        simp
      · rw [if_neg hlt, if_neg heq, List.map_cons, List.mem_cons, ih, List.map_cons, List.mem_cons]
        exact or_left_comm

theorem lookup_insertEntry {name n : String} {value : α} {l : List (String × α)} :
    (insertEntry name value l).lookup n = if n = name then some value else l.lookup n := by
  induction l with
  | nil =>
    by_cases hn : n = name
    · rw [if_pos hn, insertEntry, hn, List.lookup_cons_self]
    · rw [if_neg hn, insertEntry, List.lookup_cons, beq_false_of_ne hn]
  | cons head rest ih =>
    obtain ⟨m, v⟩ := head
    unfold insertEntry
    by_cases hlt : name < m
    · rw [if_pos hlt, List.lookup_cons]
      by_cases hn : n = name
      · rw [if_pos hn, hn, beq_self_eq_true]
      · rw [if_neg hn, beq_false_of_ne hn]
    · by_cases heq : name = m
      · rw [if_neg hlt, if_pos heq, List.lookup_cons, List.lookup_cons, heq]
        by_cases hn : n = m
        · rw [if_pos hn, hn, beq_self_eq_true]
        · rw [if_neg hn, beq_false_of_ne hn]
      · rw [if_neg hlt, if_neg heq, List.lookup_cons, List.lookup_cons, ih]
        by_cases hm : n = m
        · have hne : ¬ m = name := fun e => heq e.symm
          subst hm
          rw [beq_self_eq_true, if_neg hne, if_neg hne]
        · rw [beq_false_of_ne hm]

theorem mem_names_insert {t : NameTable α} {name n : String} {value : α} :
    n ∈ (t.insert name value).names ↔ n = name ∨ n ∈ t.names :=
  mem_map_fst_insertEntry

@[simp] theorem find?_insert (t : NameTable α) (name n : String) (value : α) :
    (t.insert name value).find? n = if n = name then some value else t.find? n :=
  lookup_insertEntry

theorem mem_names_ofList {pairs : List (String × α)} {n : String} :
    n ∈ (ofList pairs).names ↔ n ∈ pairs.map Prod.fst := by
  have hfold (t : NameTable α) : n ∈ (pairs.foldl (fun t pair => t.insert pair.1 pair.2) t).names ↔
      n ∈ t.names ∨ n ∈ pairs.map Prod.fst := by
    induction pairs generalizing t with
    | nil => simp
    | cons pair rest ih =>
      rw [List.foldl_cons, ih, mem_names_insert, List.map_cons, List.mem_cons, or_assoc,
        or_left_comm]
  rw [ofList, hfold]
  simp [empty, names]

theorem insertEntry_of_forall_lt {name : String} {value : α} {l : List (String × α)}
    (h : ∀ e ∈ l, e.1 < name) : insertEntry name value l = l ++ [(name, value)] := by
  induction l with
  | nil => rfl
  | cons head rest ih =>
    obtain ⟨m, v⟩ := head
    have hm : m < name := h (m, v) List.mem_cons_self
    have hne : name ≠ m := fun e => Std.lt_irrefl (e ▸ hm)
    rw [insertEntry, if_neg (fun hlt => Std.lt_irrefl (Std.lt_trans hlt hm)), if_neg hne,
      ih fun e he => h e (List.mem_cons_of_mem _ he), List.cons_append]

theorem eq_of_entries {t t' : NameTable α} (h : t.entries = t'.entries) : t = t' := by
  cases t
  cases t'
  cases h
  rfl

theorem ofList_entries (t : NameTable α) : ofList t.entries = t := by
  have hfold (pairs : List (String × α)) (acc : NameTable α)
      (h : (acc.entries ++ pairs).Pairwise fun a b => a.1 < b.1) :
      (pairs.foldl (fun t pair => t.insert pair.1 pair.2) acc).entries = acc.entries ++ pairs := by
    induction pairs generalizing acc with
    | nil => exact (List.append_nil _).symm
    | cons pair rest ih =>
      have hlt : ∀ e ∈ acc.entries, e.1 < pair.1 := fun e he =>
        (List.pairwise_append.mp h).2.2 e he pair List.mem_cons_self
      have hentries : (acc.insert pair.1 pair.2).entries = acc.entries ++ [pair] :=
        insertEntry_of_forall_lt hlt
      rw [List.foldl_cons, ih _ (by rwa [hentries, List.append_assoc]), hentries,
        List.append_assoc]
      rfl
  exact eq_of_entries (hfold t.entries empty t.sorted)

theorem find?_isSome_iff {t : NameTable α} {n : String} : (t.find? n).isSome ↔ n ∈ t.names := by
  unfold find? names
  induction t.entries with
  | nil => simp
  | cons e rest ih =>
    rw [List.lookup_cons, List.map_cons, List.mem_cons]
    by_cases hn : n = e.1
    · rw [hn, beq_self_eq_true]
      simp
    · rw [beq_false_of_ne hn]
      simp [ih, hn]

theorem mem_entries_of_find? {t : NameTable α} {n : String} {value : α}
    (h : t.find? n = some value) : (n, value) ∈ t.entries := by
  obtain ⟨front, back, hentries, -⟩ := List.lookup_eq_some_iff.mp h
  rw [hentries]
  exact List.mem_append_right _ List.mem_cons_self

/-- A table of pairs has no other entries than the pairs. -/
theorem mem_of_mem_entries_ofList {pairs : List (String × α)} {e : String × α}
    (h : e ∈ (ofList pairs).entries) : e ∈ pairs := by
  have hfold (pairs : List (String × α)) (t : NameTable α)
      (he : e ∈ (pairs.foldl (fun t pair => t.insert pair.1 pair.2) t).entries) :
      e ∈ t.entries ∨ e ∈ pairs := by
    induction pairs generalizing t with
    | nil => exact .inl he
    | cons pair rest ih =>
      rcases ih (t.insert pair.1 pair.2) he with he | he
      · exact (mem_insertEntry he).elim (fun e => .inr (e ▸ List.mem_cons_self)) .inl
      · exact .inr (List.mem_cons_of_mem _ he)
  exact (hfold pairs empty h).resolve_left List.not_mem_nil

theorem mem_of_find?_ofList {pairs : List (String × α)} {n : String} {value : α}
    (h : (ofList pairs).find? n = some value) : (n, value) ∈ pairs :=
  mem_of_mem_entries_ofList (mem_entries_of_find? h)

/-- Values for the names of a table, in its order, are a table as they are. -/
theorem entries_ofList {β : Type} {t : NameTable β} {pairs : List (String × α)}
    (h : pairs.map Prod.fst = t.names) : (ofList pairs).entries = pairs := by
  have hnames : (pairs.map Prod.fst).Pairwise (· < ·) := by
    rw [h]
    exact List.pairwise_map.mpr t.sorted
  exact congrArg entries (ofList_entries ⟨pairs, List.pairwise_map.mp hnames⟩)

end NameTable
end KernelDepot
