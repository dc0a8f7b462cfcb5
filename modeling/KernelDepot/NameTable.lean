/-
Tables keyed by name.

A table holds at most one value for a name and lists its names in the order of
their code points.  Inserting under a name that is present replaces its value, so
of several values given for one name the last counts.  The order is part of the
type: two tables with the same contents are equal.
-/

namespace KernelDepot

/-- A finite map from names to values, sorted by name. -/
structure NameTable (α : Type) where
  entries : List (String × α) := []
  sorted : entries.Pairwise fun a b => a.1 < b.1 := by exact List.Pairwise.nil

namespace NameTable

variable {α β : Type}

instance [DecidableEq α] : DecidableEq (NameTable α) := fun a b =>
  if h : a.entries = b.entries then
    isTrue (by cases a; cases b; simp_all)
  else isFalse fun e => h (congrArg entries e)

instance [Repr α] : Repr (NameTable α) := ⟨fun t n => reprPrec t.entries n⟩

instance : Inhabited (NameTable α) := ⟨{}⟩

def insertEntry (name : String) (value : α) : List (String × α) → List (String × α)
  | [] => [(name, value)]
  | (n, v) :: rest =>
    if name < n then (name, value) :: (n, v) :: rest
    else if name = n then (name, value) :: rest
    else (n, v) :: insertEntry name value rest

theorem mem_insertEntry {name : String} {value : α} {l : List (String × α)} {e : String × α}
    (h : e ∈ insertEntry name value l) : e = (name, value) ∨ e ∈ l := by
  induction l with
  | nil => simpa [insertEntry] using h
  | cons head rest ih =>
    simp only [insertEntry] at h
    split at h
    · simpa using h
    · split at h
      · simp only [List.mem_cons] at h ⊢
        exact h.imp_right .inr
      · simp only [List.mem_cons] at h ⊢
        rcases h with h | h
        · exact .inr (.inl h)
        · exact (ih h).imp_right .inr

theorem lt_of_not_lt_of_ne {a b : String} (h : ¬ a < b) (hne : a ≠ b) : b < a := by
  rcases Std.lt_trichotomy a b with hlt | he | hgt
  · exact absurd hlt h
  · exact absurd he hne
  · exact hgt

theorem pairwise_insertEntry {name : String} {value : α} {l : List (String × α)}
    (h : l.Pairwise fun a b => a.1 < b.1) :
    (insertEntry name value l).Pairwise fun a b => a.1 < b.1 := by
  induction l with
  | nil => simp [insertEntry]
  | cons head rest ih =>
    obtain ⟨n, v⟩ := head
    obtain ⟨hhead, hrest⟩ := List.pairwise_cons.mp h
    simp only [insertEntry]
    split
    · rename_i hlt
      refine List.pairwise_cons.mpr ⟨fun e he => ?_, h⟩
      rcases List.mem_cons.mp he with he | he
      · rw [he]; exact hlt
      · exact Std.lt_trans hlt (hhead e he)
    · split
      · rename_i heq
        refine List.pairwise_cons.mpr ⟨fun e he => ?_, hrest⟩
        rw [heq]; exact hhead e he
      · rename_i hnlt hne
        refine List.pairwise_cons.mpr ⟨fun e he => ?_, ih hrest⟩
        rcases mem_insertEntry he with he | he
        · rw [he]; exact lt_of_not_lt_of_ne hnlt hne
        · exact hhead e he

def empty : NameTable α := {}

/-- Put a value under a name, in place of the value that was there. -/
def insert (t : NameTable α) (name : String) (value : α) : NameTable α :=
  ⟨insertEntry name value t.entries, pairwise_insertEntry t.sorted⟩

/-- The table of some pairs; the last value given for a name counts. -/
def ofList (pairs : List (String × α)) : NameTable α :=
  pairs.foldl (fun t pair => t.insert pair.1 pair.2) empty

def find? (t : NameTable α) (name : String) : Option α := t.entries.lookup name

def names (t : NameTable α) : List String := t.entries.map Prod.fst

def values (t : NameTable α) : List α := t.entries.map Prod.snd

def size (t : NameTable α) : Nat := t.entries.length

end NameTable
end KernelDepot
