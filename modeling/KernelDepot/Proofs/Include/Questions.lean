/-
The questions of a compilation.

A toolchain may ask for any number of includes, and what it asks next may depend on the
answers so far.  Whatever it asks, the session notes an extra dependency exactly if one of
the questions is for an include that is `unforeseen`, one that only the search path had.
-/
import KernelDepot.Compilation

namespace KernelDepot

/-- The questions that a program puts when it is run, in order. -/
def Program.questions {Op α σ : Type} {Reply : Op → Type} (handle : Handler Op Reply σ) :
    Program Op Reply α → σ → List Op
  | .done _, _ => []
  | .ask op next, s => op :: (next (handle op s).1).questions handle (handle op s).2

theorem Program.questions_bind {Op α β σ : Type} {Reply : Op → Type} (handle : Handler Op Reply σ)
    (p : Program Op Reply α) (f : α → Program Op Reply β) (s : σ) :
    (p >>= f).questions handle s =
      p.questions handle s ++ (f (p.run handle s).1).questions handle (p.run handle s).2 := by
  induction p generalizing s with
  | done a => rfl
  | ask op next ih => exact congrArg (op :: ·) (ih _ _)

/-- Whether an include is answered from the search path: it is none of the dependencies, it
is not left to the toolchain, and some provider has it. -/
structure IncludeSpace.Unforeseen (space : IncludeSpace) (source : ResolvedSource)
    (request : IncludeRequest) : Prop where
  unscanned : ∀ d ∈ source.dependencies, d.name ≠ request.name
  notBuiltin : request.name ∉ space.builtins
  found : ∃ hit, space.path.resolve space.disk request.name = .ok (some hit)

theorem ResolvedSource.dependency?_eq_none_iff {source : ResolvedSource} {name : String}
    {provider : Option String} :
    source.dependency? name provider = none ↔ ∀ d ∈ source.dependencies, d.name ≠ name := by
  have hnamed : (source.dependencies.find? fun d => d.name = name) = none ↔
      ∀ d ∈ source.dependencies, d.name ≠ name := by
    simp [List.find?_eq_none]
  unfold ResolvedSource.dependency?
  rw [Option.or_eq_none_iff, hnamed]
  constructor
  · exact fun h => h.2
  · intro h
    refine ⟨?_, h⟩
    cases provider with
    | none => rfl
    | some p =>
      refine List.find?_eq_none.mpr fun d hd hnp => ?_
      exact h d hd (of_decide_eq_true hnp).1

namespace Session

variable {space : IncludeSpace} {source : ResolvedSource} {α : Type}

/-- An answer adds to the extra dependencies or leaves them alone, and it leaves none if and
only if there were none and the question was foreseen. -/
theorem extra_answer (space : IncludeSpace) (source : ResolvedSource) (request : IncludeRequest)
    (s : Session) : (answer space source request s).2.extra = [] ↔
      s.extra = [] ∧ ¬ space.Unforeseen source request := by
  unfold answer
  simp only
  split
  next d hd =>
    refine ⟨fun h => ⟨h, fun hu => ?_⟩, fun h => h.1⟩
    rw [ResolvedSource.dependency?_eq_none_iff.mpr hu.unscanned] at hd
    exact nomatch hd
  next hd =>
    split
    next d hd' =>
      have hne : s.extra ≠ [] := List.ne_nil_of_mem (List.mem_of_find?_eq_some hd')
      exact ⟨fun h => absurd h hne, fun h => absurd h.1 hne⟩
    next hd' =>
      by_cases hb : request.name ∈ space.builtins
      · rw [if_pos hb]
        exact ⟨fun h => ⟨h, fun hu => hu.notBuiltin hb⟩, fun h => h.1⟩
      · rw [if_neg hb]
        unfold search
        cases hr : space.path.resolve space.disk request.name with
        | error cause =>
          refine ⟨fun h => ⟨h, fun hu => ?_⟩, fun h => h.1⟩
          obtain ⟨hit, hhit⟩ := hu.found
          rw [hr] at hhit
          exact nomatch hhit
        | ok found =>
          cases found with
          | none =>
            refine ⟨fun h => ⟨h, fun hu => ?_⟩, fun h => h.1⟩
            obtain ⟨hit, hhit⟩ := hu.found
            rw [hr] at hhit
            exact nomatch hhit
          | some hit =>
            have hu : space.Unforeseen source request :=
              ⟨ResolvedSource.dependency?_eq_none_iff.mp hd, hb, hit, hr⟩
            refine ⟨fun h => ?_, fun h => absurd hu h.2⟩
            exact absurd h (List.append_ne_nil_of_right_ne_nil _ (List.cons_ne_nil _ _))

/-- A compilation leaves no extra dependencies exactly if all its questions were foreseen. -/
theorem extra_run (dialogue : Asking α) (s : Session) :
    (dialogue.run (answer space source) s).2.extra = [] ↔
      s.extra = [] ∧
        ∀ r ∈ dialogue.questions (answer space source) s, ¬ space.Unforeseen source r := by
  induction dialogue generalizing s with
  | done result => simp [Program.run, Program.questions]
  | ask request next ih =>
    rw [Program.run_ask, ih, extra_answer]
    simp only [Program.questions, List.forall_mem_cons, and_assoc]

end Session
end KernelDepot
