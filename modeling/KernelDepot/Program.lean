/-
Computations that ask their surroundings.

A `Program` is a finite tree: a leaf holds a result, and every other node puts
one question to the surroundings and has one branch for each possible reply.
Nothing in the tree says what the reply will be.  `run` answers the questions
with a handler, so the same program can be executed against a directory, against
a directory that fails at will, or one question at a time among the questions of
other programs.  `run_bind` is what the executions have in common.
-/

namespace KernelDepot

/-- A computation with result type `α` that may put questions from `Op`, each of
which is answered by a value of its own reply type. -/
inductive Program (Op : Type) (Reply : Op → Type) (α : Type) where
  | done (value : α)
  | ask (op : Op) (next : Reply op → Program Op Reply α)

namespace Program

variable {Op : Type} {Reply : Op → Type} {α β γ σ : Type}

def question (op : Op) : Program Op Reply (Reply op) := ask op done

/-- Continue every leaf of a program with `f`. -/
def bind : Program Op Reply α → (α → Program Op Reply β) → Program Op Reply β
  | done a, f => f a
  | ask op next, f => ask op fun reply => (next reply).bind f

instance : Monad (Program Op Reply) where
  pure := done
  bind := bind

/-- Answers questions, with a state that a reply may depend on and change. -/
abbrev Handler (Op : Type) (Reply : Op → Type) (σ : Type) :=
  (op : Op) → σ → Reply op × σ

/-- Execute a program from a state, one question after the other. -/
def run (handle : Handler Op Reply σ) : Program Op Reply α → σ → α × σ
  | done a, s => (a, s)
  | ask op next, s => (next (handle op s).1).run handle (handle op s).2

@[simp] theorem run_done (handle : Handler Op Reply σ) (a : α) (s : σ) :
    (done a : Program Op Reply α).run handle s = (a, s) := rfl

@[simp] theorem run_pure (handle : Handler Op Reply σ) (a : α) (s : σ) :
    (pure a : Program Op Reply α).run handle s = (a, s) := rfl

@[simp] theorem run_ask (handle : Handler Op Reply σ) (op : Op)
    (next : Reply op → Program Op Reply α) (s : σ) :
    (ask op next).run handle s = (next (handle op s).1).run handle (handle op s).2 := rfl

@[simp] theorem run_question (handle : Handler Op Reply σ) (op : Op) (s : σ) :
    (question op : Program Op Reply (Reply op)).run handle s = handle op s := rfl

@[simp] theorem run_bind (handle : Handler Op Reply σ) (p : Program Op Reply α)
    (f : α → Program Op Reply β) (s : σ) :
    (p >>= f).run handle s = (f (p.run handle s).1).run handle (p.run handle s).2 := by
  induction p generalizing s with
  | done a => rfl
  | ask op next ih => exact ih _ _

theorem bind_assoc (p : Program Op Reply α) (f : α → Program Op Reply β)
    (g : β → Program Op Reply γ) :
    (p.bind f).bind g = p.bind fun a => (f a).bind g := by
  induction p with
  | done a => rfl
  | ask op next ih => exact congrArg (ask op) (funext fun reply => ih reply)

theorem bind_done (p : Program Op Reply α) : p.bind done = p := by
  induction p with
  | done a => rfl
  | ask op next ih => exact congrArg (ask op) (funext fun reply => ih reply)

instance : LawfulMonad (Program Op Reply) :=
  .mk' _ bind_done (fun _ _ => rfl) bind_assoc

end Program
end KernelDepot
