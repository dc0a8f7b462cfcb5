/-
Runs of one program.

A program puts its questions in an order that the replies decide, so what is known of every single
answer is known of a run (`view_run`), and handlers that answer alike in states that belong
together do so over a whole run (`run_comm`).  Only those questions count that are put at all
(`AsksOnly`).
-/
import KernelDepot.Program

namespace KernelDepot
namespace Program

variable {Op : Type} {Reply : Op → Type} {α β γ σ τ : Type} {good : Op → Prop}

/-- Whatever the replies are, every question that is put is a good one. -/
def AsksOnly (good : Op → Prop) : Program Op Reply α → Prop
  | done _ => True
  | ask op next => good op ∧ ∀ reply, (next reply).AsksOnly good

theorem asksOnly_pure (a : α) : (pure a : Program Op Reply α).AsksOnly good := trivial

theorem asksOnly_true (p : Program Op Reply α) : p.AsksOnly fun _ => True := by
  induction p with
  | done a => trivial
  | ask op next ih => exact ⟨trivial, ih⟩

theorem AsksOnly.bind {p : Program Op Reply α} {f : α → Program Op Reply β}
    (h : p.AsksOnly good) (hf : ∀ a, (f a).AsksOnly good) : (p >>= f).AsksOnly good := by
  induction p with
  | done a => exact hf a
  | ask op next ih => exact ⟨h.1, fun reply => ih reply (h.2 reply)⟩

section
variable {handle : Handler Op Reply σ} {handle' : Handler Op Reply τ} {p : Program Op Reply α}

/-- What no answer to a good question changes no run changes. -/
theorem AsksOnly.view_run (hp : p.AsksOnly good) (view : σ → γ)
    (h : ∀ op, good op → ∀ x, view (handle op x).2 = view x) (x : σ) :
    view (p.run handle x).2 = view x := by
  induction p generalizing x with
  | done a => rfl
  | ask op next ih => exact (ih _ (hp.2 _) _).trans (h op hp.1 x)

theorem view_run {view : σ → γ} (h : ∀ op x, view (handle op x).2 = view x)
    (p : Program Op Reply α) (x : σ) : view (p.run handle x).2 = view x :=
  p.asksOnly_true.view_run view (fun op _ => h op) x

/-- Where two handlers give the same replies to good questions, in states that belong together
and stay together, a run comes to the same with both. -/
theorem AsksOnly.run_comm {image : σ → τ} (hp : p.AsksOnly good)
    (h : ∀ op, good op → ∀ x, handle' op (image x) = ((handle op x).1, image (handle op x).2))
    (x : σ) : p.run handle' (image x) = ((p.run handle x).1, image (p.run handle x).2) := by
  induction p generalizing x with
  | done a => rfl
  | ask op next ih =>
    rw [run_ask, run_ask, h op hp.1 x]
    exact ih _ (hp.2 _) _

theorem run_comm {image : σ → τ}
    (h : ∀ op x, handle' op (image x) = ((handle op x).1, image (handle op x).2))
    (p : Program Op Reply α) (x : σ) :
    p.run handle' (image x) = ((p.run handle x).1, image (p.run handle x).2) :=
  p.asksOnly_true.run_comm (fun op _ => h op) x

/-- Where no reply depends on the state, no result does. -/
theorem run_fst_congr (h : ∀ op x y, (handle op x).1 = (handle op y).1) (p : Program Op Reply α)
    (x y : σ) : (p.run handle x).1 = (p.run handle y).1 := by
  induction p generalizing x y with
  | done a => rfl
  | ask op next ih =>
    rw [run_ask, run_ask, h op x y]
    exact ih _ _ _

end

end Program
end KernelDepot
