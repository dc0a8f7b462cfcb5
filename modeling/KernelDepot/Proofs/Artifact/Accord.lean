/-
Calls that agree on what they do to a folder.

An accord says what the calls keep true of the folder, and it gives each of them a mark.  A
mark stands for what its call relies on, and it says which marks the other calls can have at
the same time.  A program follows the accord if every one of its steps, whatever the reply,
keeps what is to be kept, makes its own next mark good and hurts no mark that another call
can have.  If all programs do, every state that is reached is covered: this is
`Accord.exists_covers`.
-/
import KernelDepot.Artifact.Sharing
import Mathlib.Logic.Function.Basic

namespace KernelDepot

structure Accord (γ : Type) where
  faults : Prop
  /-- What is known of the folder for other reasons. -/
  known : Folder → Prop
  /-- What the calls keep true of the folder. -/
  keeps : Folder → Prop
  relies : γ → Folder → Prop
  /-- Whether two calls can have these marks at the same time. -/
  beside : γ → γ → Prop
  /-- Whether a call with a request can have a mark. -/
  fits : StoreRequest → γ → Prop
  /-- What is promised of the reply to a request. -/
  promises : StoreRequest → StoreReply → Prop
  /-- The mark of a call that relies on nothing. -/
  idle : γ
  beside_symm : ∀ {g h}, beside g h → beside h g
  relies_idle : ∀ d, relies idle d
  beside_idle : ∀ g, beside idle g
  fits_idle : ∀ request, fits request idle

namespace Accord

variable {γ α β : Type} {A : Accord γ}

/-- A call goes from one mark to another while the folder changes, and nobody minds. -/
structure Passes (A : Accord γ) (g g' : γ) (d d' : Folder) : Prop where
  keeps : A.keeps d'
  relies : A.relies g' d'
  others : ∀ h, A.beside g h → A.relies h d → A.relies h d' ∧ A.beside g' h

/-- Every step of a program keeps the accord, with marks that fit, and what it ends with is
as it should be. -/
def Follows (A : Accord γ) (fits : γ → Prop) (ends : α → γ → Prop) : γ → Filing α → Prop
  | g, .done a => ends a g
  | g, .ask op next => ∀ d reply d', A.known d → A.known d' → A.keeps d → A.relies g d →
    (d.Step op reply d' ∨ A.faults ∧ d.Fault op reply d') →
    ∃ g', A.Passes g g' d d' ∧ fits g' ∧ A.Follows fits ends g' (next reply)

theorem Follows.bind {fits : γ → Prop} {ends : α → γ → Prop} {ends' : β → γ → Prop}
    {p : Filing α} {f : α → Filing β} {g : γ} (h : A.Follows fits ends g p)
    (hf : ∀ a g', ends a g' → A.Follows fits ends' g' (f a)) :
    A.Follows fits ends' g (p >>= f) := by
  induction p generalizing g with
  | done a => exact hf a g h
  | ask op next ih =>
    intro d reply d' hknown hknown' hkeeps hrelies hstep
    obtain ⟨g', hpasses, hfits, hnext⟩ := h d reply d' hknown hknown' hkeeps hrelies hstep
    exact ⟨g', hpasses, hfits, ih reply hnext⟩

def Heeds (A : Accord γ) (request : StoreRequest) (g : γ) (rest : Filing StoreReply) : Prop :=
  A.Follows (A.fits request) (fun reply _ => A.promises request reply) g rest

structure Minds (A : Accord γ) (g : γ) (call : Option Visit) : Prop where
  fits : ∀ v, call = some v → A.fits v.request g
  heeds : ∀ v, call = some v → A.Heeds v.request g v.rest
  /-- Only a call that is under way relies on anything. -/
  quiet : (∀ v, call = some v → ¬ v.IsUnderWay) → g = A.idle

structure Covers (A : Accord γ) (marks : Nat → γ) (s : Sharing) : Prop where
  keeps : A.keeps s.folder
  relies : ∀ i, A.relies (marks i) s.folder
  beside : ∀ i j, i ≠ j → A.beside (marks i) (marks j)
  minds : ∀ i, A.Minds (marks i) (s.calls i)

/-- A call that enters finds a mark. -/
def Admits (A : Accord γ) (marks : Nat → γ) (s : Sharing) (i : Nat) (v : Visit) : Prop :=
  ∃ g, A.relies g s.folder ∧ (∀ j, j ≠ i → A.beside g (marks j)) ∧ A.fits v.request g ∧
    A.Heeds v.request g v.rest

theorem minds_none : A.Minds A.idle none :=
  ⟨fun _ => nofun, fun _ => nofun, fun _ => rfl⟩

/-- A call that has ended relies on nothing; any other keeps its mark. -/
theorem exists_minds {v : Visit} {g : γ} (hfits : A.fits v.request g)
    (hheeds : A.Heeds v.request g v.rest) :
    ∃ g', (g' = g ∨ g' = A.idle) ∧ A.Minds g' (some v) := by
  obtain ⟨request, rest⟩ := v
  cases rest with
  | done reply =>
    refine ⟨A.idle, .inr rfl, fun w hw => A.fits_idle _, fun w hw => ?_, fun _ => rfl⟩
    obtain rfl := Option.some.inj hw
    exact hheeds
  | ask op next =>
    refine ⟨g, .inl rfl, fun w hw => ?_, fun w hw => ?_, fun hquiet => ?_⟩
    · obtain rfl := Option.some.inj hw
      exact hfits
    · obtain rfl := Option.some.inj hw
      exact hheeds
    · exact absurd (fun reply => nofun) (hquiet _ rfl)

/-- The folder changes, one place changes, and nobody minds. -/
theorem Covers.change {marks : Nat → γ} {s : Sharing} (h : A.Covers marks s) {i : Nat} {g : γ}
    {call : Option Visit} {d : Folder} (hkeeps : A.keeps d) (hrelies : A.relies g d)
    (hothers : ∀ j, j ≠ i → A.relies (marks j) d ∧ A.beside g (marks j))
    (hminds : A.Minds g call) :
    A.Covers (Function.update marks i g) (s.put i call d) := by
  refine ⟨hkeeps, fun j => ?_, fun j k hjk => ?_, fun j => ?_⟩
  · by_cases hj : j = i
    · rw [hj, Function.update_self]
      exact hrelies
    · rw [Function.update_of_ne hj]
      exact (hothers j hj).1
  · by_cases hj : j = i
    · have hk : k ≠ i := fun hk => hjk (hj.trans hk.symm)
      rw [hj, Function.update_self, Function.update_of_ne hk]
      exact (hothers k hk).2
    · by_cases hk : k = i
      · rw [hk, Function.update_self, Function.update_of_ne hj]
        exact A.beside_symm (hothers j hj).2
      · rw [Function.update_of_ne hj, Function.update_of_ne hk]
        exact h.beside j k hjk
  · by_cases hj : j = i
    · rw [hj, Function.update_self]
      exact (s.calls_put_self i call d).symm ▸ hminds
    · rw [Function.update_of_ne hj]
      exact (s.calls_put_of_ne call d hj).symm ▸ h.minds j

theorem Covers.change_idle {marks : Nat → γ} {s : Sharing} (h : A.Covers marks s) {i : Nat}
    {call : Option Visit} (hminds : A.Minds A.idle call) :
    A.Covers (Function.update marks i A.idle) (s.put i call s.folder) :=
  h.change h.keeps (A.relies_idle _) (fun j _ => ⟨h.relies j, A.beside_idle _⟩) hminds

/-- Where nobody is, the accord asks something of the folder alone. -/
theorem covers_of_calls_eq_none {s : Sharing} (hcalls : ∀ i, s.calls i = none)
    (h : A.keeps s.folder) : A.Covers (fun _ => A.idle) s :=
  ⟨h, fun _ => A.relies_idle _, fun _ _ _ => A.beside_idle _, fun i => hcalls i ▸ A.minds_none⟩

/-- What happens next keeps the accord if whoever enters finds a mark. -/
theorem Covers.next {rules : Sharing.Rules} {marks : Nat → γ} {s s' : Sharing}
    (h : A.Covers marks s) (hnext : s.Next rules s') (hfaults : rules.faults → A.faults)
    (hknown : A.known s.folder) (hknown' : A.known s'.folder)
    (hadmits : ∀ i store request, s.calls i = none → rules.allows request →
      s' = s.put i (some ⟨request, request.program store⟩) s.folder →
      A.Admits marks s i ⟨request, request.program store⟩) :
    ∃ marks', A.Covers marks' s' := by
  cases hnext with
  | @enter i store request hfree hallows =>
    obtain ⟨g, hrelies, hbeside, hfits, hheeds⟩ := hadmits i store request hfree hallows rfl
    obtain ⟨g', rfl | rfl, hminds⟩ := exists_minds hfits hheeds
    · exact ⟨_, h.change h.keeps hrelies (fun j hj => ⟨h.relies j, hbeside j hj⟩) hminds⟩
    · exact ⟨_, h.change_idle hminds⟩
  | @turn i request op next reply d hcall hstep =>
    obtain ⟨g, hpasses, hfits, hheeds⟩ := (h.minds i).heeds _ hcall s.folder reply d hknown
      hknown' h.keeps (h.relies i) (hstep.imp_right fun hf => ⟨hfaults hf.1, hf.2⟩)
    have hothers (j : Nat) (hj : j ≠ i) : A.relies (marks j) d ∧ A.beside g (marks j) :=
      hpasses.others (marks j) (h.beside i j (Ne.symm hj)) (h.relies j)
    obtain ⟨g', rfl | rfl, hminds⟩ := exists_minds (v := ⟨request, next reply⟩) hfits hheeds
    · exact ⟨_, h.change hpasses.keeps hpasses.relies hothers hminds⟩
    · exact ⟨_, h.change hpasses.keeps (A.relies_idle d)
        (fun j hj => ⟨(hothers j hj).1, A.beside_idle _⟩) hminds⟩
  | leave i => exact ⟨_, h.change_idle A.minds_none⟩

/-- The accord holds in every state of a run.  What is known of the folder, and that whoever
enters finds a mark, may depend on the states being good. -/
theorem exists_covers {rules : Sharing.Rules} {good : Sharing → Prop} {start s : Sharing}
    (hrun : Relation.ReflTransGen (fun s s' => good s ∧ s.Next rules s' ∧ good s') start s)
    (hcalls : ∀ i, start.calls i = none) (hkeeps : A.keeps start.folder)
    (hfaults : rules.faults → A.faults) (hknown : ∀ s, good s → A.known s.folder)
    (hadmits : ∀ marks s i store request, A.Covers marks s → s.calls i = none →
      rules.allows request → good (s.put i (some ⟨request, request.program store⟩) s.folder) →
      A.Admits marks s i ⟨request, request.program store⟩) :
    ∃ marks, A.Covers marks s := by
  induction hrun with
  | refl => exact ⟨_, covers_of_calls_eq_none hcalls hkeeps⟩
  | @tail s s' _ hnext ih =>
    obtain ⟨marks, h⟩ := ih
    obtain ⟨hgood, hnext, hgood'⟩ := hnext
    refine h.next hnext hfaults (hknown s hgood) (hknown s' hgood') ?_
    rintro i store request hfree hallows rfl
    exact hadmits marks s i store request h hfree hallows hgood'

/-- If everything is known of any folder, all runs are good. -/
theorem exists_covers_of_reaches {rules : Sharing.Rules} {start s : Sharing}
    (hrun : Relation.ReflTransGen (Sharing.Next rules) start s)
    (hcalls : ∀ i, start.calls i = none) (hkeeps : A.keeps start.folder)
    (hfaults : rules.faults → A.faults) (hknown : ∀ d, A.known d)
    (hadmits : ∀ marks s i store request, A.Covers marks s → rules.allows request →
      A.Admits marks s i ⟨request, request.program store⟩) :
    ∃ marks, A.Covers marks s := by
  have hgood : Relation.ReflTransGen (fun s s' => True ∧ Sharing.Next rules s s' ∧ True) start s :=
    Relation.ReflTransGen.mono (fun _ _ hnext => ⟨trivial, hnext, trivial⟩) _ _ hrun
  refine exists_covers hgood hcalls hkeeps hfaults (fun s _ => hknown s.folder) ?_
  intro marks s i store request h _ hallows _
  exact hadmits marks s i store request h hallows

end Accord
end KernelDepot
