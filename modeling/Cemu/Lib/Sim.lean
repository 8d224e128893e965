import Cemu.Lib.RaiseM

/-!
# Two computations with the same course

`Outcome.Sim E S R` relates two outcomes that end in the same way: both with values related
by `R`, both by raising with payloads related by `E`, or both by stopping the process, and
with the states they leave related by `S`. `RaiseM.Sim` says this of two computations from
related states, and the rules follow their structure.
-/

namespace Cemu

variable {ε ε' σ σ' α α' β β' : Type}

/-- Both outcomes end in the same way, with related results and states. -/
inductive Outcome.Sim (E : ε → ε' → Prop) (S : σ → σ' → Prop) (R : α → α' → Prop) :
    Outcome ε σ α → Outcome ε' σ' α' → Prop
  | ok {a : α} {a' : α'} {s : σ} {s' : σ'} (hr : R a a') (hs : S s s') :
      Sim E S R (.ok a s) (.ok a' s')
  | raise {e : ε} {e' : ε'} {s : σ} {s' : σ'} (he : E e e') (hs : S s s') :
      Sim E S R (.raise e s) (.raise e' s')
  | fatal : Sim E S R .fatal .fatal

namespace Outcome.Sim

variable {E : ε → ε' → Prop} {S : σ → σ' → Prop} {R : α → α' → Prop} {Q : β → β' → Prop}
  {o : Outcome ε σ α} {o' : Outcome ε' σ' α'}

theorem bind {f : α → σ → Outcome ε σ β} {f' : α' → σ' → Outcome ε' σ' β'}
    (ho : Sim E S R o o') (hf : ∀ a a' s s', R a a' → S s s' → Sim E S Q (f a s) (f' a' s')) :
    Sim E S Q (o.bind f) (o'.bind f') := by
  cases ho with
  | ok hr hs => exact hf _ _ _ _ hr hs
  | raise he hs => exact .raise he hs
  | fatal => exact .fatal

theorem ok_left {a : α} {s : σ} (h : Sim E S R (.ok a s) o') :
    ∃ a' s', o' = .ok a' s' ∧ R a a' ∧ S s s' := by
  cases h with
  | ok hr hs => exact ⟨_, _, rfl, hr, hs⟩

end Outcome.Sim

namespace RaiseM

/-- From related states the two computations end in the same way. -/
def Sim (E : ε → ε' → Prop) (S : σ → σ' → Prop) (R : α → α' → Prop) (m : RaiseM ε σ α)
    (m' : RaiseM ε' σ' α') : Prop :=
  ∀ s s', S s s' → Outcome.Sim E S R (m s) (m' s')

variable {E : ε → ε' → Prop} {S : σ → σ' → Prop} {R : α → α' → Prop} {Q : β → β' → Prop}

theorem Sim.pure {a : α} {a' : α'} (h : R a a') :
    Sim E S R (pure a : RaiseM ε σ α) (pure a' : RaiseM ε' σ' α') :=
  fun _ _ hs => .ok h hs

theorem Sim.raise {e : ε} {e' : ε'} (h : E e e') :
    Sim E S R (raise e : RaiseM ε σ α) (raise e' : RaiseM ε' σ' α') :=
  fun _ _ hs => .raise h hs

theorem Sim.bind {m : RaiseM ε σ α} {m' : RaiseM ε' σ' α'} {f : α → RaiseM ε σ β}
    {f' : α' → RaiseM ε' σ' β'} (hm : Sim E S R m m')
    (hf : ∀ a a', R a a' → Sim E S Q (f a) (f' a')) : Sim E S Q (m >>= f) (m' >>= f') :=
  fun s s' hs => (hm s s' hs).bind fun a a' t t' hr ht => hf a a' hr t t' ht

theorem Sim.refl {T : ε → ε → Prop} (hT : ∀ e, T e e) (m : RaiseM ε σ α) : Sim T Eq Eq m m := by
  rintro s _ rfl
  cases m s with
  | ok a s' => exact .ok rfl rfl
  | raise e s' => exact .raise (hT e) rfl
  | fatal => exact .fatal

end RaiseM

end Cemu
