import Cemu.Lib.Numerals

/-!
# Computations that may unwind

A computation over a state that either returns, raises out of the middle of its
work, or stops the process. Raising keeps the state the computation had reached:
nothing is rolled back, which is what a `longjmp` out of a half-done operation does.

`RaiseM.Spec A E m` says where a computation may leave the state: `A` relates the
state before to the state after a normal return, `E` relates it to the state a raise
leaves behind. The rules below follow the structure of the computation.
-/

namespace Cemu

/-- How a computation ends: with a value, by raising, or by stopping the process.
A raise carries the state reached so far. -/
inductive Outcome (ε σ α : Type) where
  | ok (a : α) (s : σ)
  | raise (e : ε) (s : σ)
  | fatal

namespace Outcome

variable {ε σ α β : Type}

def result : Outcome ε σ α → Option (Except ε α)
  | ok a _ => some (.ok a)
  | raise e _ => some (.error e)
  | fatal => none

def state? : Outcome ε σ α → Option σ
  | ok _ s => some s
  | raise _ s => some s
  | fatal => none

def value? : Outcome ε σ α → Option α
  | ok a _ => some a
  | raise _ _ => none
  | fatal => none

def isOk : Outcome ε σ α → Bool
  | ok _ _ => true
  | raise _ _ => false
  | fatal => false

theorem exists_of_isOk {o : Outcome ε σ α} (h : o.isOk = true) : ∃ a s, o = ok a s := by
  cases o with
  | ok a s => exact ⟨a, s, rfl⟩
  | raise e s => cases h
  | fatal => cases h

theorem exists_of_value {o : Outcome ε σ α} {a : α} (h : o.value? = some a) :
    ∃ s, o = ok a s := by
  cases o with
  | ok b s => exact ⟨s, congrArg (ok · s) (Option.some.inj h)⟩
  | raise e s => cases h
  | fatal => cases h

def bind (o : Outcome ε σ α) (f : α → σ → Outcome ε σ β) : Outcome ε σ β :=
  match o with
  | ok a s => f a s
  | raise e s => raise e s
  | fatal => fatal

theorem bind_eq_ok {o : Outcome ε σ α} {f : α → σ → Outcome ε σ β} {b : β} {s' : σ}
    (h : o.bind f = ok b s') : ∃ a s, o = ok a s ∧ f a s = ok b s' := by
  cases o with
  | ok a s => exact ⟨a, s, rfl, h⟩
  | raise e s => cases h
  | fatal => cases h

@[simp] theorem bind_ok (a : α) (s : σ) (f : α → σ → Outcome ε σ β) : (ok a s).bind f = f a s := rfl

@[simp] theorem bind_raise (e : ε) (s : σ) (f : α → σ → Outcome ε σ β) :
    (raise e s : Outcome ε σ α).bind f = raise e s := rfl

@[simp] theorem bind_fatal (f : α → σ → Outcome ε σ β) :
    (fatal : Outcome ε σ α).bind f = fatal := rfl

end Outcome

def RaiseM (ε σ α : Type) := σ → Outcome ε σ α

namespace RaiseM

variable {ε σ α β γ : Type}

instance : Monad (RaiseM ε σ) where
  pure a := fun s => .ok a s
  bind m f := fun s => (m s).bind fun a s' => f a s'

@[simp] theorem pure_apply (a : α) (s : σ) : (pure a : RaiseM ε σ α) s = .ok a s := rfl

section

variable (m : RaiseM ε σ α)

@[simp] theorem bind_apply (f : α → RaiseM ε σ β) (s : σ) :
    (m >>= f) s = (m s).bind fun a s' => f a s' := rfl

@[simp] theorem map_apply (f : α → β) (s : σ) :
    (f <$> m) s = (m s).bind fun a s' => .ok (f a) s' := rfl

private theorem id_map_eq : id <$> m = m := by
  funext s
  simp only [map_apply]
  cases m s <;> rfl

private theorem bind_assoc_eq (f : α → RaiseM ε σ β) (g : β → RaiseM ε σ γ) :
    m >>= f >>= g = m >>= fun a => f a >>= g := by
  funext s
  simp only [bind_apply]
  cases m s <;> rfl

end

instance : LawfulMonad (RaiseM ε σ) :=
  LawfulMonad.mk' _ id_map_eq (fun _ _ => rfl) bind_assoc_eq

variable {m : RaiseM ε σ α} {f : α → RaiseM ε σ β} {s s' t : σ} {e : ε}

/-- A raise of a sequence is a raise of its first part, or of the rest from where that returned. -/
theorem bind_eq_raise (h : (m >>= f) s = .raise e s') :
    m s = .raise e s' ∨ ∃ a t, m s = .ok a t ∧ f a t = .raise e s' := by
  rw [bind_apply] at h
  cases hm : m s with
  | ok a t =>
    rw [hm] at h
    exact .inr ⟨a, t, rfl, h⟩
  | raise e' t =>
    rw [hm] at h
    cases h
    exact .inl rfl
  | fatal =>
    rw [hm] at h
    cases h

theorem bind_eq_ok {b : β} (h : (m >>= f) s = .ok b s') :
    ∃ a t, m s = .ok a t ∧ f a t = .ok b s' := Outcome.bind_eq_ok h

theorem bind_of_ok {a : α} (h : m s = .ok a s') (f : α → RaiseM ε σ β) : (m >>= f) s = f a s' := by
  rw [bind_apply, h, Outcome.bind_ok]

theorem bind_of_raise (h : m s = .raise e s') (f : α → RaiseM ε σ β) :
    (m >>= f) s = .raise e s' := by
  rw [bind_apply, h, Outcome.bind_raise]

def get : RaiseM ε σ σ := fun s => .ok s s

def modify (f : σ → σ) : RaiseM ε σ Unit := fun s => .ok () (f s)

def raise (e : ε) : RaiseM ε σ α := fun s => .raise e s

def fatal : RaiseM ε σ α := fun _ => .fatal

@[simp] theorem get_apply (s : σ) : (get : RaiseM ε σ σ) s = .ok s s := rfl

@[simp] theorem modify_apply (f : σ → σ) (s : σ) :
    (modify f : RaiseM ε σ Unit) s = .ok () (f s) := rfl

@[simp] theorem raise_apply (e : ε) (s : σ) : (raise e : RaiseM ε σ α) s = .raise e s := rfl

/-! ### What a computation raises -/

section RaisesIn

variable {Q : ε → σ → Prop}

end RaisesIn

/-! ### Where a computation may leave the state -/

/-- From the state `s`, a normal return lands in an `A`-related state and a raise in an
`E`-related one. -/
def SpecAt (A E : σ → σ → Prop) (m : RaiseM ε σ α) (s : σ) : Prop :=
  match m s with
  | .ok _ s' => A s s'
  | .raise _ s' => E s s'
  | .fatal => True

def Spec (A E : σ → σ → Prop) (m : RaiseM ε σ α) : Prop := ∀ s, SpecAt A E m s

variable {A B C E F G : σ → σ → Prop}

theorem SpecAt.of_ok {a : α} (hm : m s = .ok a s') (h : A s s') : SpecAt A E m s := by
  rwa [SpecAt, hm]

theorem SpecAt.of_raise (hm : m s = .raise e s') (h : E s s') : SpecAt A E m s := by
  rwa [SpecAt, hm]

theorem SpecAt.of_fatal (hm : m s = .fatal) : SpecAt A E m s := by
  rw [SpecAt, hm]
  trivial

theorem Spec.of_ok (h : Spec A E m) {a : α} (hm : m s = .ok a s') : A s s' := by
  have := h s
  rwa [SpecAt, hm] at this

theorem Spec.of_raise (h : Spec A E m) (hm : m s = .raise e s') : E s s' := by
  have := h s
  rwa [SpecAt, hm] at this

theorem Spec.mono (h : Spec A E m) (hA : ∀ s s', A s s' → B s s') (hE : ∀ s s', E s s' → F s s') :
    Spec B F m := by
  intro s
  rw [SpecAt]
  cases hm : m s with
  | ok a s' => exact hA s s' (h.of_ok hm)
  | raise e s' => exact hE s s' (h.of_raise hm)
  | fatal => trivial

theorem SpecAt.bind_ok {a : α} (hm : m s = .ok a t) (hf : SpecAt B F (f a) t)
    (hA : ∀ u, B t u → A s u) (hE : ∀ u, F t u → E s u) : SpecAt A E (m >>= f) s := by
  rw [SpecAt, bind_apply, hm, Outcome.bind_ok]
  rw [SpecAt] at hf
  cases h : f a t with
  | ok b u => exact hA u (by rwa [h] at hf)
  | raise e u => exact hE u (by rwa [h] at hf)
  | fatal => trivial

theorem SpecAt.bind_raise (hm : m s = .raise e t) (hE : E s t) : SpecAt A E (m >>= f) s :=
  .of_raise (by rw [bind_apply, hm, Outcome.bind_raise]) hE

theorem SpecAt.bind_fatal (hm : m s = .fatal) : SpecAt A E (m >>= f) s :=
  .of_fatal (by rw [bind_apply, hm, Outcome.bind_fatal])

/-- Sequencing: a raise of the whole is a raise of the first part, or of the second part
from where the first part returned. -/
theorem Spec.bind (hm : Spec A E m) (hf : ∀ a, Spec B F (f a)) (hC : ∀ s t u, A s t → B t u → C s u)
    (hE : ∀ s t, E s t → G s t) (hF : ∀ s t u, A s t → F t u → G s u) : Spec C G (m >>= f) := by
  intro s
  cases h : m s with
  | ok a t =>
    have hA := hm.of_ok h
    exact .bind_ok h (hf a t) (fun u => hC s t u hA) (fun u => hF s t u hA)
  | raise e t => exact .bind_raise h (hE s t (hm.of_raise h))
  | fatal => exact .bind_fatal h

theorem Spec.pure (a : α) (hA : ∀ s, A s s) : Spec A E (pure a : RaiseM ε σ α) := fun s => hA s

theorem Spec.get (hA : ∀ s, A s s) : Spec A E (get : RaiseM ε σ σ) := fun s => hA s

theorem Spec.raise (e : ε) (hE : ∀ s, E s s) : Spec A E (raise e : RaiseM ε σ α) := fun s => hE s

theorem Spec.get_bind {f : σ → RaiseM ε σ β} (h : ∀ s, SpecAt A E (f s) s) :
    Spec A E (.get >>= f) := h

abbrev Quiet (Q : σ → σ → Prop) (m : RaiseM ε σ α) : Prop := Spec Q Q m

theorem Quiet.bind {Q : σ → σ → Prop} (hm : Quiet Q m) (hf : ∀ a, Quiet Q (f a))
    (ht : ∀ s t u, Q s t → Q t u → Q s u) : Quiet Q (m >>= f) :=
  Spec.bind hm hf ht (fun _ _ h => h) ht

/-! ### Computations as runs of a move relation -/

open Relation (ReflTransGen)

def Still (Q : σ → σ → Prop) (m : RaiseM ε σ α) : Prop :=
  Spec (ReflTransGen Q) (ReflTransGen Q) m

def Made (Q S : σ → σ → Prop) (m : RaiseM ε σ α) : Prop :=
  Spec (ReflTransGen S) (ReflTransGen Q) m

def Effect (S : σ → σ → Prop) (m : RaiseM ε σ α) : Prop :=
  Spec (ReflTransGen S) (fun _ _ => False) m

section Runs

variable {Q S : σ → σ → Prop} {m : RaiseM ε σ α} {f : α → RaiseM ε σ β}

theorem Still.pure (a : α) : Still Q (pure a : RaiseM ε σ α) := fun _ => .refl

theorem Still.get : Still Q (get : RaiseM ε σ σ) := fun _ => .refl

theorem Still.raise (e : ε) : Still Q (raise e : RaiseM ε σ α) := fun _ => .refl

theorem Still.fatal : Still Q (fatal : RaiseM ε σ α) := fun _ => trivial

theorem Still.modify {g : σ → σ} (h : ∀ s, Q s (g s)) :
    Still Q (modify g : RaiseM ε σ Unit) := fun s => .single (h s)

theorem Still.bind (hm : Still Q m) (hf : ∀ a, Still Q (f a)) : Still Q (m >>= f) :=
  Spec.bind hm hf (fun _ _ _ => .trans) (fun _ _ h => h) (fun _ _ _ => .trans)

theorem Still.made (hQ : ∀ s t, Q s t → S s t) (h : Still Q m) : Made Q S m :=
  .mono h (.mono hQ) (fun _ _ h => h)

theorem Still.bind_made (hQ : ∀ s t, Q s t → S s t) (hm : Still Q m)
    (hf : ∀ a, Made Q S (f a)) : Made Q S (m >>= f) :=
  .bind hm hf (fun s t _ h => (ReflTransGen.mono hQ s t h).trans) (fun _ _ h => h)
    (fun _ _ _ => .trans)

theorem Effect.pure (a : α) : Effect S (pure a : RaiseM ε σ α) := fun _ => .refl

theorem Effect.get : Effect S (get : RaiseM ε σ σ) := fun _ => .refl

theorem Effect.modify {g : σ → σ} (h : ∀ s, S s (g s)) :
    Effect S (modify g : RaiseM ε σ Unit) := fun s => .single (h s)

theorem Effect.bind (hm : Effect S m) (hf : ∀ a, Effect S (f a)) : Effect S (m >>= f) :=
  Spec.bind hm hf (fun _ _ _ => .trans) (fun _ _ h => h) (fun _ _ _ _ h => h)

theorem Effect.made (h : Effect S m) : Made Q S m := .mono h (fun _ _ h => h) (fun _ _ h => h.elim)

theorem Made.bind_effect (hm : Made Q S m) (hf : ∀ a, Effect S (f a)) : Made Q S (m >>= f) :=
  .bind hm hf (fun _ _ _ => .trans) (fun _ _ h => h) (fun _ _ _ _ h => h.elim)

end Runs

/-! ### What a computation may raise -/

def Raises (P : ε → Prop) (m : RaiseM ε σ α) : Prop := ∀ s e s', m s = .raise e s' → P e

section Raises

variable {P Q : ε → Prop} {m : RaiseM ε σ α} {f : α → RaiseM ε σ β}

theorem Raises.pure (a : α) : Raises P (pure a : RaiseM ε σ α) := by
  intro s e s' h
  cases h

theorem Raises.get : Raises P (get : RaiseM ε σ σ) := by
  intro s e s' h
  cases h

theorem Raises.modify (g : σ → σ) : Raises P (modify g : RaiseM ε σ Unit) := by
  intro s e s' h
  cases h

theorem Raises.fatal : Raises P (fatal : RaiseM ε σ α) := by
  intro s e s' h
  cases h

theorem Raises.raise {e : ε} (he : P e) : Raises P (raise e : RaiseM ε σ α) := by
  intro s e' s' h
  cases h
  exact he

theorem Raises.mono (hPQ : ∀ e, P e → Q e) (hm : Raises P m) : Raises Q m :=
  fun s e s' h => hPQ e (hm s e s' h)

theorem Raises.bind (hm : Raises P m) (hf : ∀ a, Raises P (f a)) : Raises P (m >>= f) := by
  intro s e s' h
  rw [bind_apply] at h
  cases hms : m s with
  | ok a t =>
    rw [hms] at h
    exact hf a t e s' h
  | raise e' t =>
    rw [hms] at h
    cases h
    exact hm s e s' hms
  | fatal =>
    rw [hms] at h
    cases h

end Raises

end RaiseM

end Cemu
