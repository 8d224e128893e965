import Cemu.Lib.Numerals

/-!
# Counting loops that may fail

`for (k = 0; k < n; k++)` over a state, where a body without a result stops the loop, and its
invariant rule: a body that always has a result under the invariant gives a loop that has one.
-/

namespace Cemu

variable {σ : Type}

/-- The loop `for k < n`, which has no result once a body has none. -/
def forUpTo (body : Nat → σ → Option σ) (s : σ) : Nat → Option σ
  | 0 => some s
  | n + 1 => (forUpTo body s n).bind (body n)

variable {n : Nat} {body : Nat → σ → Option σ}

/-- The invariant rule for a loop that runs to its end. -/
theorem forUpTo_some {f : Nat → σ → Option σ} {I : Nat → σ → Prop} {s : σ} (hinit : I 0 s)
    (hstep : ∀ k s, k < n → I k s → ∃ s', f k s = some s' ∧ I (k + 1) s') :
    ∃ s', forUpTo f s n = some s' ∧ I n s' := by
  induction n with
  | zero => exact ⟨s, rfl, hinit⟩
  | succ n ih =>
    obtain ⟨s1, hpre, hinv⟩ := ih fun k s hk => hstep k s (by omega)
    obtain ⟨s2, hlast, hinv'⟩ := hstep n s1 (by omega) hinv
    exact ⟨s2, by rw [forUpTo, hpre, Option.bind_some, hlast], hinv'⟩

theorem forUpTo_isSome {s : σ} (hstep : ∀ k s, k < n → (body k s).isSome) :
    (forUpTo body s n).isSome := by
  obtain ⟨s', h, -⟩ := forUpTo_some (I := fun _ _ => True) trivial fun k s hk _ =>
    let ⟨s', h⟩ := Option.isSome_iff_exists.mp (hstep k s hk)
    ⟨s', h, trivial⟩
  rw [h]
  rfl

/-- The invariant rule for a loop that has run to its end. -/
theorem forUpTo_inv {I : σ → Prop} {s s' : σ} (hinit : I s)
    (hkeep : ∀ k s s', I s → body k s = some s' → I s') (h : forUpTo body s n = some s') :
    I s' := by
  induction n generalizing s' with
  | zero => exact Option.some.inj h ▸ hinit
  | succ n ih =>
    obtain ⟨s1, hpre, hlast⟩ := Option.bind_eq_some_iff.mp h
    exact hkeep n s1 s' (ih hpre) hlast

theorem forUpTo_isSome_iff {I : σ → Prop} {P : Nat → Prop} {s : σ} (hinit : I s)
    (hkeep : ∀ k s s', I s → body k s = some s' → I s')
    (hiff : ∀ k s, I s → ((body k s).isSome ↔ P k)) : (forUpTo body s n).isSome ↔ ∀ k < n, P k := by
  induction n with
  | zero => simp [forUpTo]
  | succ n ih =>
    rw [Nat.forall_lt_succ_right, ← ih, forUpTo]
    cases hpre : forUpTo body s n with
    | none => simp
    | some s1 => simpa using hiff n s1 (forUpTo_inv hinit hkeep hpre)

theorem isSome_bind {α β : Type} {x : Option α} {f : α → Option β} (hx : x.isSome)
    (hf : ∀ a, (f a).isSome) : (x.bind f).isSome := by
  obtain ⟨a, rfl⟩ := Option.isSome_iff_exists.mp hx
  exact hf a

end Cemu
