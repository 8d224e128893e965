import Cemu.Lib.RaiseM

/-!
# Lookups in a tree of tables

A lookup starts at a root table and reads one entry a level: an entry is invalid, a leaf, or a
pointer to the table of the level below. `follow` is the lookup as a function of what the tables
hold; `Follows` says that a loop which may raise makes this lookup, and `Follows.run` that it then
ends the way `follow` says. `Use` is what is done with the entry found: it is checked, updated in
place, and turned into a result, and each of the three can fail.
-/

namespace Cemu.RadixWalk

variable {α β σ ε ω : Type}

/-- One lookup: where its entry lies in the table of a level, and how an entry is understood. -/
structure Lookup (α β : Type) where
  slot : Nat → α → α
  invalid : β → Bool
  leaf : β → Bool
  /-- The table a pointer names. -/
  next : β → α

inductive End (α β σ : Type) where
  /-- The entry at `a` cannot be read. -/
  | refused (a : α) (s : σ)
  /-- An invalid entry was read. -/
  | rejected (s : σ)
  /-- The leaf `e` was read at `a`, with `level` levels below it. -/
  | reached (a : α) (e : β) (level : Nat) (s : σ)
  /-- The last level held the pointer `e`. -/
  | exhausted (a : α) (e : β) (s : σ)

def End.state : End α β σ → σ
  | refused _ s => s
  | rejected s => s
  | reached _ _ _ s => s
  | exhausted _ _ s => s

/-- The lookup through the `n` levels from the table `base` on; `look` reads one entry, and `a`
and `e` are the entry last read. -/
def follow (L : Lookup α β) (look : α → σ → Option β × σ) : Nat → α → α → β → σ → End α β σ
  | 0, _, a, e, s => .exhausted a e s
  | n + 1, base, _, _, s =>
    match look (L.slot n base) s with
    | (none, s') => .refused (L.slot n base) s'
    | (some e, s') =>
      if L.invalid e then .rejected s'
      else if L.leaf e then .reached (L.slot n base) e n s'
      else follow L look n (L.next e) (L.slot n base) e s'

section

variable {L : Lookup α β} {look : α → σ → Option β × σ} {n : Nat} {base a : α} {e : β} {s : σ}

section

variable {R : σ → σ → Prop} (hrefl : ∀ s, R s s) (htrans : ∀ s t u, R s t → R t u → R s u)
  (hlook : ∀ a s, R s (look a s).2)

include hrefl htrans hlook

theorem follow_keeps :
    R s (follow L look n base a e s).state := by
  induction n generalizing base a e s with
  | zero => exact hrefl s
  | succ n ih =>
    have hone := hlook (L.slot n base) s
    rw [follow]
    cases hread : look (L.slot n base) s with
    | mk found s' =>
      rw [hread] at hone
      cases found with
      | none => exact hone
      | some e' =>
        simp only
        split
        · exact hone
        split
        · exact hone
        · exact htrans _ _ _ hone ih

theorem follow_reached
    {a' : α} {e' : β} {k : Nat} {s' : σ} (h : follow L look n base a e s = .reached a' e' k s') :
    L.invalid e' = false ∧ L.leaf e' = true ∧ ∃ s1, R s s1 ∧ look a' s1 = (some e', s') := by
  induction n generalizing base a e s with
  | zero => cases h
  | succ n ih =>
    rw [follow] at h
    have hone := hlook (L.slot n base) s
    cases hread : look (L.slot n base) s with
    | mk found s1 =>
      rw [hread] at h hone
      cases found with
      | none => cases h
      | some e1 =>
        simp only at h
        split at h
        · cases h
        rename_i hval
        split at h
        · next hleaf =>
          cases h
          exact ⟨by simpa using hval, hleaf, s, hrefl s, hread⟩
        · obtain ⟨hval', hleaf', s2, hrest, hlast⟩ := ih h
          exact ⟨hval', hleaf', s2, htrans _ _ _ hone hrest, hlast⟩

end

end

/-! ## Loops that make the lookup -/

/-- How a loop ends that raises `deny a` where the entry at `a` cannot be read and `bad` at an
invalid entry. -/
def End.outcome (deny : α → ε) (bad : ε) (found : α → β → Int → ω) :
    End α β σ → Outcome ε σ ω
  | refused a s => .raise (deny a) s
  | rejected s => .raise bad s
  | reached a e level s => .ok (found a e level) s
  | exhausted a e s => .ok (found a e (-1)) s

/-- `loop` reads one entry a level with `read` and hands what it ends at to `found`. -/
structure Follows (L : Lookup α β) (read : α → RaiseM ε σ β) (bad : ε) (found : α → β → Int → ω)
    (loop : Nat → α → α → β → RaiseM ε σ ω) : Prop where
  out : ∀ base a e, loop 0 base a e = pure (found a e (-1))
  level : ∀ n base a e, loop (n + 1) base a e = (do
    let e ← read (L.slot n base)
    if L.invalid e then RaiseM.raise bad
    else if L.leaf e then pure (found (L.slot n base) e n)
    else loop n (L.next e) (L.slot n base) e)

/-- `read` returns the entry that `look` sees and raises `deny a` where it sees none. -/
def ReadsAs (read : α → RaiseM ε σ β) (look : α → σ → Option β × σ) (deny : α → ε) : Prop :=
  ∀ a s, read a s = match look a s with
    | (some e, s') => .ok e s'
    | (none, s') => .raise (deny a) s'

theorem Follows.run {L : Lookup α β} {look : α → σ → Option β × σ} {read : α → RaiseM ε σ β}
    {deny : α → ε} {bad : ε} {found : α → β → Int → ω} {loop : Nat → α → α → β → RaiseM ε σ ω}
    (h : Follows L read bad found loop) (hread : ReadsAs read look deny) (n : Nat) (base a : α)
    (e : β) (s : σ) :
    loop n base a e s = (follow L look n base a e s).outcome deny bad found := by
  induction n generalizing base a e s with
  | zero =>
    rw [h.out]
    rfl
  | succ n ih =>
    rw [h.level, RaiseM.bind_apply, hread _ s, follow]
    cases look (L.slot n base) s with
    | mk entry s' =>
      cases entry with
      | none => rfl
      | some e' =>
        simp only [Outcome.bind_ok]
        split
        · rfl
        split
        · rfl
        · exact ih ..

/-! ## Using what was found -/

/-- The entry found is checked, updated where it was read, and only then turned into a result. -/
structure Use (α β γ σ ε : Type) where
  permits : β → Bool
  update : β → Option β
  store : α → β → RaiseM ε σ Unit
  place : β → Int → Option γ
  bad : ε

variable {γ : Type} [DecidableEq β]

def Use.write (U : Use α β γ σ ε) (a : α) (e new : β) : RaiseM ε σ Unit :=
  if new = e then pure () else U.store a new

def Use.run (U : Use α β γ σ ε) (a : α) (e : β) (level : Int) : RaiseM ε σ γ :=
  if !U.permits e then RaiseM.raise U.bad
  else
    match U.update e with
    | none => RaiseM.raise U.bad
    | some new => do
      U.write a e new
      match U.place new level with
      | none => RaiseM.raise U.bad
      | some p => pure p

/-- The entry is permitted and updated to another one, which then turns out to have no result. -/
structure Use.Spoils (U : Use α β γ σ ε) (e : β) (level : Int) (new : β) : Prop where
  permits : U.permits e = true
  update : U.update e = some new
  changed : new ≠ e
  misplaced : U.place new level = none

section

variable {U : Use α β γ σ ε} {a : α} {e new : β} {level : Int} {s s' : σ} {t : ε}

theorem Use.run_raise (h : U.run a e level s = .raise t s') :
    (t = U.bad ∧ s' = s) ∨ (∃ new, U.update e = some new ∧ U.store a new s = .raise t s') ∨
      (t = U.bad ∧ ∃ new, U.Spoils e level new ∧ U.store a new s = .ok () s') := by
  unfold Use.run at h
  split at h
  · cases h
    exact .inl ⟨rfl, rfl⟩
  rename_i hperm
  cases hnew : U.update e with
  | none =>
    rw [hnew] at h
    cases h
    exact .inl ⟨rfl, rfl⟩
  | some new =>
    rw [hnew] at h
    simp only [RaiseM.bind_apply, Use.write] at h
    by_cases heq : new = e
    · simp only [if_pos heq] at h
      cases hplace : U.place new level with
      | none =>
        rw [hplace] at h
        cases h
        exact .inl ⟨rfl, rfl⟩
      | some p =>
        rw [hplace] at h
        cases h
    · simp only [if_neg heq] at h
      cases hstore : U.store a new s with
      | fatal =>
        rw [hstore] at h
        cases h
      | raise t' s1 =>
        rw [hstore] at h
        cases h
        exact .inr (.inl ⟨new, rfl, hstore⟩)
      | ok u s1 =>
        rw [hstore] at h
        cases hplace : U.place new level with
        | none =>
          rw [hplace] at h
          cases h
          exact .inr (.inr ⟨rfl, new, ⟨by simpa using hperm, hnew, heq, hplace⟩, hstore⟩)
        | some p =>
          rw [hplace] at h
          cases h

def End.use (U : Use α β γ σ ε) (deny : α → ε) : End α β σ → Outcome ε σ γ
  | refused a s => .raise (deny a) s
  | rejected s => .raise U.bad s
  | reached a e level s => U.run a e level s
  | exhausted a e s => U.run a e (-1) s

/-- A lookup and use that raises was refused an entry, or raised with no store made, or in the
store, or spoiled the leaf it found. -/
theorem End.use_raise {x : End α β σ} {deny : α → ε} (hplace : ∀ e, U.place e (-1) ≠ none)
    (h : x.use U deny = .raise t s') :
    (∃ a, x = .refused a s' ∧ t = deny a) ∨ (t = U.bad ∧ s' = x.state) ∨
      (∃ a new, U.store a new x.state = .raise t s') ∨
      (t = U.bad ∧ ∃ a e level s1 new, x = .reached a e level s1 ∧ U.Spoils e level new ∧
        U.store a new s1 = .ok () s') := by
  cases x with
  | refused a s =>
    cases h
    exact .inl ⟨a, rfl, rfl⟩
  | rejected s =>
    cases h
    exact .inr (.inl ⟨rfl, rfl⟩)
  | reached a e level s =>
    obtain hbad | ⟨new, -, hstore⟩ | ⟨hbad, new, hspoil, hstore⟩ := Use.run_raise h
    · exact .inr (.inl hbad)
    · exact .inr (.inr (.inl ⟨a, new, hstore⟩))
    · exact .inr (.inr (.inr ⟨hbad, a, e, level, s, new, rfl, hspoil, hstore⟩))
  | exhausted a e s =>
    obtain hbad | ⟨new, -, hstore⟩ | ⟨-, new, hspoil, -⟩ := Use.run_raise h
    · exact .inr (.inl hbad)
    · exact .inr (.inr (.inl ⟨a, new, hstore⟩))
    · exact absurd hspoil.misplaced (hplace new)

theorem Use.Spoils.run (h : U.Spoils e level new) (hstore : U.store a new s = .ok () s') :
    U.run a e level s = .raise U.bad s' := by
  simp [Use.run, Use.write, h.permits, h.update, h.changed, h.misplaced, hstore]

end

end Cemu.RadixWalk
