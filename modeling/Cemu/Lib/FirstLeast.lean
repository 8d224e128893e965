import Cemu.Lib.Numerals

/-!
# The first least match of a list

One pass over a list that keeps the best candidate so far and replaces it only by a
strictly smaller one. It ends with the least matching element, and with the earliest of
them when several are equally small.
-/

namespace Cemu

open List

section

variable {α κ : Type} [LinearOrder κ] (p : α → Bool) (key : α → κ)

/-- A match replaces the best one so far only if its key is smaller. -/
def leastStep (best : Option (Nat × α)) (i : Nat) (a : α) : Option (Nat × α) :=
  if p a then
    match best with
    | none => some (i, a)
    | some (_, b) => if key a < key b then some (i, a) else best
  else best

def leastFrom (best : Option (Nat × α)) (i : Nat) : List α → Option (Nat × α)
  | [] => best
  | a :: l => leastFrom (leastStep p key best i a) (i + 1) l

def firstLeast (l : List α) : Option (Nat × α) := leastFrom p key none 0 l

/-- No match at all, or one of least key with every match before it larger. -/
def IsFirstLeast (l : List α) : Option (Nat × α) → Prop
  | none => ∀ b ∈ l, p b = false
  | some (i, a) => l[i]? = some a ∧ p a ∧ ∀ j b, l[j]? = some b → p b →
      key a ≤ key b ∧ (j < i → key a < key b)

variable {p key}

theorem IsFirstLeast.nil : IsFirstLeast p key [] none := by
  intro b hb
  cases hb

variable {best o : Option (Nat × α)}

theorem getElem?_concat_cases {l : List α} {a b : α} {j : Nat} (h : (l ++ [a])[j]? = some b) :
    l[j]? = some b ∨ (j = l.length ∧ b = a) := by
  rw [getElem?_append] at h
  split at h
  · exact .inl h
  rw [getElem?_singleton] at h
  split at h
  · cases h
    exact .inr ⟨by omega, rfl⟩
  · cases h

theorem IsFirstLeast.keep {l : List α} {i : Nat} {a b : α} (h : IsFirstLeast p key l (some (i, b)))
    (ha : p a → key b ≤ key a) : IsFirstLeast p key (l ++ [a]) (some (i, b)) := by
  obtain ⟨hi, hpb, hmin⟩ := h
  have hil : i < l.length := (List.getElem?_eq_some_iff.mp hi).1
  refine ⟨by rw [List.getElem?_append_left hil]; exact hi, hpb, fun j c hj hc => ?_⟩
  rcases getElem?_concat_cases hj with hj | ⟨rfl, rfl⟩
  · exact hmin j c hj hc
  · exact ⟨ha hc, fun h => absurd h (by omega)⟩

theorem IsFirstLeast.take {l : List α} {a : α} (hp : p a)
    (hless : ∀ (j : Nat) b, l[j]? = some b → p b → key a < key b) :
    IsFirstLeast p key (l ++ [a]) (some (l.length, a)) := by
  refine ⟨by simp, hp, fun j b hj hb => ?_⟩
  rcases getElem?_concat_cases hj with hj | ⟨rfl, rfl⟩
  · exact ⟨(hless j b hj hb).le, fun _ => hless j b hj hb⟩
  · exact ⟨le_rfl, fun h => absurd h (Nat.lt_irrefl _)⟩

/-- One step of the scan keeps what is known of the prefix. -/
theorem IsFirstLeast.concat {l : List α} (a : α) (h : IsFirstLeast p key l best) :
    IsFirstLeast p key (l ++ [a]) (leastStep p key best l.length a) := by
  unfold leastStep
  cases best with
  | none =>
    split
    · next hp =>
      refine .take hp fun j b hj hb => ?_
      rw [h b (mem_of_getElem? hj)] at hb
      cases hb
    · next hp =>
      intro b hb
      rcases mem_append.mp hb with hb | hb
      · exact h b hb
      · rw [mem_singleton.mp hb]
        simpa using hp
  | some ib =>
    split
    · next hp =>
      dsimp only
      split
      · next hlt => exact .take hp fun j c hj hc => hlt.trans_le (h.2.2 j c hj hc).1
      · next hge => exact h.keep fun _ => not_lt.mp hge
    · next hp => exact h.keep fun ha => absurd ha hp

theorem IsFirstLeast.scan {l1 : List α} (h : IsFirstLeast p key l1 best) (l2 : List α) :
    IsFirstLeast p key (l1 ++ l2) (leastFrom p key best l1.length l2) := by
  induction l2 generalizing l1 best with
  | nil => simpa [leastFrom] using h
  | cons a l2 ih =>
    have := ih (h.concat a)
    simpa [leastFrom] using this

theorem isFirstLeast_firstLeast (l : List α) : IsFirstLeast p key l (firstLeast p key l) := by
  have h : IsFirstLeast p key [] none := .nil
  simpa [firstLeast] using h.scan l

theorem IsFirstLeast.unique {l : List α} {o' : Option (Nat × α)} (h : IsFirstLeast p key l o)
    (h' : IsFirstLeast p key l o') : o = o' := by
  cases o with
  | none =>
    cases o' with
    | none => rfl
    | some ib =>
      obtain ⟨i, b⟩ := ib
      have := h b (mem_of_getElem? h'.1)
      rw [h'.2.1] at this
      cases this
  | some ia =>
    obtain ⟨i, a⟩ := ia
    cases o' with
    | none =>
      have := h' a (mem_of_getElem? h.1)
      rw [h.2.1] at this
      cases this
    | some jb =>
      obtain ⟨j, b⟩ := jb
      have hab := h.2.2 j b h'.1 h'.2.1
      have hba := h'.2.2 i a h.1 h.2.1
      have hij : i = j := by
        rcases Nat.lt_trichotomy i j with hlt | heq | hgt
        · exact absurd (hba.2 hlt) (not_lt.mpr hab.1)
        · exact heq
        · exact absurd (hab.2 hgt) (not_lt.mpr hba.1)
      subst hij
      have := h.1.symm.trans h'.1
      simp only [Option.some.injEq] at this
      rw [this]

theorem IsFirstLeast.congr {q : α → Bool} {l : List α} (hpq : ∀ a ∈ l, p a = q a)
    (h : IsFirstLeast p key l o) : IsFirstLeast q key l o := by
  cases o with
  | none =>
    intro b hb
    rw [← hpq b hb]
    exact h b hb
  | some ia =>
    obtain ⟨i, a⟩ := ia
    obtain ⟨hi, hpa, hmin⟩ := h
    refine ⟨hi, hpq a (mem_of_getElem? hi) ▸ hpa, ?_⟩
    intro j b hj hb
    exact hmin j b hj (by rw [hpq b (mem_of_getElem? hj)]; exact hb)

theorem firstLeast_eq_iff (l : List α) (o : Option (Nat × α)) :
    firstLeast p key l = o ↔ IsFirstLeast p key l o :=
  ⟨fun h => h ▸ isFirstLeast_firstLeast l, fun h => (isFirstLeast_firstLeast l).unique h⟩

end

end Cemu
