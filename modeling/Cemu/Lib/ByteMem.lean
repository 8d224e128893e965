import Cemu.Lib.Numerals

/-!
# Byte-addressed memory

Little-endian loads and stores of up to eight bytes over a total byte memory whose
addresses wrap at `2 ^ 64`.
-/

namespace Cemu

open BitVec

abbrev ByteMem := BitVec 64 → BitVec 8

namespace ByteMem

/-- The `n` bytes from `a` on, the lowest first. -/
def load (mem : ByteMem) (a : BitVec 64) : Nat → BitVec 64
  | 0 => 0
  | n + 1 => (mem a).setWidth 64 ||| load mem (a + 1) n <<< 8

/-- The low `n` bytes of `v`, from `a` on. -/
def store (mem : ByteMem) (a : BitVec 64) : Nat → BitVec 64 → ByteMem
  | 0, _ => mem
  | n + 1, v => store (Function.update mem a (v.setWidth 8)) (a + 1) n (v >>> 8)

def byteOf (v : BitVec 64) (k : Nat) : BitVec 8 := (v >>> (8 * k)).setWidth 8

/-- The word whose byte `k` is `f k`. -/
def pack (f : Nat → BitVec 8) : Nat → BitVec 64
  | 0 => 0
  | n + 1 => pack f n ||| (f n).setWidth 64 <<< (8 * n)

theorem byteOf_succ (v : BitVec 64) (k : Nat) : byteOf v (k + 1) = byteOf (v >>> 8) k := by
  rw [byteOf, byteOf, Nat.mul_add, Nat.add_comm, shiftRight_add]

@[simp] theorem byteOf_zero_right (v : BitVec 64) : byteOf v 0 = v.setWidth 8 := by
  simp [byteOf]

@[simp] theorem byteOf_zero_left (k : Nat) : byteOf 0#64 k = 0#8 := by
  simp [byteOf]

/-- A store changes the bytes in its range and no others. -/
theorem store_apply (mem : ByteMem) (a : BitVec 64) (n : Nat) (v : BitVec 64)
    (p : BitVec 64) (hn : n ≤ 8) :
    store mem a n v p = if (p - a).toNat < n then byteOf v (p - a).toNat else mem p := by
  induction n generalizing mem a v with
  | zero => simp [store]
  | succ n ih =>
    rw [store, ih _ _ _ (by omega)]
    by_cases hpa : p = a
    · subst hpa
      have h1 : (p - (p + 1)).toNat = 2 ^ 64 - 1 := by
        rw [← BitVec.sub_sub, BitVec.sub_self]; rfl
      rw [if_neg (by omega)]
      simp
    · have h1 : (p - a).toNat = (p - (a + 1)).toNat + 1 := by bv_omega
      rw [h1, byteOf_succ, Function.update_of_ne hpa]
      simp only [Nat.add_lt_add_iff_right]

variable {n k : Nat} {a b v : BitVec 64}

section

variable (mem : ByteMem)

section

variable (a : BitVec 64)

theorem store_same (v : BitVec 64) (hn : n ≤ 8) (hk : k < n) :
    store mem a n v (a + .ofNat 64 k) = byteOf v k := by
  have h : (a + .ofNat 64 k - a).toNat = k := by bv_omega
  rw [store_apply _ _ _ _ _ hn, h, if_pos hk]

theorem store_other (v : BitVec 64) {p : BitVec 64} (hn : n ≤ 8) (hp : n ≤ (p - a).toNat) :
    store mem a n v p = mem p := by
  rw [store_apply _ _ _ _ _ hn, if_neg (by omega)]

theorem load_congr {a : BitVec 64} {mem mem' : ByteMem}
    (h : ∀ k < n, mem (a + .ofNat 64 k) = mem' (b + .ofNat 64 k)) :
    load mem a n = load mem' b n := by
  induction n generalizing a b with
  | zero => rfl
  | succ n ih =>
    have h0 : mem a = mem' b := by simpa using h 0 (by omega)
    have hs : load mem (a + 1) n = load mem' (b + 1) n := by
      apply ih
      intro k hk
      have := h (k + 1) (by omega)
      have e : BitVec.ofNat 64 (k + 1) = 1 + .ofNat 64 k := by
        rw [Nat.add_comm]; exact ofNat_add 1 k
      rwa [e, ← BitVec.add_assoc, ← BitVec.add_assoc] at this
    rw [load, load, h0, hs]

theorem getLsbD_byteOf (v : BitVec 64) (k i : Nat) :
    (byteOf v k).getLsbD i = (decide (i < 8) && v.getLsbD (8 * k + i)) := by
  simp [byteOf]

theorem byteOf_eq_zero (hv : v.toNat < 2 ^ (8 * n)) (hk : n ≤ k) : byteOf v k = 0#8 := by
  have hlt : v.toNat < 2 ^ (8 * k) :=
    Nat.lt_of_lt_of_le hv (Nat.pow_le_pow_right (by decide) (by omega))
  apply eq_of_toNat_eq
  simp [byteOf, Nat.shiftRight_eq_div_pow, Nat.div_eq_of_lt hlt]

theorem byteOf_pack (f : Nat → BitVec 8) (hn : n ≤ 8) :
    byteOf (pack f n) k = if k < n then f k else 0 := by
  induction n with
  | zero => simp [pack]
  | succ n ih =>
    have hor : byteOf (pack f (n + 1)) k
        = byteOf (pack f n) k ||| byteOf ((f n).setWidth 64 <<< (8 * n)) k := by
      simp only [pack, byteOf, ushiftRight_or_distrib, setWidth_or]
    have hshift : byteOf ((f n).setWidth 64 <<< (8 * n)) k = if k = n then f n else 0 := by
      apply eq_of_getLsbD_eq
      intro i hi
      rw [getLsbD_byteOf, getLsbD_shiftLeft]
      by_cases hk : k = n
      · subst hk
        have h1 : 8 * k + i < 64 := by omega
        have h4 : i < 64 := by omega
        simp [h1, h4, hi]
      · rw [if_neg hk]
        rcases Nat.lt_or_gt_of_ne hk with hlt | hgt
        · have : 8 * k + i < 8 * n := by omega
          simp [this]
        · have : (f n).getLsbD (8 * k + i - 8 * n) = false := getLsbD_of_ge _ _ (by omega)
          simp [this]
    rw [hor, hshift, ih (by omega)]
    by_cases hk : k = n
    · subst hk
      simp
    · have : k < n + 1 ↔ k < n := by omega
      simp [hk, this]

theorem byteOf_load (hn : n ≤ 8) (hk : k < n) :
    byteOf (load mem a n) k = mem (a + .ofNat 64 k) := by
  induction n generalizing a k with
  | zero => omega
  | succ n ih =>
    rw [load]
    cases k with
    | zero =>
      simp
    | succ k =>
      have e : BitVec.ofNat 64 (k + 1) = 1 + .ofNat 64 k := by
        rw [Nat.add_comm]; exact ofNat_add 1 k
      rw [e, ← BitVec.add_assoc, ← ih (a + 1) (by omega) (by omega)]
      apply eq_of_getLsbD_eq
      intro i hi
      have h8 : ¬ 8 * (k + 1) + i < 8 := by omega
      have h64 : 8 * (k + 1) + i < 64 := by omega
      have hsub : 8 * (k + 1) + i - 8 = 8 * k + i := by omega
      have hlow : (mem a).getLsbD (8 * (k + 1) + i) = false := getLsbD_of_ge _ _ (by omega)
      simp only [getLsbD_byteOf, getLsbD_or, getLsbD_setWidth,
        getLsbD_shiftLeft, hlow, h8, h64, hsub, decide_true, decide_false,
        Bool.false_or, Bool.true_and, Bool.not_false]

theorem byteOf_load_of_ge (hk : n ≤ k) : byteOf (load mem a n) k = 0#8 := by
  induction n generalizing a k with
  | zero => exact byteOf_zero_left k
  | succ n ih =>
    obtain ⟨k, rfl⟩ : ∃ j, k = j + 1 := ⟨k - 1, by omega⟩
    have hrest := ih (a + 1) (k := k) (by omega)
    apply eq_of_getLsbD_eq
    intro i hi
    have hbit := congrArg (·.getLsbD i) hrest
    have hsub : 8 * (k + 1) + i - 8 = 8 * k + i := by omega
    have hlow : (mem a).getLsbD (8 * (k + 1) + i) = false := getLsbD_of_ge _ _ (by omega)
    simp only [getLsbD_byteOf, hi, decide_true, Bool.true_and] at hbit
    simp only [load, getLsbD_byteOf, getLsbD_or, getLsbD_setWidth,
      getLsbD_shiftLeft, hlow, hsub, hbit, Bool.and_false, Bool.or_self,
      getLsbD_zero]

theorem eq_of_byteOf {v' : BitVec 64} (h : ∀ k < 8, byteOf v k = byteOf v' k) : v = v' := by
  apply eq_of_getLsbD_eq
  intro i hi
  have hk := congrArg (·.getLsbD (i % 8)) (h (i / 8) (by omega))
  simp only [getLsbD_byteOf] at hk
  rw [show 8 * (i / 8) + i % 8 = i by omega] at hk
  simpa [Nat.mod_lt] using hk

theorem load_eq_pack (hn : n ≤ 8) : load mem a n = pack (fun k => mem (a + .ofNat 64 k)) n := by
  apply eq_of_byteOf
  intro k _
  rw [byteOf_pack _ hn]
  split
  · next hk => exact byteOf_load mem a hn hk
  · next hk => exact byteOf_load_of_ge mem a (Nat.not_lt.1 hk)

theorem pack_congr {f g : Nat → BitVec 8} (h : ∀ k < n, f k = g k) : pack f n = pack g n := by
  induction n with
  | zero => rfl
  | succ n ih => rw [pack, pack, ih fun k hk => h k (by omega), h n (by omega)]

theorem store_succ (a v : BitVec 64) (hn : n < 8) :
    store mem a (n + 1) v = Function.update (store mem a n v) (a + .ofNat 64 n) (byteOf v n) := by
  funext p
  rw [store_apply _ _ _ _ _ (by omega), Function.update_apply, store_apply _ _ _ _ _ (by omega)]
  have hp : p = a + .ofNat 64 n ↔ (p - a).toNat = n := by bv_omega
  by_cases h : p = a + .ofNat 64 n
  · rw [if_pos h, hp.1 h, if_pos (by omega)]
  have hne := mt hp.2 h
  rw [if_neg h]
  by_cases hlt : (p - a).toNat < n
  · rw [if_pos hlt, if_pos (by omega)]
  · rw [if_neg hlt, if_neg (by omega)]

theorem load_store_same (a v : BitVec 64) : load (store mem a 8 v) a 8 = v := by
  apply eq_of_byteOf
  intro k hk
  rw [byteOf_load _ _ (Nat.le_refl 8) hk, store_same _ _ _ (Nat.le_refl 8) hk]

theorem load_store_of_small (hn : n ≤ 8) (hv : ∀ k, n ≤ k → byteOf v k = 0#8) :
    load (store mem a n v) a n = v := by
  apply eq_of_byteOf
  intro k hk
  rcases Nat.lt_or_ge k n with hlt | hge
  · rw [byteOf_load _ _ hn hlt, store_same _ _ _ hn hlt]
  · rw [byteOf_load_of_ge _ _ hge, hv k hge]

end

theorem load_store_other (v : BitVec 64) (hne : b ≠ a) (halign : (b - a).toNat % 8 = 0) :
    load (store mem a 8 v) b 8 = load mem b 8 := by
  apply load_congr
  intro k hk
  apply store_other _ _ _ (Nat.le_refl 8)
  have hpos : (b - a).toNat ≠ 0 := by
    intro h
    apply hne
    have hzero : b - a = 0#64 := eq_of_toNat_eq (by simpa using h)
    simpa using BitVec.sub_eq_iff_eq_add.mp hzero
  have hsum : (b + .ofNat 64 k - a).toNat = (b - a).toNat + k := by bv_omega
  omega

end

end ByteMem

end Cemu
