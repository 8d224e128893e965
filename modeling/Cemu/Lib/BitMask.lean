import Cemu.Lib.Numerals

/-!
# Words seen through a mask

How clearing, setting and merging bits of a word look to a reader who only sees the bits
under a mask. The side conditions are closed facts about constants.
-/

namespace Cemu.BitMask

open BitVec

variable {w : Nat} {c k m x y : BitVec w}

theorem clear_and (h : c &&& k = 0#w) (x : BitVec w) : x &&& ~~~c &&& k = x &&& k := by
  have hk : ~~~c &&& k = k := by
    ext i hi
    have hi' := congrArg (·.getLsbD i) h
    simp only [getLsbD_and, getLsbD_zero] at hi'
    simp only [← getLsbD_eq_getElem]
    grind
  rw [BitVec.and_assoc, hk]

theorem set_and (h : c &&& k = 0#w) (x : BitVec w) : (x ||| c) &&& k = x &&& k := by
  rw [and_or_distrib_right, h, or_zero]

theorem merge_and_outside (h : m &&& k = 0#w) (x y : BitVec w) :
    ((x &&& ~~~m) ||| (y &&& m)) &&& k = x &&& k := by
  rw [and_or_distrib_right, clear_and h, BitVec.and_assoc y, h, and_zero, or_zero]

theorem merge_and_inside (h : m &&& k = k) (x y : BitVec w) :
    ((x &&& ~~~m) ||| (y &&& m)) &&& k = y &&& k := by
  have hk : ~~~m &&& k = 0#w := by
    rw [← h, ← BitVec.and_assoc, BitVec.and_comm (~~~m), BitVec.and_not_self]
    exact zero_and
  rw [and_or_distrib_right, BitVec.and_assoc, hk, and_zero, zero_or,
    BitVec.and_assoc, h]

/-- Two sets of bits written from one word into another differ, under a mask, only where exactly
one of them writes and the words differ. -/
theorem merge_and_eq_iff (x y m n k : BitVec w) :
    ((x &&& ~~~m) ||| (y &&& m)) &&& k = ((x &&& ~~~n) ||| (y &&& n)) &&& k ↔
      x &&& ((m ^^^ n) &&& k) = y &&& ((m ^^^ n) &&& k) := by
  have hbit : ∀ a b p q r : Bool, ((a && !p || b && p) && r) = ((a && !q || b && q) && r) ↔
      (a && ((p ^^ q) && r)) = (b && ((p ^^ q) && r)) := by decide
  rw [eq_of_getLsbD_eq_iff, eq_of_getLsbD_eq_iff]
  refine forall_congr' fun i => forall_congr' fun hi => ?_
  simp only [getLsbD_and, getLsbD_or, getLsbD_not, getLsbD_xor, hi,
    decide_true, Bool.true_and]
  exact hbit _ _ _ _ _

theorem and_bit_eq_iff {k : Nat} (hk : k < w) :
    x &&& 1#w <<< k = y &&& 1#w <<< k ↔ x.getLsbD k = y.getLsbD k := by
  have hbit (i : Nat) : (1#w <<< k).getLsbD i = decide (k = i) := by
    rw [← twoPow_eq, getLsbD_twoPow, decide_eq_true hk, Bool.true_and]
  rw [eq_of_getLsbD_eq_iff]
  simp only [getLsbD_and, hbit]
  constructor
  · intro h
    have hi := h k hk
    rwa [decide_eq_true rfl, Bool.and_true, Bool.and_true] at hi
  · intro h i _
    by_cases hki : k = i
    · rw [← hki, h]
    · rw [decide_eq_false hki, Bool.and_false, Bool.and_false]

theorem replace_and (h : c &&& m = c) (x : BitVec w) : ((x &&& ~~~m) ||| c) &&& m = c := by
  rw [← h, merge_and_inside BitVec.and_self]

theorem and_and_eq_zero (h : c &&& k = 0#w) (x : BitVec w) : x &&& c &&& k = 0#w := by
  rw [BitVec.and_assoc, h, and_zero]

theorem and_congr (h : x &&& m = y &&& m) (hk : m &&& k = k) : x &&& k = y &&& k := by
  rw [← hk, ← BitVec.and_assoc, ← BitVec.and_assoc, h]

theorem and_shiftLeft (x c : BitVec w) (n : Nat) : x &&& c <<< n = (x >>> n &&& c) <<< n := by
  ext i hi
  simp only [getElem_and, getElem_shiftLeft, getElem_ushiftRight]
  by_cases h : i < n
  · simp [h]
  · simp only [h, decide_false, Bool.not_false, Bool.true_and]
    rw [show n + (i - n) = i by omega, getLsbD_eq_getElem hi]

theorem and_ushiftRight {n : Nat} (h : c >>> n = BitVec.allOnes w >>> n) (x : BitVec w) :
    (x &&& c) >>> n = x >>> n := by
  rw [ushiftRight_and_distrib, h, ← ushiftRight_and_distrib, and_allOnes]

def field (x : BitVec w) (lo : Nat) (m : BitVec w) : BitVec w := x >>> lo &&& m

theorem field_or (x y : BitVec w) (lo : Nat) (m : BitVec w) :
    field (x ||| y) lo m = field x lo m ||| field y lo m := by
  rw [field, field, field, ushiftRight_or_distrib, and_or_distrib_right]

theorem field_and_eq_zero {lo : Nat} (h : field c lo m = 0#w) (x : BitVec w) :
    field (x &&& c) lo m = 0#w := by
  rw [field] at h
  rw [field, ushiftRight_and_distrib, BitVec.and_assoc, h, and_zero]

theorem and_bit_eq_zero {k : Nat} : x &&& 1#w <<< k = 0#w ↔ x.getLsbD k = false := by
  constructor
  · intro h
    have hk := congrArg (·.getLsbD k) h
    simp only [getLsbD_and, getLsbD_shiftLeft, getLsbD_zero,
      getLsbD_one] at hk
    by_cases hlt : k < w
    · have hw : 0 < w := by omega
      simpa [hlt, hw] using hk
    · exact getLsbD_of_ge x k (Nat.not_lt.mp hlt)
  · intro h
    ext j hj
    simp only [getElem_and, getElem_shiftLeft, getElem_zero]
    rw [← getLsbD_eq_getElem]
    by_cases hjk : j = k
    · simp [hjk, h]
    · have hother : ¬ (j - k = 0 ∧ ¬ j < k) := by omega
      grind

theorem or_bit_of_set {k : Nat} (h : x.getLsbD k = true) : x ||| 1#w <<< k = x := by
  ext j hj
  simp only [getElem_or, getElem_shiftLeft]
  rw [← getLsbD_eq_getElem]
  by_cases hjk : j = k
  · simp [hjk, h]
  · have hother : ¬ (j - k = 0 ∧ ¬ j < k) := by omega
    grind

theorem and_bit_of_set {k : Nat} (h : x.getLsbD k = true) : x &&& 1#w <<< k = 1#w <<< k := by
  ext j hj
  simp only [getElem_and, getElem_shiftLeft]
  by_cases hjk : j = k
  · have hset : x[j] = true := by
      rw [← getLsbD_eq_getElem, hjk]
      exact h
    rw [hset, Bool.true_and]
  · have hother : ¬ (j - k = 0 ∧ ¬ j < k) := by omega
    grind

theorem clear_bit_of_unset {k : Nat} (h : x.getLsbD k = false) : x &&& ~~~(1#w <<< k) = x := by
  ext j hj
  simp only [getElem_and, getElem_not, getElem_shiftLeft]
  by_cases hjk : j = k
  · have hclear : x[j] = false := by
      rw [← getLsbD_eq_getElem, hjk]
      exact h
    rw [hclear, Bool.false_and]
  · have hother : ¬ (j - k = 0 ∧ ¬ j < k) := by omega
    grind

theorem and_low (x : BitVec w) (n : Nat) :
    x &&& (BitVec.allOnes n).setWidth w = (x.setWidth n).setWidth w := by
  ext k hk
  simp only [getElem_and, getElem_setWidth, getLsbD_allOnes,
    getLsbD_setWidth]
  grind

theorem one_shiftLeft_sub_one {n : Nat} (h : n < w) :
    1#w <<< n - 1#w = (BitVec.allOnes n).setWidth w := by
  have hpow : 2 ^ n < 2 ^ w := Nat.pow_lt_pow_right (by decide) h
  have hone : 1 < 2 ^ w := Nat.one_lt_two_pow (by omega)
  have hpos : 0 < 2 ^ n := Nat.two_pow_pos n
  apply eq_of_toNat_eq
  have hshift : (1#w <<< n).toNat = 2 ^ n := by
    rw [toNat_shiftLeft, toNat_ofNat, Nat.mod_eq_of_lt hone, Nat.one_shiftLeft,
      Nat.mod_eq_of_lt hpow]
  rw [toNat_sub_of_le, hshift, toNat_setWidth, toNat_allOnes,
    toNat_ofNat, Nat.mod_eq_of_lt hone, Nat.mod_eq_of_lt (by omega)]
  rw [le_def, hshift, toNat_ofNat, Nat.mod_eq_of_lt hone]
  exact hpos

end Cemu.BitMask
