import Cemu.Lib.Numerals

/-!
# Sign extension

The branch-free sign extension of C code, and how extension composes with itself and with zeros
appended below.
-/

namespace Cemu.SignExtend

open BitVec

variable {w : Nat} {n v : Nat}

theorem add_eq_xor {a b : BitVec w} (h : a &&& b = 0#w) : a + b = a ^^^ b := by
  rw [add_eq_or_of_and_eq_zero a b h]
  ext k hk
  have hbit := congrArg (·.getLsbD k) h
  grind

theorem xor_add {a b : BitVec w} (h : a &&& b = b) : (a ^^^ b) + b = a := by
  rw [add_eq_xor]
  ext k hk
  have hbit := congrArg (·.getLsbD k) h
  simp [hk] at hbit ⊢
  grind

theorem setWidth_and_low (h : n < w) (x : BitVec n) :
    x.setWidth w &&& (1#w <<< n - 1#w) = x.setWidth w := by
  have hpow : 2 ^ n < 2 ^ w := Nat.pow_lt_pow_right (by decide) h
  have hone : 1 < 2 ^ w := Nat.one_lt_two_pow (by omega)
  have hones : (1#w <<< n - 1#w).toNat = 2 ^ n - 1 := by
    have hpos := Nat.two_pow_pos n
    rw [toNat_sub, toNat_shiftLeft, toNat_ofNat, Nat.mod_eq_of_lt hone,
      Nat.one_shiftLeft, Nat.mod_eq_of_lt hpow,
      show 2 ^ w - 1 + 2 ^ n = (2 ^ n - 1) + 2 ^ w by omega, Nat.add_mod_right,
      Nat.mod_eq_of_lt (by omega)]
  apply eq_of_toNat_eq
  have hx := x.isLt
  rw [toNat_and, hones, Nat.and_two_pow_sub_one_eq_mod, toNat_setWidth,
    Nat.mod_eq_of_lt (Nat.lt_trans hx hpow), Nat.mod_eq_of_lt hx]

/-- The sign extension `(x ^ s) - s` of C. -/
theorem xor_sub_eq_signExtend (h0 : 0 < n) (h : n < w) (x : BitVec n) :
    (x.setWidth w ^^^ 1#w <<< (n - 1)) - 1#w <<< (n - 1) = x.signExtend w := by
  have htest : (x.setWidth w).getLsbD (n - 1) = x.msb := by
    have hlast : n - 1 < w := by omega
    simp [msb_eq_getLsbD_last, hlast]
  rw [← twoPow_eq]
  cases hmsb : x.msb with
  | false =>
    have hand : x.setWidth w &&& .twoPow w (n - 1) = 0#w := by
      rw [and_twoPow, htest, hmsb]
      rfl
    rw [← add_eq_xor hand, BitVec.add_sub_cancel, signExtend_eq_setWidth_of_msb_false hmsb]
  | true =>
    have hand : x.setWidth w &&& .twoPow w (n - 1) = .twoPow w (n - 1) := by
      rw [and_twoPow, htest, hmsb]
      rfl
    have hm : (BitVec.twoPow w (n - 1)).toNat = 2 ^ (n - 1) := toNat_twoPow_of_lt (by omega)
    have hpow : 2 ^ n < 2 ^ w := Nat.pow_lt_pow_right (by decide) h
    have htop : 2 ^ n = 2 * 2 ^ (n - 1) := by
      rw [← Nat.pow_succ', Nat.succ_eq_add_one, Nat.sub_add_cancel h0]
    have hx := x.isLt
    rw [BitVec.eq_sub_iff_add_eq.mpr (xor_add hand)]
    apply eq_of_toNat_eq
    rw [toNat_sub, toNat_sub, hm, toNat_signExtend, if_pos hmsb,
      toNat_setWidth, Nat.mod_eq_of_lt (Nat.lt_trans hx hpow)]
    rw [Nat.add_mod_mod, show 2 ^ w - 2 ^ (n - 1) + (2 ^ w - 2 ^ (n - 1) + x.toNat) =
        (x.toNat + (2 ^ w - 2 ^ n)) + 2 ^ w by omega,
      Nat.add_mod_right, Nat.mod_eq_of_lt (by omega)]

theorem and_xor_sub_eq_signExtend (h0 : 0 < n) (h : n < w) (x : BitVec n) :
    ((x.setWidth w &&& (1#w <<< n - 1#w)) ^^^ 1#w <<< (n - 1)) - 1#w <<< (n - 1) =
      x.signExtend w := by
  rw [setWidth_and_low h, xor_sub_eq_signExtend h0 h]

theorem signExtend_signExtend (h : n ≤ v) (h' : v ≤ w) (x : BitVec n) :
    (x.signExtend v).signExtend w = x.signExtend w := by
  apply eq_of_toInt_eq
  rw [toInt_signExtend_of_le h', toInt_signExtend_of_le h, toInt_signExtend_of_le (h.trans h')]

theorem signExtend_append_zero {k : Nat} (h0 : 0 < n) (x : BitVec n) :
    x.signExtend v ++ 0#k = (x ++ 0#k).signExtend (v + k) := by
  ext i hi
  simp only [getElem_append, getElem_signExtend, getElem_zero, msb_append]
  grind

/-- The sign extension by a shift up and an arithmetic shift down. -/
theorem shiftLeft_sshiftRight (h0 : 0 < n) (h : n ≤ w) (x : BitVec w) :
    (x <<< (w - n)).sshiftRight (w - n) = (x.setWidth n).signExtend w := by
  apply eq_of_getLsbD_eq
  intro i hi
  simp only [getLsbD_sshiftRight, getLsbD_shiftLeft, getLsbD_signExtend,
    getLsbD_setWidth, msb_eq_getLsbD_last]
  grind

theorem eq_zero_of_signExtend (h : n ≤ w) {x : BitVec n} (hx : x.signExtend w = 0#w) : x = 0#n := by
  apply eq_of_toInt_eq
  rw [← toInt_signExtend_of_le h, hx, toInt_zero, toInt_zero]

end Cemu.SignExtend
