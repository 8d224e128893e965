import Cemu.Lib.CInt

/-!
# Sums and differences with a carry

What the carry, the half carry and the signed overflow of an addition or a subtraction are over
the integers, and the bit tricks that find them in the operands and the result.
-/

namespace Cemu.AddSub

open BitVec hiding not_not
open CInt (Fits)

variable {w : Nat}

def diff (x y : BitVec w) (c : Bool) : BitVec w := x - y - BitVec.ofNat w c.toNat
def sum (x y : BitVec w) (c : Bool) : BitVec w := x + y + BitVec.ofNat w c.toNat

theorem toNat_ofNat_carry (hw : 0 < w) (c : Bool) : (BitVec.ofNat w c.toNat).toNat = c.toNat := by
  apply Nat.mod_eq_of_lt
  calc c.toNat < 2 := Bool.toNat_lt c
    _ = 2 ^ 1 := rfl
    _ ≤ 2 ^ w := Nat.pow_le_pow_right (by decide) hw

section Values

variable (x y : BitVec w) (c : Bool) (hw : 0 < w)
include hw

theorem toNat_diff_of_le (h : y.toNat + c.toNat ≤ x.toNat) :
    (diff x y c).toNat = x.toNat - y.toNat - c.toNat := by
  rw [diff, toNat_sub_of_le, toNat_sub_of_le, toNat_ofNat_carry hw]
  · rw [le_def]
    omega
  · rw [le_def, toNat_ofNat_carry hw, toNat_sub_of_le]
    · omega
    · rw [le_def]
      omega

theorem toNat_diff_of_lt (h : x.toNat < y.toNat + c.toNat) :
    (diff x y c).toNat = 2 ^ w + x.toNat - y.toNat - c.toNat := by
  have hc := toNat_ofNat_carry hw c
  by_cases hxy : x.toNat < y.toNat
  · have hsub : (x - y).toNat = 2 ^ w + x.toNat - y.toNat := by
      rw [toNat_sub_of_lt (BitVec.lt_def.mpr hxy)]
      omega
    rw [diff, toNat_sub_of_le, hc, hsub]
    rw [le_def]
    have := Bool.toNat_le c
    omega
  · have := Bool.toNat_le c
    have hsub : (x - y).toNat = 0 := by
      rw [toNat_sub_of_le (BitVec.le_def.mpr (by omega))]
      omega
    rw [diff, toNat_sub_of_lt]
    · omega
    · rw [lt_def]
      omega

theorem toNat_sum_of_lt (h : x.toNat + y.toNat + c.toNat < 2 ^ w) :
    (sum x y c).toNat = x.toNat + y.toNat + c.toNat := by
  rw [sum, toNat_add, toNat_add, toNat_ofNat_carry hw, Nat.mod_add_mod, Nat.mod_eq_of_lt h]

theorem toNat_sum_of_le (h : 2 ^ w ≤ x.toNat + y.toNat + c.toNat) :
    (sum x y c).toNat + 2 ^ w = x.toNat + y.toNat + c.toNat := by
  have := Bool.toNat_le c
  rw [sum, toNat_add, toNat_add, toNat_ofNat_carry hw, Nat.mod_add_mod,
    Nat.mod_eq_sub_mod h, Nat.mod_eq_of_lt (by omega)]
  omega

end Values

section Signs

theorem two_pow_pred (hw : 0 < w) : 2 ^ w = 2 * 2 ^ (w - 1) := by
  have := Nat.two_pow_pred_add_two_pow_pred hw
  omega

theorem toInt_cases (hw : 0 < w) (x : BitVec w) :
    (x.msb = true ∧ 2 ^ (w - 1) ≤ x.toNat ∧ x.toInt = x.toNat - 2 * (2 ^ (w - 1) : Nat)) ∨
      (x.msb = false ∧ x.toNat < 2 ^ (w - 1) ∧ x.toInt = x.toNat) := by
  have htwo := two_pow_pred hw
  rw [msb_eq_decide, toInt_eq_toNat_cond]
  by_cases h : 2 ^ (w - 1) ≤ x.toNat
  · rw [decide_eq_true h]
    exact .inl ⟨rfl, h, by omega⟩
  · rw [if_pos (by omega), decide_eq_false h]
    exact .inr ⟨rfl, by omega, rfl⟩

variable (x y : BitVec w) (c : Bool)

theorem fits_iff_lt {v : Int} :
    Fits w v ↔ -((2 ^ (w - 1) : Nat) : Int) ≤ v ∧ v < ((2 ^ (w - 1) : Nat) : Int) := by
  rfl

/-- Signed overflow of a difference: the operands differ in sign, and the result in sign from the
first. -/
theorem fits_diff_iff (hw : 0 < w) :
    Fits w (x.toInt - y.toInt - c.toNat) ↔ ¬(x.msb ≠ y.msb ∧ x.msb ≠ (diff x y c).msb) := by
  have htwo := two_pow_pred hw
  have hc := Bool.toNat_le c
  have hle := toNat_diff_of_le x y c hw
  have hlt := toNat_diff_of_lt x y c hw
  rw [fits_iff_lt]
  rcases toInt_cases hw x with ⟨hx1, hx2, hx3⟩ | ⟨hx1, hx2, hx3⟩ <;>
    rcases toInt_cases hw y with ⟨hy1, hy2, hy3⟩ | ⟨hy1, hy2, hy3⟩ <;>
    rcases toInt_cases hw (diff x y c) with ⟨hd1, hd2, -⟩ | ⟨hd1, hd2, -⟩ <;>
    simp only [hx1, hy1, hd1, ne_eq, not_true, not_false_eq_true, and_true, and_false,
      Bool.true_eq_false, Bool.false_eq_true, iff_true, iff_false] <;>
    omega

theorem fits_sum_iff (hw : 0 < w) :
    Fits w (x.toInt + y.toInt + c.toNat) ↔ ¬(x.msb = y.msb ∧ x.msb ≠ (sum x y c).msb) := by
  have htwo := two_pow_pred hw
  have hc := Bool.toNat_le c
  have hle := toNat_sum_of_le x y c hw
  have hlt := toNat_sum_of_lt x y c hw
  rw [fits_iff_lt]
  rcases toInt_cases hw x with ⟨hx1, hx2, hx3⟩ | ⟨hx1, hx2, hx3⟩ <;>
    rcases toInt_cases hw y with ⟨hy1, hy2, hy3⟩ | ⟨hy1, hy2, hy3⟩ <;>
    rcases toInt_cases hw (sum x y c) with ⟨hd1, hd2, -⟩ | ⟨hd1, hd2, -⟩ <;>
    simp only [hx1, hy1, hd1, ne_eq, not_true, not_false_eq_true, and_true, and_false,
      Bool.true_eq_false, Bool.false_eq_true, iff_true, iff_false] <;>
    omega

theorem toInt_lt_iff (hw : 0 < w) :
    x.toInt < y.toInt ↔ ¬((diff x y false).msb = true ↔ ¬Fits w (x.toInt - y.toInt)) := by
  have htwo := two_pow_pred hw
  have hle := toNat_diff_of_le x y false hw
  have hlt := toNat_diff_of_lt x y false hw
  rw [Bool.toNat_false] at hle hlt
  rw [fits_iff_lt]
  rcases toInt_cases hw x with ⟨-, hx2, hx3⟩ | ⟨-, hx2, hx3⟩ <;>
    rcases toInt_cases hw y with ⟨-, hy2, hy3⟩ | ⟨-, hy2, hy3⟩ <;>
    rcases toInt_cases hw (diff x y false) with ⟨hd1, hd2, -⟩ | ⟨hd1, hd2, -⟩ <;>
    simp only [hd1, true_iff, Bool.false_eq_true, false_iff] <;>
    omega

end Signs

section Nibbles

variable (x y : BitVec w) (c : Bool)

theorem getLsbD_four (x : BitVec w) : x.getLsbD 4 = decide (x.toNat / 16 % 2 = 1) := by
  rw [BitVec.getLsbD, Nat.testBit_eq_decide_div_mod_eq]

theorem two_pow_five (hw : 5 ≤ w) : 2 ^ w = 32 * 2 ^ (w - 5) := by
  rw [show 32 = 2 ^ 5 from rfl, ← Nat.pow_add, Nat.add_sub_cancel' hw]

theorem xor_decide (p q : Prop) [Decidable p] [Decidable q] :
    (decide p ^^ decide q) = decide (¬(p ↔ q)) := by
  by_cases hp : p <;> by_cases hq : q <;> simp [hp]

theorem half_borrow (hw : 5 ≤ w) :
    (x ^^^ y ^^^ diff x y c).getLsbD 4 = decide (x.toNat % 16 < y.toNat % 16 + c.toNat) := by
  have hfive := two_pow_five hw
  have hc := Bool.toNat_le c
  have hle := toNat_diff_of_le x y c (by omega)
  have hlt := toNat_diff_of_lt x y c (by omega)
  rw [getLsbD_xor, getLsbD_xor, getLsbD_four, getLsbD_four, getLsbD_four, xor_decide,
    xor_decide, decide_eq_decide]
  omega

theorem half_carry (hw : 5 ≤ w) :
    (x ^^^ y ^^^ sum x y c).getLsbD 4 = decide (16 ≤ x.toNat % 16 + y.toNat % 16 + c.toNat) := by
  have hfive := two_pow_five hw
  have hc := Bool.toNat_le c
  have hle := toNat_sum_of_le x y c (by omega)
  have hlt := toNat_sum_of_lt x y c (by omega)
  rw [getLsbD_xor, getLsbD_xor, getLsbD_four, getLsbD_four, getLsbD_four, xor_decide,
    xor_decide, decide_eq_decide]
  omega

end Nibbles

end Cemu.AddSub
