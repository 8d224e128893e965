import Cemu.Lib.Numerals

/-!
# Signed C arithmetic

Operations of C's signed integer types on words, defined only where the exact result is a value
of the type. Division and remainder share one condition: the quotient has to be representable.
-/

namespace Cemu.CInt

open BitVec Int

variable {w : Nat}

/-- `v` is a value of the signed type of width `w`. -/
def Fits (w : Nat) (v : Int) : Prop := -2 ^ (w - 1) ≤ v ∧ v < 2 ^ (w - 1)

instance (w : Nat) (v : Int) : Decidable (Fits w v) := inferInstanceAs (Decidable (_ ∧ _))

theorem fits_toInt (x : BitVec w) : Fits w x.toInt := ⟨le_toInt x, toInt_lt⟩

theorem toInt_ofInt (hw : 0 < w) {v : Int} (h : Fits w v) : (BitVec.ofInt w v).toInt = v :=
  toInt_ofInt_eq_self hw h.1 h.2

variable {a b : BitVec w}

theorem setWidth_ofInt {n : Nat} (h : n ≤ w) (v : Int) :
    (BitVec.ofInt w v).setWidth n = BitVec.ofInt n v := by
  have hdvd : ((2 ^ n : Nat) : Int) ∣ (2 ^ w : Nat) := natCast_dvd_natCast.mpr (Nat.pow_dvd_pow 2 h)
  have hpow : (0 : Int) < (2 ^ w : Nat) := by exact_mod_cast Nat.two_pow_pos w
  have hnonneg := emod_nonneg v (by omega : ((2 ^ w : Nat) : Int) ≠ 0)
  apply eq_of_toNat_eq
  rw [toNat_setWidth, toNat_ofInt, toNat_ofInt]
  apply ofNat.inj
  show ((((v % (2 ^ w : Nat)).toNat % 2 ^ n : Nat)) : Int) = ((v % (2 ^ n : Nat)).toNat : Nat)
  have hn := emod_nonneg v (by have := Nat.two_pow_pos n; omega : ((2 ^ n : Nat) : Int) ≠ 0)
  rw [natCast_emod, toNat_of_nonneg hnonneg, toNat_of_nonneg hn,
    emod_emod_of_dvd v hdvd]

theorem eq_signExtend_setWidth_iff {n : Nat} (h0 : 0 < n) (h : n ≤ w) (x : BitVec w) :
    x = (x.setWidth n).signExtend w ↔ Fits n x.toInt := by
  have hlow : x.setWidth n = .ofInt n x.toInt := (signExtend_eq_setWidth_of_le x h).symm
  constructor
  · intro hx
    rw [hx, toInt_signExtend_of_le h]
    exact fits_toInt _
  · intro hfits
    apply eq_of_toInt_eq
    rw [toInt_signExtend_of_le h, hlow, toInt_ofInt h0 hfits]

def mul (a b : BitVec w) : Option (BitVec w) :=
  if Fits w (a.toInt * b.toInt) then some (a * b) else none

/-- No result for a zero divisor or a quotient that is too large. -/
def div (a b : BitVec w) : Option (BitVec w) :=
  if b ≠ 0 ∧ Fits w (a.toInt.tdiv b.toInt) then some (a.sdiv b) else none

def rem (a b : BitVec w) : Option (BitVec w) :=
  if b ≠ 0 ∧ Fits w (a.toInt.tdiv b.toInt) then some (a.srem b) else none

theorem mul_isSome_iff : (mul a b).isSome ↔ Fits w (a.toInt * b.toInt) := by
  rw [mul]
  split
  · next h => exact iff_of_true rfl h
  · next h => exact iff_of_false Bool.false_ne_true h

theorem toInt_neg_one (hw : 0 < w) : (-1#w).toInt = -1 := by
  rw [neg_one_eq_allOnes, toInt_allOnes, if_pos hw]

theorem eq_zero_iff : b = 0 ↔ b.toInt = 0 := by
  rw [← toInt_inj, ofNat_eq_ofNat, toInt_zero]

theorem eq_neg_one_iff (hw : 0 < w) : b = -1#w ↔ b.toInt = -1 := by
  rw [← toInt_inj, toInt_neg_one hw]

theorem eq_intMin_iff (hw : 0 < w) : a = .intMin w ↔ a.toInt = -2 ^ (w - 1) := by
  rw [← toInt_inj, toInt_intMin_of_pos hw]

theorem not_zero_eq : ~~~(0 : BitVec w) = -1#w := by
  rw [neg_one_eq_allOnes, ofNat_eq_ofNat, not_zero]

/-- Only the least value over `-1` has a quotient that does not fit. -/
theorem fits_tdiv_iff (hw : 0 < w) (a b : BitVec w) :
    Fits w (a.toInt.tdiv b.toInt) ↔ ¬(a = .intMin w ∧ b = -1#w) := by
  constructor
  · rintro hfits ⟨rfl, rfl⟩
    rw [toInt_intMin_of_pos hw, toInt_neg_one hw, Int.tdiv_neg, Int.tdiv_one, Int.neg_neg] at hfits
    exact absurd hfits.2 (lt_irrefl _)
  · intro h
    have hne : a ≠ .intMin w ∨ b ≠ -1#w := by
      by_contra hboth
      push Not at hboth
      exact h hboth
    rw [← toInt_sdiv_of_ne_or_ne a b hne]
    exact fits_toInt _

theorem div_eq_some (hw : 0 < w) (hb : b ≠ 0) (h : ¬(a = .intMin w ∧ b = -1#w)) :
    div a b = some (a.sdiv b) :=
  if_pos ⟨hb, (fits_tdiv_iff hw a b).mpr h⟩

theorem rem_eq_some (hw : 0 < w) (hb : b ≠ 0) (h : ¬(a = .intMin w ∧ b = -1#w)) :
    rem a b = some (a.srem b) :=
  if_pos ⟨hb, (fits_tdiv_iff hw a b).mpr h⟩

end Cemu.CInt
