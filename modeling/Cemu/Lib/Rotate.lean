import Cemu.Lib.Numerals

/-!
# Shifts and rotations inside a wider word

C code computes with a narrow word `x` in a host word that holds it zero-extended. The low bits of
the host's shifts are the shifts of `x`, and the two shifts that make up a rotation are its
rotation.
-/

namespace Cemu.Rotate

open BitVec

variable {w h : Nat}

theorem setWidth_shiftLeft (hw : w ≤ h) (x : BitVec w) (k : Nat) :
    (x.setWidth h <<< k).setWidth w = x <<< k := by
  apply eq_of_getLsbD_eq
  intro i hi
  rw [getLsbD_setWidth, getLsbD_shiftLeft, getLsbD_shiftLeft,
    getLsbD_setWidth, decide_eq_true hi, decide_eq_true (by omega),
    decide_eq_true (by omega : i - k < h), Bool.true_and, Bool.true_and, Bool.true_and]

theorem ushiftRight_setWidth (x : BitVec w) (hw : w ≤ h) (k : Nat) :
    x.setWidth h >>> k = (x >>> k).setWidth h := by
  apply eq_of_getLsbD_eq
  intro i hi
  rw [getLsbD_setWidth, getLsbD_ushiftRight, getLsbD_ushiftRight,
    getLsbD_setWidth, decide_eq_true hi]
  by_cases hk : k + i < h
  · rw [decide_eq_true hk]
  · rw [decide_eq_false hk, Bool.false_and, getLsbD_of_ge x (k + i) (by omega), Bool.true_and]

theorem setWidth_ushiftRight (hw : w ≤ h) (x : BitVec w) (k : Nat) :
    (x.setWidth h >>> k).setWidth w = x >>> k := by
  rw [ushiftRight_setWidth x hw, setWidth_setWidth_of_le _ hw, setWidth_eq]

/-- Two shifts in a wider host word, cut to the width, are a rotation. -/
theorem rotateLeft_host (hw : w ≤ h) (x : BitVec w) (n : Nat) :
    (x.setWidth h <<< (n % w) ||| x.setWidth h >>> (w - n % w)).setWidth w = x.rotateLeft n := by
  rw [setWidth_or, setWidth_shiftLeft hw, setWidth_ushiftRight hw, rotateLeft_def]

theorem rotateRight_host (hw : w ≤ h) (x : BitVec w) (n : Nat) :
    (x.setWidth h >>> (n % w) ||| x.setWidth h <<< (w - n % w)).setWidth w = x.rotateRight n := by
  rw [setWidth_or, setWidth_shiftLeft hw, setWidth_ushiftRight hw, rotateRight_def]

theorem rotateLeft_zero (x : BitVec w) : x.rotateLeft 0 = x := by
  rw [rotateLeft_def, Nat.zero_mod, shiftLeft_zero, Nat.sub_zero,
    ushiftRight_eq_zero (Nat.le_refl w), or_zero]

theorem rotateRight_zero (x : BitVec w) : x.rotateRight 0 = x := by
  rw [rotateRight_def, Nat.zero_mod, ushiftRight_zero, Nat.sub_zero,
    shiftLeft_eq_zero (Nat.le_refl w), or_zero]

theorem rotateRight_rotateLeft (x : BitVec w) (n : Nat) : (x.rotateLeft n).rotateRight n = x := by
  apply eq_of_getLsbD_eq
  intro i hi
  rw [getLsbD_rotateRight]
  by_cases hlow : i < w - n % w
  · rw [decide_eq_true hlow, cond_true, getLsbD_rotateLeft,
      decide_eq_false (by omega), cond_false, decide_eq_true (by omega), Bool.true_and,
      Nat.add_sub_cancel_left]
  · rw [decide_eq_false hlow, cond_false, decide_eq_true hi, Bool.true_and,
      getLsbD_rotateLeft, decide_eq_true (by omega), cond_true]
    congr 1
    omega

/-- An arithmetic shift by hand: the sign bits are put in at the top. -/
theorem sshiftRight_host (hw : w ≤ h) (x : BitVec w) {k : Nat} (hk : k < w) {fill : BitVec h}
    (hfill : ∀ i < w, fill.getLsbD i = x.msb) :
    (x.setWidth h >>> k ||| fill <<< (w - k)).setWidth w = x.sshiftRight k := by
  apply eq_of_getLsbD_eq
  intro i hi
  rw [setWidth_or, setWidth_ushiftRight hw, getLsbD_or, getLsbD_ushiftRight,
    getLsbD_setWidth, getLsbD_shiftLeft, getLsbD_sshiftRight,
    decide_eq_true hi, decide_eq_true (by omega), decide_eq_false (by omega : ¬w ≤ i),
    Bool.true_and, Bool.true_and, Bool.not_false, Bool.true_and]
  by_cases hin : k + i < w
  · rw [if_pos hin, decide_eq_true (by omega), Bool.not_true, Bool.false_and, Bool.or_false]
  · rw [if_neg hin, decide_eq_false (by omega), Bool.not_false, Bool.true_and,
      hfill _ (by omega), getLsbD_of_ge x (k + i) (by omega), Bool.false_or]

end Cemu.Rotate
