import Cemu.Lib.CInt
import Cemu.Riscv64.Forms

/-!
# riscv64: multiplication and division

The M extension against its arithmetic definition over the integers, and the C expressions it is
computed with against the ranges of their signed types.
-/

namespace Cemu.Rv64

open CInt hiding toInt_ofInt
open BitVec

inductive MOp where
  | mul | mulh | mulhsu | mulhu | div | divu | rem | remu
  | mulw | divw | divuw | remw | remuw
  deriving DecidableEq, Repr

namespace MOp

def exec : MOp → BitVec 64 → BitVec 64 → Option (BitVec 64)
  | mul => aluOp 0 0x01
  | mulh => aluOp 1 0x01
  | mulhsu => aluOp 2 0x01
  | mulhu => aluOp 3 0x01
  | div => aluOp 4 0x01
  | divu => aluOp 5 0x01
  | rem => aluOp 6 0x01
  | remu => aluOp 7 0x01
  | mulw => aluOp32 0 0x01
  | divw => aluOp32 4 0x01
  | divuw => aluOp32 5 0x01
  | remw => aluOp32 6 0x01
  | remuw => aluOp32 7 0x01

def guardedDiv {w : Nat} (a b : BitVec w) : Option (BitVec w) :=
  if b = 0 then some (~~~0)
  else if a = BitVec.intMin w ∧ b = ~~~0 then some a
  else CInt.div a b

def guardedRem {w : Nat} (a b : BitVec w) : Option (BitVec w) :=
  if b = 0 then some a
  else if a = BitVec.intMin w ∧ b = ~~~0 then some 0
  else CInt.rem a b

def productHigh (a b : BitVec 128) : Option (BitVec 64) :=
  (CInt.mul a b).map fun p : BitVec 128 => (p >>> 64).setWidth 64

/-- The C expressions of the cases: `none` when a signed operation leaves the range of its type. -/
def cEval (op : MOp) (x y : BitVec 64) : Option (BitVec 64) :=
  let a : BitVec 32 := x.setWidth 32
  let b : BitVec 32 := y.setWidth 32
  match op with
  | mul => some (x * y)
  | mulh => productHigh (x.signExtend 128) (y.signExtend 128)
  | mulhsu => productHigh (x.signExtend 128) (y.setWidth 128)
  | mulhu => productHigh (x.setWidth 128) (y.setWidth 128)
  | div => guardedDiv x y
  | divu => some (if y = 0 then ~~~0 else x / y)
  | rem => guardedRem x y
  | remu => some (if y = 0 then x else x % y)
  | mulw => some (sext32 (a * b))
  | divw => (guardedDiv a b).map sext32
  | divuw => some (sext32 (if b = 0 then ~~~0 else a / b))
  | remw => (guardedRem a b).map sext32
  | remuw => some (sext32 (if b = 0 then a else a % b))

def quotient (w : Nat) (a b : Int) : Int :=
  if b = 0 then -1 else if a = -2 ^ (w - 1) ∧ b = -1 then a else a.tdiv b

def remainder (w : Nat) (a b : Int) : Int :=
  if b = 0 then a else if a = -2 ^ (w - 1) ∧ b = -1 then 0 else a.tmod b

def spec (op : MOp) (x y : BitVec 64) : BitVec 64 :=
  let a : BitVec 32 := x.setWidth 32
  let b : BitVec 32 := y.setWidth 32
  match op with
  | mul => BitVec.ofInt 64 (x.toInt * y.toInt)
  | mulh => BitVec.ofInt 64 (x.toInt * y.toInt / 2 ^ 64)
  | mulhsu => BitVec.ofInt 64 (x.toInt * y.toNat / 2 ^ 64)
  | mulhu => BitVec.ofInt 64 (x.toNat * y.toNat / 2 ^ 64)
  | div => BitVec.ofInt 64 (quotient 64 x.toInt y.toInt)
  | divu => BitVec.ofNat 64 (if y.toNat = 0 then 2 ^ 64 - 1 else x.toNat / y.toNat)
  | rem => BitVec.ofInt 64 (remainder 64 x.toInt y.toInt)
  | remu => BitVec.ofNat 64 (if y.toNat = 0 then x.toNat else x.toNat % y.toNat)
  | mulw => (BitVec.ofInt 32 (a.toInt * b.toInt)).signExtend 64
  | divw => (BitVec.ofInt 32 (quotient 32 a.toInt b.toInt)).signExtend 64
  | divuw => (BitVec.ofNat 32 (if b.toNat = 0 then 2 ^ 32 - 1 else a.toNat / b.toNat)).signExtend 64
  | remw => (BitVec.ofInt 32 (remainder 32 a.toInt b.toInt)).signExtend 64
  | remuw => (BitVec.ofNat 32 (if b.toNat = 0 then a.toNat else a.toNat % b.toNat)).signExtend 64

/-! ### The results -/

variable {w : Nat}

theorem ofInt_mul_toInt (a b : BitVec w) : .ofInt w (a.toInt * b.toInt) = a * b := by
  rw [ofInt_mul, ofInt_toInt, ofInt_toInt]

theorem high_ofInt (p : Int) :
    (BitVec.ofInt 128 p >>> 64).setWidth 64 = .ofInt 64 (p / 2 ^ 64) := by
  apply eq_of_toNat_eq
  rw [toNat_setWidth, toNat_ushiftRight, toNat_ofInt, toNat_ofInt]
  omega

variable {x y : Int}

theorem mulHigh_eq {a b : BitVec 128} (ha : a = .ofInt 128 x)
    (hb : b = .ofInt 128 y) : mulHigh a b = .ofInt 64 (x * y / 2 ^ 64) := by
  rw [mulHigh, ha, hb, ← ofInt_mul, high_ofInt]

theorem signExtend_eq_ofInt (x : BitVec 64) : x.signExtend 128 = .ofInt 128 x.toInt := by
  apply eq_of_toInt_eq
  rw [toInt_signExtend_of_le (by decide), toInt_ofInt]
  have hlt := toInt_lt (x := x)
  have hle := le_toInt x
  rw [Int.bmod_eq_of_le (by omega) (by omega)]

theorem setWidth_eq_ofInt (x : BitVec 64) : x.setWidth 128 = .ofInt 128 x.toNat := by
  rw [ofInt_natCast, ofNat_toNat]

section Signed

variable {w : Nat} (hw : 0 < w) (a b : BitVec w)

include hw

theorem divSigned_eq : divSigned a b = .ofInt w (quotient w a.toInt b.toInt) := by
  simp only [divSigned, quotient, not_zero_eq, ← eq_zero_iff, ← eq_neg_one_iff hw,
    ← eq_intMin_iff hw]
  split
  · rw [← toInt_neg_one hw, ofInt_toInt]
  · split
    · exact BitVec.ofInt_toInt.symm
    · next h => rw [← toInt_sdiv_of_ne_or_ne a b (not_and_or.mp h), ofInt_toInt]

theorem remSigned_eq : remSigned a b = .ofInt w (remainder w a.toInt b.toInt) := by
  simp only [remSigned, remainder, not_zero_eq, ← eq_zero_iff, ← eq_neg_one_iff hw,
    ← eq_intMin_iff hw]
  split
  · exact BitVec.ofInt_toInt.symm
  · split
    · exact (ofInt_ofNat w 0).symm
    · rw [← toInt_srem, ofInt_toInt]

theorem guardedDiv_eq : guardedDiv a b = some (divSigned a b) := by
  unfold guardedDiv divSigned
  split
  · rfl
  rename_i hb
  split
  · rfl
  · next h =>
    rw [not_zero_eq] at h
    exact div_eq_some hw hb h

theorem guardedRem_eq : guardedRem a b = some (remSigned a b) := by
  unfold guardedRem remSigned
  split
  · rfl
  rename_i hb
  split
  · rfl
  · next h =>
    rw [not_zero_eq] at h
    exact rem_eq_some hw hb h

end Signed

theorem divUnsigned_eq (a b : BitVec w) : (if b = 0 then ~~~0 else a / b) =
      .ofNat w (if b.toNat = 0 then 2 ^ w - 1 else a.toNat / b.toNat) := by
  have hzero : b = 0 ↔ b.toNat = 0 := BitVec.toNat_eq.trans (by simp)
  simp only [← hzero]
  split
  · apply eq_of_toNat_eq
    rw [ofNat_eq_ofNat, not_zero, toNat_allOnes, toNat_ofNat,
      Nat.mod_eq_of_lt (by have := Nat.two_pow_pos w; omega)]
  · rw [← toNat_udiv, ofNat_toNat, setWidth_eq]

theorem remUnsigned_eq (a b : BitVec w) : (if b = 0 then a else a % b) =
      .ofNat w (if b.toNat = 0 then a.toNat else a.toNat % b.toNat) := by
  have hzero : b = 0 ↔ b.toNat = 0 := BitVec.toNat_eq.trans (by simp)
  simp only [← hzero]
  split
  · rw [ofNat_toNat, setWidth_eq]
  · rw [← toNat_umod, ofNat_toNat, setWidth_eq]

theorem exec_eq_spec (op : MOp) (x y : BitVec 64) : op.exec x y = some (op.spec x y) := by
  cases op with
  | mul => exact congrArg some (ofInt_mul_toInt x y).symm
  | mulh => exact congrArg some (mulHigh_eq (signExtend_eq_ofInt x) (signExtend_eq_ofInt y))
  | mulhsu => exact congrArg some (mulHigh_eq (signExtend_eq_ofInt x) (setWidth_eq_ofInt y))
  | mulhu => exact congrArg some (mulHigh_eq (setWidth_eq_ofInt x) (setWidth_eq_ofInt y))
  | div => exact congrArg some (divSigned_eq (by decide) x y)
  | divu => exact congrArg some (divUnsigned_eq x y)
  | rem => exact congrArg some (remSigned_eq (by decide) x y)
  | remu => exact congrArg some (remUnsigned_eq x y)
  | mulw =>
    refine congrArg some ((sext32_eq _).trans (congrArg _ ?_))
    exact (ofInt_mul_toInt _ _).symm
  | divw =>
    refine congrArg some ((sext32_eq _).trans (congrArg _ ?_))
    exact divSigned_eq (by decide) _ _
  | divuw =>
    refine congrArg some ((sext32_eq _).trans (congrArg _ ?_))
    exact divUnsigned_eq _ _
  | remw =>
    refine congrArg some ((sext32_eq _).trans (congrArg _ ?_))
    exact remSigned_eq (by decide) _ _
  | remuw =>
    refine congrArg some ((sext32_eq _).trans (congrArg _ ?_))
    exact remUnsigned_eq _ _

/-! ### The ranges -/

theorem toInt_of_ofInt128 {v : Int} (h : CInt.Fits 128 v) : (BitVec.ofInt 128 v).toInt = v := by
  obtain ⟨hlo, hhi⟩ := h
  rw [toInt_ofInt, Int.bmod_eq_of_le (by omega) (by omega)]

theorem productHigh_isSome {a b : BitVec 128} (ha : a = .ofInt 128 x)
    (hb : b = .ofInt 128 y) (hx : CInt.Fits 128 x) (hy : CInt.Fits 128 y) :
    (productHigh a b).isSome ↔ CInt.Fits 128 (x * y) := by
  rw [productHigh, Option.isSome_map, mul_isSome_iff, ha, hb, toInt_of_ofInt128 hx,
    toInt_of_ofInt128 hy]

theorem toInt_bounds (x : BitVec 64) : -2 ^ 63 ≤ x.toInt ∧ x.toInt < 2 ^ 63 :=
  ⟨le_toInt x, toInt_lt⟩

theorem toNat_bounds (x : BitVec 64) : 0 ≤ (x.toNat : Int) ∧ (x.toNat : Int) < 2 ^ 64 :=
  ⟨Int.natCast_nonneg _, by exact_mod_cast x.isLt⟩

theorem fits_signed_product (hx : -2 ^ 63 ≤ x ∧ x < 2 ^ 63)
    (hy : -2 ^ 63 ≤ y ∧ y < 2 ^ 64) : CInt.Fits 128 (x * y) := by
  have hprod : (x * y).natAbs ≤ 2 ^ 63 * (2 ^ 64 - 1) := by
    rw [Int.natAbs_mul]
    exact Nat.mul_le_mul (by omega) (by omega)
  constructor <;> omega

theorem cEval_isSome_iff (op : MOp) (x y : BitVec 64) :
    (op.cEval x y).isSome ↔ ¬(op = .mulhu ∧ 2 ^ 127 ≤ x.toNat * y.toNat) := by
  have hx := toInt_bounds x
  have hy := toInt_bounds y
  have hxn := toNat_bounds x
  have hyn := toNat_bounds y
  have hfits {v : Int} (h : -2 ^ 63 ≤ v ∧ v < 2 ^ 64) : CInt.Fits 128 v := ⟨by omega, by omega⟩
  cases op with
  | mulh =>
    refine iff_of_true ?_ (by simp)
    rw [cEval, productHigh_isSome (signExtend_eq_ofInt x) (signExtend_eq_ofInt y)
      (hfits ⟨hx.1, by omega⟩) (hfits ⟨hy.1, by omega⟩)]
    exact fits_signed_product hx ⟨hy.1, by omega⟩
  | mulhsu =>
    refine iff_of_true ?_ (by simp)
    rw [cEval, productHigh_isSome (signExtend_eq_ofInt x) (setWidth_eq_ofInt y)
      (hfits ⟨hx.1, by omega⟩) (hfits ⟨by omega, hyn.2⟩)]
    exact fits_signed_product hx ⟨by omega, hyn.2⟩
  | mulhu =>
    rw [cEval, productHigh_isSome (setWidth_eq_ofInt x) (setWidth_eq_ofInt y)
      (hfits ⟨by omega, hxn.2⟩) (hfits ⟨by omega, hyn.2⟩), ← Nat.cast_mul]
    simp only [CInt.Fits, true_and]
    omega
  | div => exact iff_of_true (by rw [cEval, guardedDiv_eq (by decide)]; rfl) (by simp)
  | rem => exact iff_of_true (by rw [cEval, guardedRem_eq (by decide)]; rfl) (by simp)
  | divw => exact iff_of_true (by simp [cEval, guardedDiv_eq]) (by simp)
  | remw => exact iff_of_true (by simp [cEval, guardedRem_eq]) (by simp)
  | mul | divu | remu | mulw | divuw | remuw => exact iff_of_true rfl (by simp)

theorem exec_of_cEval {op : MOp} {x y v : BitVec 64} (h : op.cEval x y = some v) :
    op.exec x y = some v := by
  have hhigh {a b : BitVec 128} (hp : productHigh a b = some v) : some (mulHigh a b) = some v := by
    obtain ⟨q, hq, rfl⟩ := Option.map_eq_some_iff.mp hp
    unfold CInt.mul at hq
    split at hq
    · cases hq
      rfl
    · cases hq
  cases op with
  | mulh => exact hhigh h
  | mulhsu => exact hhigh h
  | mulhu => exact hhigh h
  | div => exact (guardedDiv_eq (by decide) x y).symm.trans h
  | rem => exact (guardedRem_eq (by decide) x y).symm.trans h
  | divw =>
    simp only [cEval, guardedDiv_eq (w := 32) (by decide)] at h
    exact h
  | remw =>
    simp only [cEval, guardedRem_eq (w := 32) (by decide)] at h
    exact h
  | mul | divu | remu | mulw | divuw | remuw => exact h

end MOp

/-- Every M instruction computes its arithmetic definition, and its C expressions yield that value
without a signed operation leaving the range of its type exactly when it is not `mulhu` with
a product that needs the top bit of `__int128`. -/
theorem mulDiv_exact_iff (op : MOp) (x y : BitVec 64) :
    (op.exec x y = some (op.spec x y) ∧ op.cEval x y = some (op.spec x y)) ↔
      ¬(op = .mulhu ∧ 2 ^ 127 ≤ x.toNat * y.toNat) := by
  have hspec := op.exec_eq_spec x y
  rw [← op.cEval_isSome_iff x y]
  constructor
  · rintro ⟨-, hval⟩
    rw [hval]
    rfl
  · intro hsome
    obtain ⟨v, hv⟩ := Option.isSome_iff_exists.mp hsome
    have heq : some v = some (op.spec x y) := (MOp.exec_of_cEval hv).symm.trans hspec
    exact ⟨hspec, hv.trans heq⟩

/-- mulhu of the two largest operands multiplies past `2^127` in a signed type. -/
theorem mulhu_largest_leaves_range :
    (MOp.cEval .mulhu 0xffffffffffffffff 0xffffffffffffffff) = none := by decide

end Cemu.Rv64
