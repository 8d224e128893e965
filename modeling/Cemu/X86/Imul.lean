import Cemu.Lib.SignExtend
import Cemu.X86.AluFlags
import Cemu.X86.Divide

/-!
# x86: signed multiplication

The five encodings of IMUL against the exact signed product. All of them store its low part; the
immediate forms widen their 32-bit r/m operand without its sign, which only CF and OF tell.
-/

namespace Cemu.X86

open RaiseM X86State CInt
open BitVec hiding and_self

variable {D : Type}

/-! ### The two- and three-operand forms -/

def imul16 (a b : BitVec 32) : BitVec 64 :=
  ((a.setWidth 16).signExtend 32 * (b.setWidth 16).signExtend 32).signExtend 64

def imulStore (w32 : Bool) (prod : BitVec 64) : X86M D Unit := do
  setRegSized (opSize w32) (prod.setWidth 32)
  modS fun s => flagsImul s prod (opSize w32)

def imulRegRm : X86M D Unit := do
  let d ← getD
  let a ← rmSized (opSize d.w32)
  let b ← regSized (opSize d.w32)
  imulStore d.w32 (if d.w32 then a.signExtend 64 * b.signExtend 64 else imul16 a b)

def imulImm (byte : Bool) : X86M D (BitVec 32) := do
  let d ← getD
  if byte then
    let v ← fetch8
    pure (v.signExtend 32)
  else if d.w32 then fetch32
  else fetchDisp16

def imulRegRmImm (byte : Bool) : X86M D Unit := do
  let d ← getD
  let imm ← imulImm byte
  let a ← rmSized (opSize d.w32)
  -- `(int64_t)RM32()` widens a `uint32_t`
  imulStore d.w32 (if d.w32 then a.setWidth 64 * imm.signExtend 64 else imul16 a imm)

/-! ### The exact product -/

def exactProduct (size : Nat) (a b : BitVec 32) : Int :=
  (a.setWidth (size * 8)).toInt * (b.setWidth (size * 8)).toInt

def OverflowTold (size : Nat) (p : Int) (s : X86State) : Prop :=
  s.cf = decide (¬Fits (size * 8) p) ∧ s.of = decide (¬Fits (size * 8) p)

instance (size : Nat) (p : Int) (s : X86State) : Decidable (OverflowTold size p s) :=
  inferInstanceAs (Decidable (_ ∧ _))

variable {size : Nat}

theorem overflowTold_iff {p q : Int} {s : X86State} (h : OverflowTold size q s) :
    OverflowTold size p s ↔ (Fits (size * 8) p ↔ Fits (size * 8) q) := by
  rw [OverflowTold, h.1, h.2, and_self, decide_eq_decide, not_iff_not]
  exact iff_comm

theorem flagsImul_told (hsize : IsWidth size) (s : X86State) {p : Int} (hp : Fits 64 p) :
    OverflowTold size p (flagsImul s (BitVec.ofInt 64 p) size) := by
  have hn : 0 < size * 8 ∧ size * 8 ≤ 64 := by rcases hsize with rfl | rfl | rfl <;> decide
  have hflag : decide (.ofInt 64 p ≠
      (BitVec.ofInt 64 p <<< (64 - size * 8)).sshiftRight (64 - size * 8)) =
        decide (¬Fits (size * 8) p) := by
    rw [decide_eq_decide, SignExtend.shiftLeft_sshiftRight hn.1 hn.2, Ne,
      eq_signExtend_setWidth_iff hn.1 hn.2, toInt_ofInt (by decide) hp]
  rw [flagsImul, hflag]
  exact ⟨(getLsbD_setFlag _ _ (by decide) 0).trans (if_pos rfl),
    (getLsbD_setFlag _ _ (by decide) 11).trans
      ((if_neg (by decide)).trans ((getLsbD_setFlag _ _ (by decide) 11).trans (if_pos rfl)))⟩

theorem fits_exactProduct (hsize : IsWidth size) (a b : BitVec 32) :
    Fits 64 (exactProduct size a b) := by
  have hle : exactProduct size a b ≤ 2 ^ (size * 8 * 2 - 2) := toInt_mul_toInt_le
  have hge : -2 ^ (size * 8 * 2 - 2) ≤ exactProduct size a b := le_toInt_mul_toInt
  have hpow : (2 : Int) ^ (size * 8 * 2 - 2) ≤ 4611686018427387904 := by
    rcases hsize with rfl | rfl | rfl <;> decide
  show -9223372036854775808 ≤ _ ∧ _ < 9223372036854775808
  omega

section Products

variable (a b : BitVec 32)

theorem exactProduct_four : exactProduct 4 a b = a.toInt * b.toInt := by
  have hself (v : BitVec 32) : v.setWidth (4 * 8) = v := setWidth_eq v
  rw [exactProduct, hself, hself]

theorem imul16_eq : imul16 a b = BitVec.ofInt 64 (exactProduct 2 a b) := by
  have hprod : (a.setWidth 16).signExtend 32 * (b.setWidth 16).signExtend 32 =
      .ofInt 32 (exactProduct 2 a b) := (ofInt_mul ..).symm
  have hle : exactProduct 2 a b ≤ 2 ^ (16 * 2 - 2) := toInt_mul_toInt_le
  have hge : -2 ^ (16 * 2 - 2) ≤ exactProduct 2 a b := le_toInt_mul_toInt
  have hfits : Fits 32 (exactProduct 2 a b) := by
    show -2147483648 ≤ _ ∧ _ < 2147483648
    omega
  show BitVec.ofInt 64 (BitVec.toInt _) = _
  rw [hprod, toInt_ofInt (by decide) hfits]

theorem imulRegRm_product (w32 : Bool) :
    (if w32 then a.signExtend 64 * b.signExtend 64 else imul16 a b) =
      .ofInt 64 (exactProduct (opSize w32) a b) := by
  cases w32 with
  | false => exact imul16_eq a b
  | true =>
    show a.signExtend 64 * b.signExtend 64 = .ofInt 64 (exactProduct 4 a b)
    rw [exactProduct_four, ofInt_mul]
    rfl

end Products

/-! ### The one-operand forms -/

/-- The double-width result of a one-operand form as a number: AX, DX:AX or EDX:EAX. -/
def X86State.accNumber (s : X86State) (size : Nat) : Int :=
  if size = 1 then (s.x eaxI).toInt
  else if size = 2 then (s.x edxI ++ s.x eaxI).toInt
  else (s.r edxI ++ s.r eaxI).toInt

def AccMultiplied (size : Nat) (a v : BitVec 32) (s : X86State) : Prop :=
  s.accNumber size = exactProduct size a v ∧ OverflowTold size (exactProduct size a v) s

theorem accNumber_flagsImul (s : X86State) (prod : BitVec 64) (size n : Nat) :
    (flagsImul s prod n).accNumber size = s.accNumber size := rfl

theorem halves_append {n : Nat} (z : BitVec 64) :
    (z >>> n).setWidth n ++ z.setWidth n = z.setWidth (n + n) := by
  apply eq_of_getLsbD_eq
  intro i hi
  rw [getLsbD_append, getLsbD_setWidth, getLsbD_setWidth,
    getLsbD_setWidth, getLsbD_ushiftRight, decide_eq_true hi, Bool.true_and]
  by_cases hlow : i < n
  · rw [if_pos hlow, decide_eq_true hlow, Bool.true_and]
  · rw [if_neg hlow, decide_eq_true (by omega), Bool.true_and, Nat.add_sub_cancel' (by omega)]

variable {m m₁ : Machine D} {v : BitVec 32}

theorem fits_double (hsize : IsWidth size) (a b : BitVec 32) :
    Fits (size * 16) (exactProduct size a b) := by
  have hle : exactProduct size a b ≤ 2 ^ (size * 8 * 2 - 2) := toInt_mul_toInt_le
  have hge : -2 ^ (size * 8 * 2 - 2) ≤ exactProduct size a b := le_toInt_mul_toInt
  have hpow : (2 : Int) ^ (size * 8 * 2 - 2) < 2 ^ (size * 16 - 1) := by
    rcases hsize with rfl | rfl | rfl <;> decide
  constructor <;> omega

theorem setWidth_byte (b : BitVec 8) : (b.setWidth 32).setWidth 8 = b := by
  rw [setWidth_setWidth_of_le b (by decide), setWidth_eq]

theorem imul8_multiplied (h : rmSized 1 m = .ok v m₁) :
    ∃ s, imul8 m = .ok () (m₁.setS s) ∧ AccMultiplied 1 (m₁.s.acc 1) v s := by
  obtain ⟨b, hb, rfl⟩ := rmSized_one h
  have hprod : (m₁.s.l eaxI).signExtend 32 * b.signExtend 32 =
      .ofInt 32 (exactProduct 1 (m₁.s.acc 1) (b.setWidth 32)) := by
    have hexact : exactProduct 1 (m₁.s.acc 1) (b.setWidth 32) = (m₁.s.l eaxI).toInt * b.toInt := by
      show (((m₁.s.l eaxI).setWidth 32).setWidth 8).toInt * ((b.setWidth 32).setWidth 8).toInt = _
      rw [setWidth_byte, setWidth_byte]
    rw [hexact, ofInt_mul]
    rfl
  have hfits : Fits 16 (exactProduct 1 (m₁.s.acc 1) (b.setWidth 32)) := fits_double (by decide) _ _
  have hfits32 : Fits 32 (exactProduct 1 (m₁.s.acc 1) (b.setWidth 32)) := by
    obtain ⟨hlo, hhi⟩ := hfits
    show -2147483648 ≤ _ ∧ _ < 2147483648
    omega
  refine ⟨_, by rw [imul8, bind_of_ok hb]; rfl, ?_, ?_⟩
  · rw [accNumber_flagsImul, hprod]
    show (X86State.x _ eaxI).toInt = _
    rw [x_setX_same, setWidth_ofInt (by decide), toInt_ofInt (by decide) hfits]
  · have hwide : (BitVec.ofInt 32 (exactProduct 1 (m₁.s.acc 1) (b.setWidth 32))).signExtend 64 =
        .ofInt 64 (exactProduct 1 (m₁.s.acc 1) (b.setWidth 32)) := by
      rw [BitVec.signExtend, toInt_ofInt (by decide) hfits32]
    rw [hprod, hwide]
    exact flagsImul_told (by decide) _ (fits_exactProduct (by decide) _ _)

theorem accNumber_setPair (s : X86State) (w32 : Bool) (z : BitVec 64) :
    (s.setPair w32 (z.setWidth 32) (highHalf w32 z)).accNumber (opSize w32) =
      (z.setWidth (opSize w32 * 16)).toInt := by
  cases w32 with
  | true =>
    show (((s.setE eaxI (z.setWidth 32)).setE edxI ((z >>> 32).setWidth 32)).r edxI ++
      ((s.setE eaxI (z.setWidth 32)).setE edxI ((z >>> 32).setWidth 32)).r eaxI).toInt = _
    rw [r_setE_same, r_setE_ne _ _ (by decide), r_setE_same, halves_append]
    rfl
  | false =>
    have hhigh : ((z >>> 16).setWidth 32).setWidth 16 = (z >>> 16).setWidth 16 :=
      setWidth_setWidth_of_le _ (by decide)
    have hlow : (z.setWidth 32).setWidth 16 = z.setWidth 16 := setWidth_setWidth_of_le _ (by decide)
    show (((s.setX eaxI ((z.setWidth 32).setWidth 16)).setX edxI
        (((z >>> 16).setWidth 32).setWidth 16)).x edxI ++
      ((s.setX eaxI ((z.setWidth 32).setWidth 16)).setX edxI
        (((z >>> 16).setWidth 32).setWidth 16)).x eaxI).toInt = _
    rw [x_setX_same, x_setX_ne _ _ (by decide), x_setX_same, hhigh, hlow, halves_append]
    rfl

theorem imulW_multiplied (m : Machine D) (v : BitVec 32) : ∃ s, imulW v m = .ok () (m.setS s) ∧
      AccMultiplied (opSize m.d.w32) (m.s.acc (opSize m.d.w32)) v s := by
  have hsize : IsWidth (opSize m.d.w32) := by cases m.d.w32 <;> decide
  have hprod : signedOperand m.d.w32 (m.s.r eaxI) * signedOperand m.d.w32 v =
      .ofInt 64 (exactProduct (opSize m.d.w32) (m.s.acc (opSize m.d.w32)) v) := by
    cases m.d.w32 with
    | true =>
      show (m.s.r eaxI).signExtend 64 * v.signExtend 64 = .ofInt 64 (exactProduct 4 (m.s.r eaxI) v)
      rw [exactProduct_four, ofInt_mul]
      rfl
    | false =>
      have hlow : ((m.s.x eaxI).setWidth 32).setWidth 16 = m.s.x eaxI := by
        rw [setWidth_setWidth_of_le _ (by decide), setWidth_eq]
      show _ =
        BitVec.ofInt 64 ((((m.s.x eaxI).setWidth 32).setWidth 16).toInt * (v.setWidth 16).toInt)
      rw [hlow, ofInt_mul]
      rfl
  refine ⟨_, rfl, ?_, ?_⟩
  · rw [accNumber_flagsImul]
    simp only [hprod]
    have hwide : opSize m.d.w32 * 16 ≤ 64 ∧ 0 < opSize m.d.w32 * 16 := by
      cases m.d.w32 <;> decide
    rw [accNumber_setPair, setWidth_ofInt hwide.1, toInt_ofInt hwide.2 (fits_double hsize _ _)]
  · simp only [hprod]
    exact flagsImul_told hsize _ (fits_exactProduct hsize _ _)

theorem grp3Op_multiplied (hreg : m.d.reg = 5)
    (hsize : size = 1 ∨ size = opSize m.d.w32) (h : rmSized size m = .ok v m₁) :
    ∃ s, grp3Op size m = .ok () (m₁.setS s) ∧ AccMultiplied size (m₁.s.acc size) v s := by
  have hgroup : grp3Op size m = (if size = 1 then grp3Byte 5
      else rmSized size >>= fun src => grp3Word 5 src) m := by
    show (if m.d.reg ≤ 1 then _ else _ : X86M D Unit) m = _
    rw [hreg]
    rfl
  rcases hsize with rfl | hsize
  · rw [hgroup]
    exact imul8_multiplied h
  have hne : size ≠ 1 := by
    rw [hsize]
    cases m.d.w32 <;> decide
  have hw : m₁.d.w32 = m.d.w32 := by rw [(MemFrame.rmSized.of_ok h).d]
  rw [hgroup, if_neg hne, bind_of_ok h, hsize, ← hw]
  exact imulW_multiplied m₁ v

/-! ### The register forms -/

theorem regOperand_setRegSized {w32 : Bool} {m' : Machine D}
    (h : setRegSized (opSize w32) v m = .ok () m') :
    (regOperand (opSize w32) m').setWidth (opSize w32 * 8) = v.setWidth (opSize w32 * 8) := by
  cases h
  cases w32 with
  | true => exact congrArg (BitVec.setWidth 32) (r_setE_same ..)
  | false =>
    show (((m.s.setX m.d.reg (v.setWidth 16)).x m.d.reg).setWidth 32).setWidth 16 = v.setWidth 16
    rw [x_setX_same, setWidth_setWidth_of_le _ (by decide), setWidth_eq]

def LowStored (size : Nat) (a b : BitVec 32) (m : Machine D) : Prop :=
  (regOperand size m).setWidth (size * 8) = BitVec.ofInt (size * 8) (exactProduct size a b)

theorem imulStore_told (w32 : Bool) {q : Int} (hq : Fits 64 q) (m : Machine D) :
    ∃ s, imulStore w32 (.ofInt 64 q) m = .ok () (m.setS s) ∧ OverflowTold (opSize w32) q s ∧
      (regOperand (opSize w32) (m.setS s)).setWidth (opSize w32 * 8) =
        .ofInt (opSize w32 * 8) q := by
  have hsize : IsWidth (opSize w32) := by cases w32 <;> decide
  have hstore : setRegSized (opSize w32) ((BitVec.ofInt 64 q).setWidth 32) m = .ok () (m.setS _) :=
    rfl
  refine ⟨_, rfl, flagsImul_told hsize _ hq, ?_⟩
  have hreg := regOperand_setRegSized hstore
  have hwidth : opSize w32 * 8 ≤ 32 ∧ opSize w32 * 8 ≤ 64 := by cases w32 <;> decide
  rw [setWidth_setWidth_of_le _ hwidth.1, setWidth_ofInt hwidth.2] at hreg
  exact hreg

theorem imulRegRm_told (h : rmSized (opSize m.d.w32) m = .ok v m₁) :
    ∃ s, imulRegRm m = .ok () (m₁.setS s) ∧
      LowStored (opSize m.d.w32) v (regOperand (opSize m.d.w32) m₁) (m₁.setS s) ∧
      OverflowTold (opSize m.d.w32)
        (exactProduct (opSize m.d.w32) v (regOperand (opSize m.d.w32) m₁)) s := by
  have hsize : IsWidth (opSize m.d.w32) := by cases m.d.w32 <;> decide
  obtain ⟨s, hstore, htold, hlow⟩ := imulStore_told m.d.w32
    (fits_exactProduct hsize v (regOperand (opSize m.d.w32) m₁)) m₁
  have hd : getD m = .ok m.d m := rfl
  refine ⟨s, ?_, hlow, htold⟩
  rw [imulRegRm, bind_of_ok hd, bind_of_ok h, bind_of_ok (regSized_eq ..), imulRegRm_product,
    hstore]

/-- What the immediate forms multiply: at 32 bits the r/m operand counts as unsigned. -/
def immProduct (w32 : Bool) (a imm : BitVec 32) : Int :=
  if w32 then a.toNat * imm.toInt else exactProduct 2 a imm

/-- The operands on which the missing sign does not show: none is missing, the product is zero, or
it fits with neither reading. -/
def SignNotMissed (w32 : Bool) (a imm : BitVec 32) : Prop :=
  w32 = true → a.msb = false ∨ imm = 0 ∨
    (¬Fits 32 (a.toInt * imm.toInt) ∧ ¬(a = 0x80000000 ∧ imm = -1))

instance (w32 : Bool) (a imm : BitVec 32) : Decidable (SignNotMissed w32 a imm) :=
  inferInstanceAs (Decidable (_ → _))

section Immediate

variable (a imm : BitVec 32)

theorem imulRegRmImm_product (w32 : Bool) :
    (if w32 then a.setWidth 64 * imm.signExtend 64 else imul16 a imm) =
      .ofInt 64 (immProduct w32 a imm) := by
  cases w32 with
  | false => exact imul16_eq a imm
  | true =>
    have hzero : a.setWidth 64 = .ofInt 64 a.toNat := by
      rw [ofInt_natCast, ofNat_toNat]
    show a.setWidth 64 * imm.signExtend 64 = .ofInt 64 (a.toNat * imm.toInt)
    rw [ofInt_mul, hzero]
    rfl

theorem fits_immProduct (w32 : Bool) : Fits 64 (immProduct w32 a imm) := by
  cases w32 with
  | false => exact fits_exactProduct (by decide) a imm
  | true =>
    have hlo : -2147483648 ≤ imm.toInt := le_toInt imm
    have hhi : imm.toInt < 2147483648 := toInt_lt
    have hmin : a.toNat * -2147483648 ≤ a.toNat * imm.toInt :=
      Int.mul_le_mul_of_nonneg_left hlo (by omega)
    have hmax : a.toNat * imm.toInt ≤ a.toNat * 2147483647 :=
      Int.mul_le_mul_of_nonneg_left (by omega) (by omega)
    show -9223372036854775808 ≤ (a.toNat * imm.toInt) ∧ (a.toNat * imm.toInt) < 9223372036854775808
    omega

theorem immProduct_low (w32 : Bool) : BitVec.ofInt (opSize w32 * 8) (immProduct w32 a imm) =
    .ofInt (opSize w32 * 8) (exactProduct (opSize w32) a imm) := by
  cases w32 with
  | false => rfl
  | true =>
    show BitVec.ofInt 32 (a.toNat * imm.toInt) = .ofInt 32 (exactProduct 4 a imm)
    rw [exactProduct_four, ofInt_mul, ofInt_mul, ofInt_toInt, ofInt_toInt,
      ofInt_natCast, ofNat_toNat, setWidth_eq]

/-- The unsigned reading leaves the range unless a factor is small: its only negative value in the
range is the least one. -/
theorem fits_unsigned_iff (ha : a.msb = true) :
    Fits 32 (a.toNat * imm.toInt) ↔ imm = 0 ∨ (a = 0x80000000 ∧ imm = -1) := by
  have hbig : 2147483648 ≤ a.toNat := le_toNat_of_msb_true ha
  have hzero : imm = 0 ↔ imm.toInt = 0 := eq_zero_iff
  have hminus : imm = -1 ↔ imm.toInt = -1 := eq_neg_one_iff (by decide)
  have hleast : a = 0x80000000 ↔ a.toNat = 2147483648 := by
    rw [← toNat_inj]
    rfl
  rw [hzero, hminus, hleast]
  show (-2147483648 ≤ (a.toNat * imm.toInt) ∧ _ < 2147483648) ↔ _
  generalize imm.toInt = i
  rcases (by omega : i = 0 ∨ 1 ≤ i ∨ i = -1 ∨ i ≤ -2) with rfl | hpos | rfl | hneg
  · omega
  · have hmul : a.toNat * 1 ≤ a.toNat * i := Int.mul_le_mul_of_nonneg_left hpos (by omega)
    omega
  · omega
  · have hmul : a.toNat * i ≤ a.toNat * -2 := Int.mul_le_mul_of_nonneg_left hneg (by omega)
    omega

theorem immProduct_fits_iff (w32 : Bool) :
    (Fits (opSize w32 * 8) (exactProduct (opSize w32) a imm) ↔
        Fits (opSize w32 * 8) (immProduct w32 a imm)) ↔ SignNotMissed w32 a imm := by
  cases w32 with
  | false => exact iff_of_true .rfl nofun
  | true =>
    show (Fits 32 (exactProduct 4 a imm) ↔ Fits 32 (a.toNat * imm.toInt)) ↔ _
    rw [exactProduct_four]
    cases ha : a.msb with
    | false =>
      rw [toInt_eq_toNat_of_msb ha]
      exact iff_of_true .rfl fun _ => .inl ha
    | true =>
      have hminus : a = 0x80000000 ∧ imm = -1 → ¬Fits 32 (a.toInt * imm.toInt) := by
        rintro ⟨rfl, rfl⟩
        decide
      have hzero : imm = 0 → Fits 32 (a.toInt * imm.toInt) := by
        rintro rfl
        rw [ofNat_eq_ofNat, toInt_zero, Int.mul_zero]
        decide
      rw [fits_unsigned_iff a imm ha]
      unfold SignNotMissed
      rw [ha]
      by_cases hz : imm = 0
      · exact iff_of_true (iff_of_true (hzero hz) (.inl hz)) fun _ => .inr (.inl hz)
      by_cases hm : a = 0x80000000 ∧ imm = -1
      · refine iff_of_false (fun hiff => hminus hm (hiff.mpr (.inr hm))) fun hcond => ?_
        rcases hcond rfl with hmsb | hz' | hboth
        · cases hmsb
        · exact hz hz'
        · exact hboth.2 hm
      · have hq : ¬(imm = 0 ∨ (a = 0x80000000 ∧ imm = -1)) := by
          rintro (hz' | hm')
          · exact hz hz'
          · exact hm hm'
        constructor
        · intro hiff _
          exact .inr (.inr ⟨fun hfits => hq (hiff.mp hfits), hm⟩)
        · intro hcond
          rcases hcond rfl with hmsb | hz' | hboth
          · cases hmsb
          · exact absurd hz' hz
          · exact iff_of_false hboth.1 hq

end Immediate

theorem imulRegRmImm_told {byte : Bool} {m t m₁ : Machine D} {imm v : BitVec 32}
    (himm : imulImm byte m = .ok imm t) (h : rmSized (opSize m.d.w32) t = .ok v m₁) :
    ∃ s, imulRegRmImm byte m = .ok () (m₁.setS s) ∧ LowStored (opSize m.d.w32) v imm (m₁.setS s) ∧
      (OverflowTold (opSize m.d.w32) (exactProduct (opSize m.d.w32) v imm) s ↔
        SignNotMissed m.d.w32 v imm) := by
  obtain ⟨s, hstore, htold, hlow⟩ := imulStore_told m.d.w32 (fits_immProduct v imm m.d.w32) m₁
  have hd : getD m = .ok m.d m := rfl
  refine ⟨s, ?_, ?_, ?_⟩
  · rw [imulRegRmImm, bind_of_ok hd, bind_of_ok himm, bind_of_ok h, imulRegRmImm_product, hstore]
  · rw [LowStored, hlow, immProduct_low]
  · rw [overflowTold_iff htold, immProduct_fits_iff]

/-- Every encoding stores the exact signed product. The one- and two-operand forms tell in CF and
OF whether it fits; the immediate forms do so exactly when the sign of a 32-bit r/m operand makes
no difference. -/
theorem imul_exact_iff (D : Type) :
    (∀ (size : Nat) (m m₁ : Machine D) (v : BitVec 32), m.d.reg = 5 →
      size = 1 ∨ size = opSize m.d.w32 → rmSized size m = .ok v m₁ →
      ∃ s, grp3Op size m = .ok () (m₁.setS s) ∧ AccMultiplied size (m₁.s.acc size) v s) ∧
    (∀ (m m₁ : Machine D) (v : BitVec 32), rmSized (opSize m.d.w32) m = .ok v m₁ →
      ∃ s, imulRegRm m = .ok () (m₁.setS s) ∧
        LowStored (opSize m.d.w32) v (regOperand (opSize m.d.w32) m₁) (m₁.setS s) ∧
        OverflowTold (opSize m.d.w32)
          (exactProduct (opSize m.d.w32) v (regOperand (opSize m.d.w32) m₁)) s) ∧
    (∀ (byte : Bool) (m t m₁ : Machine D) (imm v : BitVec 32),
      imulImm byte m = .ok imm t → rmSized (opSize m.d.w32) t = .ok v m₁ →
      ∃ s, imulRegRmImm byte m = .ok () (m₁.setS s) ∧
        LowStored (opSize m.d.w32) v imm (m₁.setS s) ∧
        (OverflowTold (opSize m.d.w32) (exactProduct (opSize m.d.w32) v imm) s ↔
          SignNotMissed m.d.w32 v imm)) := by
  refine ⟨?_, ?_, ?_⟩
  · intro size m m₁ v hreg hsize h
    exact grp3Op_multiplied hreg hsize h
  · intro m m₁ v h
    exact imulRegRm_told h
  · intro byte m t m₁ imm v himm h
    exact imulRegRmImm_told himm h

def imulMachine (ebx : BitVec 32) (imm : BitVec 8) : Machine Unit :=
  .small { x86InitMultiboot with r := fun i => if i = ebxI then ebx else 0 }
    { Dec.start true with mod := 3, rm := ebxI } fun _ => imm

/-- IMUL EAX, EBX, 3 of 7. -/
theorem imul_exact_seven_three :
    ∃ t m₁ s, imulImm true (imulMachine 7 3) = .ok 3 t ∧ rmSized 4 t = .ok 7 m₁ ∧
      imulRegRmImm true (imulMachine 7 3) = .ok () (m₁.setS s) ∧
      LowStored 4 7 3 (m₁.setS s) ∧ OverflowTold 4 21 s := by
  obtain ⟨s, hrun, hlow, htold⟩ := (imul_exact_iff Unit).2.2 true (imulMachine 7 3) _ _ 3 7 rfl rfl
  exact ⟨_, _, s, rfl, rfl, hrun, hlow, htold.mpr (by decide)⟩

/-- IMUL EAX, EBX, 3 of -1: the product -3 fits, and CF and OF say that it does not. -/
theorem imul_minus_one_by_three :
    ∃ m', imulRegRmImm true (imulMachine 0xffffffff 3) = .ok () m' ∧ m'.s.r eaxI = 0xfffffffd ∧
      exactProduct 4 0xffffffff 3 = -3 ∧ m'.s.cf = true ∧ m'.s.of = true ∧
      ¬OverflowTold 4 (-3) m'.s := by
  refine ⟨_, rfl, ?_⟩
  decide +kernel

end Cemu.X86
