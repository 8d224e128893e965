import Cemu.Lib.Rotate
import Cemu.X86.AluFlags
import Cemu.X86.Shift

/-!
# x86: shifts and rotations of bit strings

What a shift or rotation does to its operand as a string of bits, and that the C expressions
compute it: the operand, the carry, and the overflow flag of a one-bit move.
-/

namespace Cemu.X86

open Rotate

open RaiseM BitVec X86State

variable {D : Type}

/-! ### Bit strings -/

namespace ShiftOp

variable {w : Nat}

def result (op : ShiftOp) (x : BitVec w) (c : Bool) (n : Nat) : BitVec w :=
  match op with
  | rol => x.rotateLeft n
  | ror => x.rotateRight n
  | rcl => ((BitVec.cons c x).rotateLeft n).setWidth w
  | rcr => ((BitVec.cons c x).rotateRight n).setWidth w
  | shl => x <<< n
  | shr => x >>> n
  | sar => x.sshiftRight n

def carry (op : ShiftOp) (x : BitVec w) (c : Bool) (n : Nat) : Bool :=
  match op with
  | rol => (x.rotateLeft n).getLsbD 0
  | ror => (x.rotateRight n).msb
  | rcl => ((BitVec.cons c x).rotateLeft n).msb
  | rcr => ((BitVec.cons c x).rotateRight n).msb
  | shl => x.getLsbD (w - n)
  | shr => x.getLsbD (n - 1)
  | sar => if n < w then x.getLsbD (n - 1) else x.msb

def carryDefined (op : ShiftOp) (w n : Nat) : Prop := op = shl ∨ op = shr → n < w

def overflow (op : ShiftOp) (x : BitVec w) (c : Bool) : Bool :=
  match op with
  | shl | rol | rcl => (op.result x c 1).msb.xor (op.carry x c 1)
  | shr => x.msb
  | sar => false
  | ror => (op.result x c 1).msb.xor ((op.result x c 1).getLsbD (w - 2))
  | rcr => x.msb.xor c

end ShiftOp

namespace DoubleOp

variable {w : Nat}

def result (op : DoubleOp) (dst src : BitVec w) (n : Nat) : BitVec w :=
  match op with
  | shld => ((dst ++ src) <<< n).extractLsb' w w
  | shrd => ((src ++ dst) >>> n).setWidth w

def carry (op : DoubleOp) (dst : BitVec w) (n : Nat) : Bool :=
  match op with
  | shld => dst.getLsbD (w - n)
  | shrd => dst.getLsbD (n - 1)

def overflow (op : DoubleOp) (dst src : BitVec w) : Bool := (op.result dst src 1).msb.xor dst.msb

end DoubleOp

/-! ### Single flags -/

section Flags

variable (s : X86State) (b : Bool) (r : BitVec 32) (size : Nat)

theorem getLsbD_szp {k : Nat} (hk : kFlagSzp.getLsbD k = false) :
    (s.szp r size).fl.getLsbD k = s.fl.getLsbD k := by
  have hbits : szpBits r size &&& kFlagSzp = szpBits r size := by
    unfold szpBits
    generalize (nibbleParity r == nibbleParity (r >>> 4)) = p, decide (r &&& vmask size = 0) = z,
      has r (vmsb size) = g
    revert p z g
    decide
  rw [szp, ← hbits]
  by_cases hlt : k < 32
  · simp only [getLsbD_or, getLsbD_and, getLsbD_not, hk, hlt, decide_true,
      Bool.not_false, Bool.and_true, Bool.and_false, Bool.or_false]
  · rw [getLsbD_of_ge _ k (by omega), getLsbD_of_ge _ k (by omega)]

namespace X86State

@[simp] theorem cf_setCf : (s.setCf b).cf = b := getLsbD_setFlag s b (by decide) 0
@[simp] theorem cf_setOf : (s.setOf b).cf = s.cf := getLsbD_setFlag s b (by decide) 0
@[simp] theorem of_setOf : (s.setOf b).of = b := getLsbD_setFlag s b (by decide) 11
@[simp] theorem cf_clearAf : s.clearAf.cf = s.cf := getLsbD_setFlag s false (by decide) 0
@[simp] theorem of_clearAf : s.clearAf.of = s.of := getLsbD_setFlag s false (by decide) 11
@[simp] theorem cf_szp : (s.szp r size).cf = s.cf := getLsbD_szp s r size (by decide)
@[simp] theorem of_szp : (s.szp r size).of = s.of := getLsbD_szp s r size (by decide)

@[simp] theorem cf_setOfAtOne (cnt : Nat) : (s.setOfAtOne cnt b).cf = s.cf := by
  unfold setOfAtOne
  split
  · exact s.cf_setOf b
  · rfl

@[simp] theorem of_setOfAtOne : (s.setOfAtOne 1 b).of = b := s.of_setOf b

end X86State

end Flags

/-! ### The C expressions -/

section Width

variable {size : Nat} (h : IsWidth size)

include h

theorem IsWidth.bounds : 8 ≤ size * 8 ∧ size * 8 ≤ 32 := by
  rcases h with rfl | rfl | rfl <;> decide

theorem and_vmask_eq (r : BitVec 32) : r &&& vmask size = (r.setWidth (size * 8)).setWidth 32 := by
  apply eq_of_toNat_eq
  have hle : 2 ^ (size * 8) ≤ 2 ^ 32 := Nat.pow_le_pow_right (by decide) h.bounds.2
  rw [and_vmask h, toNat_setWidth 32, Nat.mod_eq_of_lt (by omega)]

theorem setWidth_operand (x : BitVec (size * 8)) : (x.setWidth 32).setWidth (size * 8) = x := by
  rw [setWidth_setWidth_of_le _ h.bounds.2, setWidth_eq]

theorem has_vmsb_operand (x : BitVec (size * 8)) : has (x.setWidth 32) (vmsb size) = x.msb := by
  rw [has_vmsb h, setWidth_operand h]

end Width

/-- What a shift leaves: the operand, and CF and OF where the move defines them. -/
structure Shifted {size : Nat} (op : ShiftOp) (x : BitVec (size * 8)) (n : Nat) (s : X86State)
    (out : BitVec 32 × X86State) : Prop where
  value : out.1 = (op.result x s.cf n).setWidth 32
  carry : n ≠ 0 → op.carryDefined (size * 8) n → out.2.cf = op.carry x s.cf n
  overflow : n = 1 → op ≠ .rcr → out.2.of = op.overflow x s.cf
  kept : n = 0 → out.2 = s

section Ops

variable {size : Nat} (h : IsWidth size) (x : BitVec (size * 8)) {n : Nat} (s : X86State)

theorem getLsbD_operand {k : Nat} (hk : k < 32) :
    ((x.setWidth 32) >>> k).getLsbD 0 = x.getLsbD k := by
  rw [getLsbD_ushiftRight, getLsbD_setWidth, Nat.add_zero, decide_eq_true hk, Bool.true_and]

theorem Shifted.zero (op : ShiftOp) : Shifted op x 0 s (op.apply (x.setWidth 32) 0 size s) where
  value := by
    cases op <;>
      simp [ShiftOp.apply, ShiftOp.result, rol, ror, rcl, rcr, shl, shr, sar,
        rotateLeft_zero, rotateRight_zero]
  carry := fun hn => absurd rfl hn
  overflow := nofun
  kept := fun _ => by cases op <;> rfl

include h

theorem shl_shifted (hn : n ≠ 0) : Shifted .shl x n s (shl (x.setWidth 32) n size s) := by
  have hb := h.bounds
  have hvalue : (if size * 8 ≤ n then 0#32 else x.setWidth 32 <<< n &&& vmask size) =
      (x <<< n).setWidth 32 := by
    split
    next hle => rw [shiftLeft_eq_zero hle, setWidth_zero]
    next => rw [and_vmask_eq h, setWidth_shiftLeft hb.2]
  have hcarry (hlt : n < size * 8) : (decide (n < size * 8) &&
      (x.setWidth 32 >>> (size * 8 - n)).getLsbD 0) = x.getLsbD (size * 8 - n) := by
    rw [decide_eq_true hlt, Bool.true_and, getLsbD_operand x (by omega)]
  rw [shl, if_neg hn]
  refine ⟨hvalue, fun _ hdef => ?_, fun hone _ => ?_, fun hz => absurd hz hn⟩
  · simp only [cf_szp, cf_clearAf, cf_setOfAtOne, cf_setCf]
    exact hcarry (hdef (.inl rfl))
  · subst hone
    simp only [of_szp, of_clearAf, of_setOfAtOne, msbXorCf,
      cf_setCf]
    rw [hcarry (by omega)]
    refine (congrArg (fun r => (has r (vmsb size)).xor _) hvalue).trans ?_
    rw [has_vmsb_operand h]
    rfl

theorem shr_shifted (hn : n ≠ 0) (hlt : n < 32) :
    Shifted .shr x n s (shr (x.setWidth 32) n size s) := by
  have hb := h.bounds
  rw [shr, if_neg hn]
  refine ⟨?_, fun _ _ => ?_, fun hone _ => ?_, fun hz => absurd hz hn⟩
  · show (if size * 8 ≤ n then 0#32 else x.setWidth 32 >>> n) = (x >>> n).setWidth 32
    split
    next hle => rw [ushiftRight_eq_zero hle, setWidth_zero]
    next => exact ushiftRight_setWidth x hb.2 n
  · simp only [cf_szp, cf_clearAf, cf_setOf, cf_setCf]
    exact getLsbD_operand x (by omega)
  · subst hone
    simp only [of_szp, of_clearAf, of_setOf, decide_true, Bool.true_and]
    exact has_vmsb_operand h x

theorem getLsbD_vmask {k : Nat} (hk : k < size * 8) : (vmask size).getLsbD k = true := by
  revert k
  rcases h with rfl | rfl | rfl <;> decide

theorem sar_shifted (hn : n ≠ 0) (hlt : n < 32) :
    Shifted .sar x n s (sar (x.setWidth 32) n size s) := by
  have hb := h.bounds
  have hfill : ∀ i < size * 8, (if x.msb then vmask size else 0#32).getLsbD i = x.msb := by
    intro i hi
    cases x.msb with
    | false => exact getLsbD_zero
    | true => exact getLsbD_vmask h hi
  rw [sar, if_neg hn]
  simp only [has_vmsb_operand h]
  refine ⟨?_, fun _ _ => ?_, fun hone _ => ?_, fun hz => absurd hz hn⟩
  · show (if size * 8 ≤ n then (if x.msb then vmask size else 0#32) else (x.setWidth 32 >>> n |||
      (if x.msb then vmask size else 0#32) <<< (size * 8 - n)) &&& vmask size) =
        (x.sshiftRight n).setWidth 32
    split
    next hle =>
      have hmasked : (if x.msb then vmask size else 0#32) =
          (if x.msb then vmask size else 0#32) &&& vmask size := by
        cases x.msb with
        | false => exact BitVec.zero_and.symm
        | true => exact BitVec.and_self.symm
      rw [hmasked, and_vmask_eq h]
      congr 1
      apply eq_of_getLsbD_eq
      intro i hi
      rw [getLsbD_setWidth, decide_eq_true hi, Bool.true_and, hfill i hi,
        getLsbD_sshiftRight, decide_eq_false (by omega), Bool.not_false, Bool.true_and,
        if_neg (by omega)]
    next hgt =>
      rw [and_vmask_eq h, sshiftRight_host hb.2 x (by omega) hfill]
  · simp only [cf_szp, cf_clearAf, cf_setOfAtOne, cf_setCf]
    rw [getLsbD_operand x (by omega)]
    show (if size * 8 ≤ n then x.msb else x.getLsbD (n - 1)) =
      if n < size * 8 then x.getLsbD (n - 1) else x.msb
    by_cases hin : n < size * 8
    · rw [if_pos hin, if_neg (by omega)]
    · rw [if_neg hin, if_pos (by omega)]
  · subst hone
    simp only [of_szp, of_clearAf, of_setOfAtOne]
    rfl

theorem rol_shifted (hn : n ≠ 0) : Shifted .rol x n s (rol (x.setWidth 32) n size s) := by
  have hvalue : (x.setWidth 32 <<< (n % (size * 8)) |||
        x.setWidth 32 >>> (size * 8 - n % (size * 8))) &&& vmask size =
          (x.rotateLeft n).setWidth 32 := by
    rw [and_vmask_eq h, rotateLeft_host h.bounds.2]
  have hcarry : ((x.rotateLeft n).setWidth 32).getLsbD 0 = (x.rotateLeft n).getLsbD 0 := by
    rw [getLsbD_setWidth, decide_eq_true (by decide), Bool.true_and]
  rw [rol, if_neg hn]
  simp only [hvalue, hcarry]
  refine ⟨rfl, fun _ _ => ?_, fun hone _ => ?_, fun hz => absurd hz hn⟩
  · simp only [cf_setOfAtOne, cf_setCf]
    rfl
  · subst hone
    simp only [of_setOfAtOne, msbXorCf, cf_setCf, has_vmsb_operand h]
    rfl

theorem ror_shifted (hn : n ≠ 0) : Shifted .ror x n s (ror (x.setWidth 32) n size s) := by
  have hvalue : (x.setWidth 32 >>> (n % (size * 8)) |||
        x.setWidth 32 <<< (size * 8 - n % (size * 8))) &&& vmask size =
          (x.rotateRight n).setWidth 32 := by
    rw [and_vmask_eq h, rotateRight_host h.bounds.2]
  have hsecond (r : BitVec (size * 8)) : has (r.setWidth 32) (vmsb size >>> 1) =
      r.getLsbD (size * 8 - 2) := by
    have hbit : vmsb size >>> 1 = 1#32 <<< (size * 8 - 2) := by
      rcases h with rfl | rfl | rfl <;> decide
    have hb := h.bounds
    rw [hbit, has_bit, getLsbD_setWidth, decide_eq_true (by omega), Bool.true_and]
  rw [ror, if_neg hn]
  simp only [hvalue, has_vmsb_operand h]
  refine ⟨rfl, fun _ _ => ?_, fun hone _ => ?_, fun hz => absurd hz hn⟩
  · simp only [cf_setOf, cf_setCf]
    rfl
  · subst hone
    simp only [of_setOf]
    rw [hsecond]
    rfl

theorem carryRing_eq : carryRing (x.setWidth 32) size s = (BitVec.cons s.cf x).setWidth 64 := by
  have hb := h.bounds
  rw [carryRing, and_vmask_eq h, setWidth_operand h]
  apply eq_of_getLsbD_eq
  intro i hi
  rw [getLsbD_or, getLsbD_shiftLeft, getLsbD_setWidth, getLsbD_setWidth,
    getLsbD_setWidth, getLsbD_setWidth, getLsbD_cons, getLsbD_ofBool,
    decide_eq_true hi, decide_eq_true (by omega : i - size * 8 < 64), Bool.true_and, Bool.true_and,
    Bool.true_and, Bool.true_and]
  by_cases hlow : i < size * 8
  · rw [decide_eq_true hlow, if_neg (by omega), decide_eq_true (by omega : i < 32), Bool.not_true,
      Bool.false_and, Bool.false_or, Bool.true_and]
  rw [decide_eq_false hlow, getLsbD_of_ge x i (by omega), Bool.and_false, Bool.or_false,
    Bool.not_false, Bool.true_and]
  by_cases hhead : i = size * 8
  · rw [if_pos hhead, decide_eq_true (by omega), Bool.true_and]
  · rw [if_neg hhead, decide_eq_false (by omega), Bool.false_and]

theorem ringOut_eq {ring : BitVec 64} {ring' : BitVec (size * 8 + 1)}
    (hring : ring.setWidth (size * 8 + 1) = ring') :
    (ringOut ring size s).1 = (ring'.setWidth (size * 8)).setWidth 32 ∧
      (ringOut ring size s).2.cf = ring'.msb ∧
      (ringOut ring size s).2.of = (ring'.setWidth (size * 8)).msb.xor ring'.msb := by
  have hb := h.bounds
  have hlow : (ring.setWidth 32).setWidth (size * 8) = ring'.setWidth (size * 8) := by
    rw [← hring, setWidth_setWidth_of_le _ hb.2, setWidth_setWidth_of_le _ (by omega)]
  have hhead : (ring >>> (size * 8)).getLsbD 0 = ring'.msb := by
    rw [← hring, getLsbD_ushiftRight, msb_eq_getLsbD_last, getLsbD_setWidth,
      Nat.add_zero, Nat.add_sub_cancel, decide_eq_true (by omega), Bool.true_and]
  rw [ringOut, hhead]
  refine ⟨?_, ?_, ?_⟩
  · rw [and_vmask_eq h, hlow]
  · simp only [cf_setOf, cf_setCf]
  · simp only [of_setOf, msbXorCf, cf_setCf]
    rw [has_vmsb h, hlow]

theorem rcl_shifted (hn : n ≠ 0) : Shifted .rcl x n s (rcl (x.setWidth 32) n size s) := by
  have hb := h.bounds
  rw [rcl, if_neg hn]
  simp only [carryRing_eq h]
  obtain ⟨hvalue, hcf, hof⟩ := ringOut_eq h s (rotateLeft_host
    (show size * 8 + 1 ≤ 64 by omega) (BitVec.cons s.cf x) n)
  refine ⟨hvalue, fun _ _ => hcf, fun hone _ => ?_, fun hz => absurd hz hn⟩
  subst hone
  exact hof

theorem rcr_shifted (hn : n ≠ 0) : Shifted .rcr x n s (rcr (x.setWidth 32) n size s) := by
  have hb := h.bounds
  rw [rcr, if_neg hn]
  simp only [carryRing_eq h]
  obtain ⟨hvalue, hcf, -⟩ := ringOut_eq h s (rotateRight_host
    (show size * 8 + 1 ≤ 64 by omega) (BitVec.cons s.cf x) n)
  exact ⟨hvalue, fun _ _ => hcf, fun _ hop => absurd rfl hop, fun hz => absurd hz hn⟩

theorem apply_shifted (op : ShiftOp) (hlt : n < 32) :
    Shifted op x n s (op.apply (x.setWidth 32) n size s) := by
  by_cases hn : n = 0
  · subst hn
    exact Shifted.zero x s op
  · cases op with
    | rol => exact rol_shifted h x s hn
    | ror => exact ror_shifted h x s hn
    | rcl => exact rcl_shifted h x s hn
    | rcr => exact rcr_shifted h x s hn
    | shl => exact shl_shifted h x s hn
    | shr => exact shr_shifted h x s hn hlt
    | sar => exact sar_shifted h x s hn hlt

end Ops

/-! ### Moving back -/

section Back

variable {w : Nat} (x : BitVec w) (c : Bool) (n : Nat)

theorem ShiftOp.ror_rol (c' : Bool) : ror.result (rol.result x c n) c' n = x :=
  rotateRight_rotateLeft x n

theorem ShiftOp.rcr_rcl :
    rcr.result (rcl.result x c n) (rcl.carry x c n) n = x ∧
      rcr.carry (rcl.result x c n) (rcl.carry x c n) n = c := by
  have hring : BitVec.cons (rcl.carry x c n) (rcl.result x c n) = (BitVec.cons c x).rotateLeft n :=
    cons_msb_setWidth _
  constructor
  · show ((BitVec.cons (rcl.carry x c n) (rcl.result x c n)).rotateRight n).setWidth w = x
    rw [hring, rotateRight_rotateLeft, setWidth_cons]
  · show ((BitVec.cons (rcl.carry x c n) (rcl.result x c n)).rotateRight n).msb = c
    rw [hring, rotateRight_rotateLeft, msb_cons]

end Back

/-! ### Double shifts -/

structure DoubleShifted {w32 : Bool} (op : DoubleOp) (x y : BitVec (opSize w32 * 8)) (n : Nat)
    (s : X86State) (out : BitVec 32 × X86State) : Prop where
  value : n ≤ opSize w32 * 8 → out.1 = (op.result x y n).setWidth 32
  carry : n ≠ 0 → n ≤ opSize w32 * 8 → out.2.cf = op.carry x n
  kept : n = 0 → out.2 = s

section Double

variable {w : Nat} (x y : BitVec w)

theorem or_shiftLeft_eq_append :
    x.setWidth (w + w) <<< w ||| y.setWidth (w + w) = x ++ y := by
  apply eq_of_getLsbD_eq
  intro i hi
  rw [getLsbD_or, getLsbD_shiftLeft, getLsbD_setWidth, getLsbD_setWidth,
    getLsbD_append, decide_eq_true hi, decide_eq_true (by omega : i - w < w + w),
    Bool.true_and, Bool.true_and, Bool.true_and]
  by_cases hlow : i < w
  · rw [if_pos hlow, decide_eq_true hlow, Bool.not_true, Bool.false_and, Bool.false_or]
  · rw [if_neg hlow, decide_eq_false hlow, Bool.not_false, Bool.true_and,
      getLsbD_of_ge y i (by omega), Bool.or_false]

theorem wide_append (x y : BitVec 32) :
    (x.setWidth 32).setWidth 64 <<< 32 ||| (y.setWidth 32).setWidth 64 = x ++ y := by
  exact or_shiftLeft_eq_append x y

theorem extract_high (z : BitVec (w + w)) : (z >>> w).setWidth w = z.extractLsb' w w := by
  apply eq_of_getLsbD_eq
  intro i hi
  rw [getLsbD_setWidth, getLsbD_ushiftRight, getLsbD_extractLsb']

theorem append_out_high {n : Nat} (hn : n ≤ w) :
    ((x ++ y) >>> (w + w - n)).getLsbD 0 = x.getLsbD (w - n) := by
  rw [getLsbD_ushiftRight, getLsbD_append, if_neg (by omega)]
  congr 1
  omega

theorem append_out_low {n : Nat} (h0 : n ≠ 0) (hn : n ≤ w) :
    ((y ++ x) >>> (n - 1)).getLsbD 0 = x.getLsbD (n - 1) := by
  rw [getLsbD_ushiftRight, getLsbD_append, if_pos (by omega), Nat.add_zero]

end Double

section

variable (w32 : Bool) (x y : BitVec (opSize w32 * 8)) (n : Nat) (s : X86State)

theorem shld_doubleShifted :
    DoubleShifted .shld x y n s (shldMath w32 (x.setWidth 32) (y.setWidth 32) n s) := by
  cases w32 with
  | false =>
    have hcomb : x.setWidth 32 <<< 16 ||| y.setWidth 32 = x ++ y :=
      or_shiftLeft_eq_append (w := 16) x y
    unfold shldMath
    rw [if_neg (by decide)]
    dsimp only
    refine ⟨fun _ => ?_, fun h0 hn => ?_, fun hz => if_pos hz⟩
    · exact congrArg
        (fun z : BitVec 32 => ((z <<< n >>> 16).setWidth 16).setWidth 32) hcomb |>.trans
        (congrArg (BitVec.setWidth 32) (extract_high ((x ++ y) <<< n)))
    · rw [if_neg h0, cf_szp, cf_setCf]
      exact congrArg (fun z : BitVec 32 => (z >>> (32 - n)).getLsbD 0) hcomb |>.trans
        (append_out_high x y hn)
  | true =>
    have hcomb := wide_append x y
    unfold shldMath
    rw [if_pos rfl]
    dsimp only
    refine ⟨fun _ => ?_, fun h0 hn => ?_, fun hz => if_pos hz⟩
    · exact congrArg (fun z : BitVec 64 => (z <<< n >>> 32).setWidth 32) hcomb |>.trans
        ((extract_high ((x ++ y) <<< n)).trans (setWidth_eq _).symm)
    · rw [if_neg h0, cf_szp, cf_setOf, cf_setCf]
      exact congrArg (fun z : BitVec 64 => (z >>> (64 - n)).getLsbD 0) hcomb |>.trans
        (append_out_high x y hn)

theorem shrd_doubleShifted :
    DoubleShifted .shrd x y n s (shrdMath w32 (x.setWidth 32) (y.setWidth 32) n s) := by
  cases w32 with
  | false =>
    have hcomb : y.setWidth 32 <<< 16 ||| x.setWidth 32 = y ++ x :=
      or_shiftLeft_eq_append (w := 16) y x
    unfold shrdMath
    rw [if_neg (by decide)]
    dsimp only
    refine ⟨fun _ => ?_, fun h0 hn => ?_, fun hz => if_pos hz⟩
    · exact congrArg (fun z : BitVec 32 => ((z >>> n).setWidth 16).setWidth 32) hcomb
    · rw [if_neg h0, cf_szp, cf_setCf]
      exact congrArg (fun z : BitVec 32 => (z >>> (n - 1)).getLsbD 0) hcomb |>.trans
        (append_out_low x y h0 hn)
  | true =>
    have hcomb := wide_append y x
    unfold shrdMath
    rw [if_pos rfl]
    dsimp only
    refine ⟨fun _ => ?_, fun h0 hn => ?_, fun hz => if_pos hz⟩
    · exact congrArg (fun z : BitVec 64 => (z >>> n).setWidth 32) hcomb |>.trans
        (setWidth_eq _).symm
    · rw [if_neg h0, cf_szp, cf_setCf]
      exact congrArg (fun z : BitVec 64 => (z >>> (n - 1)).getLsbD 0) hcomb |>.trans
        (append_out_low x y h0 hn)

end

theorem DoubleOp.apply_shifted (op : DoubleOp) (w32 : Bool) (x y : BitVec (opSize w32 * 8))
    (n : Nat) (s : X86State) :
    DoubleShifted op x y n s (op.apply w32 (x.setWidth 32) (y.setWidth 32) n s) := by
  cases op with
  | shld => exact shld_doubleShifted w32 x y n s
  | shrd => exact shrd_doubleShifted w32 x y n s

/-! ### The instructions -/

theorem setWidth_fits {n k : Nat} (hn : n ≤ k) (hk : k ≤ 32) (b : BitVec n) :
    ((b.setWidth 32).setWidth k).setWidth 32 = b.setWidth 32 := by
  rw [setWidth_setWidth_of_le _ hk]
  apply eq_of_getLsbD_eq
  intro i hi
  rw [getLsbD_setWidth, getLsbD_setWidth, getLsbD_setWidth]
  by_cases hin : i < n
  · rw [decide_eq_true (by omega : i < k), Bool.true_and]
  · rw [getLsbD_of_ge b i (by omega), Bool.and_false]

theorem rmSized_fits {size : Nat} {m m₁ : Machine D} {v : BitVec 32} (h : IsWidth size)
    (hrm : rmSized size m = .ok v m₁) : (v.setWidth (size * 8)).setWidth 32 = v := by
  rcases h with rfl | rfl | rfl
  · obtain ⟨b, _, -, hpure⟩ := bind_eq_ok hrm
    cases hpure
    exact setWidth_fits (by decide) (by decide) b
  · obtain ⟨b, _, -, hpure⟩ := bind_eq_ok hrm
    cases hpure
    exact setWidth_fits (by decide) (by decide) b
  · exact setWidth_setWidth_of_le v (by decide) |>.trans (setWidth_eq _)

theorem regOperand_fits {size : Nat} (h : IsWidth size) (m : Machine D) :
    ((regOperand size m).setWidth (size * 8)).setWidth 32 = regOperand size m := by
  rcases h with rfl | rfl | rfl
  · exact setWidth_fits (n := 8) (by decide) (by decide) _
  · exact setWidth_fits (n := 16) (by decide) (by decide) _
  · exact setWidth_setWidth_of_le _ (by decide) |>.trans (setWidth_eq _)

theorem maskedCount_lt (cnt : BitVec 8) : maskedCount cnt < 32 := by
  have hmask : (31 : BitVec 8).toNat = 2 ^ 5 - 1 := by decide
  rw [maskedCount, toNat_and, hmask, Nat.and_two_pow_sub_one_eq_mod]
  exact Nat.mod_lt _ (by decide)

section Instructions

variable {size : Nat} {m m₁ : Machine D} {v : BitVec 32}

theorem grp2_shifted (h : IsWidth size) (hrm : rmSized size m = .ok v m₁) (cnt : BitVec 8) :
    ∃ out, Shifted (.ofReg m.d.reg) (v.setWidth (size * 8)) (maskedCount cnt) m₁.s out ∧
      grp2 size cnt m =
        if maskedCount cnt = 0 then .ok () m₁ else setRmSized size out.1 (m₁.setS out.2) := by
  have hshifted := apply_shifted h (v.setWidth (size * 8)) m₁.s (.ofReg m.d.reg)
    (maskedCount_lt cnt)
  rw [rmSized_fits h hrm] at hshifted
  refine ⟨_, hshifted, ?_⟩
  have hd : getD m = .ok m.d m := rfl
  have hs : getS m₁ = .ok m₁.s m₁ := rfl
  rw [grp2, bind_of_ok hd, bind_of_ok hrm, bind_of_ok hs]
  by_cases hzero : maskedCount cnt = 0
  · rw [if_pos hzero]
    rw [if_neg (not_not.mpr hzero), hshifted.kept hzero]
    rfl
  · rw [if_neg hzero]
    show (if maskedCount cnt ≠ 0 then _ else _ : X86M D Unit) (m₁.setS _) = _
    rw [if_pos hzero]

theorem doubleShift_shifted (op : DoubleOp) (hrm : rmSized (opSize m.d.w32) m = .ok v m₁)
    (cnt : BitVec 8) :
    ∃ out, DoubleShifted op (v.setWidth (opSize m.d.w32 * 8))
        ((regOperand (opSize m.d.w32) m₁).setWidth (opSize m.d.w32 * 8))
          (maskedCount cnt) m₁.s out ∧
      doubleShift op cnt m = setRmSized (opSize m.d.w32) out.1 (m₁.setS out.2) := by
  have hsize : IsWidth (opSize m.d.w32) := by cases m.d.w32 <;> decide
  have hshifted := op.apply_shifted m.d.w32 (v.setWidth (opSize m.d.w32 * 8))
    ((regOperand (opSize m.d.w32) m₁).setWidth (opSize m.d.w32 * 8)) (maskedCount cnt) m₁.s
  rw [rmSized_fits hsize hrm, regOperand_fits hsize] at hshifted
  refine ⟨_, hshifted, ?_⟩
  have hd : getD m = .ok m.d m := rfl
  rw [doubleShift, bind_of_ok hd, bind_of_ok hrm]
  rfl

end Instructions

section RoundTrip

variable {size : Nat} (h : IsWidth size) (x : BitVec (size * 8)) (cnt : BitVec 8) (s : X86State)

include h

theorem rcr_rcl_restores :
    (rcr (rcl (x.setWidth 32) (maskedCount cnt) size s).1 (maskedCount cnt) size
        (rcl (x.setWidth 32) (maskedCount cnt) size s).2).1 = x.setWidth 32 ∧
      (rcr (rcl (x.setWidth 32) (maskedCount cnt) size s).1 (maskedCount cnt) size
        (rcl (x.setWidth 32) (maskedCount cnt) size s).2).2.cf = s.cf := by
  have hn := maskedCount_lt cnt
  have hl := apply_shifted h x s .rcl hn
  change Shifted .rcl x _ s (rcl _ _ size s) at hl
  by_cases hzero : maskedCount cnt = 0
  · rw [hzero]
    exact ⟨rfl, rfl⟩
  have hcf := hl.carry hzero (by rintro (hop | hop) <;> cases hop)
  have hr := apply_shifted h (ShiftOp.rcl.result x s.cf (maskedCount cnt))
    (rcl (x.setWidth 32) (maskedCount cnt) size s).2 .rcr hn
  have hback := ShiftOp.rcr_rcl x s.cf (maskedCount cnt)
  have hvalue := hr.value
  have hcarry := hr.carry hzero (by rintro (hop | hop) <;> cases hop)
  rw [hcf, hback.1] at hvalue
  rw [hcf, hback.2] at hcarry
  rw [hl.value]
  exact ⟨hvalue, hcarry⟩

theorem ror_rol_restores :
    (ror (rol (x.setWidth 32) (maskedCount cnt) size s).1 (maskedCount cnt) size
        (rol (x.setWidth 32) (maskedCount cnt) size s).2).1 = x.setWidth 32 := by
  have hn := maskedCount_lt cnt
  have hl := apply_shifted h x s .rol hn
  change Shifted .rol x _ s (rol _ _ size s) at hl
  have hr := apply_shifted h (ShiftOp.rol.result x s.cf (maskedCount cnt))
    (rol (x.setWidth 32) (maskedCount cnt) size s).2 .ror hn
  change Shifted .ror _ _ _ (ror _ _ size _) at hr
  rw [hl.value, hr.value, ShiftOp.ror_rol]

end RoundTrip

/-- The family moves bit strings: every instruction stores the moved operand with the carry that
left it and, behind a one-bit move, its overflow; RCR undoes RCL and ROR undoes ROL. -/
theorem shift_family :
    (∀ (D : Type) (size : Nat) (cnt : BitVec 8) (m m₁ : Machine D) (v : BitVec 32), IsWidth size →
      rmSized size m = .ok v m₁ → m₁.s.fl = m.s.fl ∧
      ∃ out, Shifted (ShiftOp.ofReg m.d.reg) (v.setWidth (size * 8)) (maskedCount cnt) m₁.s out ∧
        grp2 size cnt m =
          if maskedCount cnt = 0 then .ok () m₁ else setRmSized size out.1 (m₁.setS out.2)) ∧
    (∀ (D : Type) (op : DoubleOp) (cnt : BitVec 8) (m m₁ : Machine D) (v : BitVec 32),
      rmSized (opSize m.d.w32) m = .ok v m₁ → m₁.s.fl = m.s.fl ∧
      ∃ out, DoubleShifted op (v.setWidth (opSize m.d.w32 * 8))
          ((regOperand (opSize m.d.w32) m₁).setWidth (opSize m.d.w32 * 8)) (maskedCount cnt) m₁.s
          out ∧
        doubleShift op cnt m = setRmSized (opSize m.d.w32) out.1 (m₁.setS out.2)) ∧
    (∀ (size : Nat) (x : BitVec (size * 8)) (cnt : BitVec 8) (s : X86State), IsWidth size →
      (rcr (rcl (x.setWidth 32) (maskedCount cnt) size s).1 (maskedCount cnt) size
          (rcl (x.setWidth 32) (maskedCount cnt) size s).2).1 = x.setWidth 32 ∧
      (rcr (rcl (x.setWidth 32) (maskedCount cnt) size s).1 (maskedCount cnt) size
          (rcl (x.setWidth 32) (maskedCount cnt) size s).2).2.cf = s.cf ∧
      (ror (rol (x.setWidth 32) (maskedCount cnt) size s).1 (maskedCount cnt) size
          (rol (x.setWidth 32) (maskedCount cnt) size s).2).1 = x.setWidth 32) := by
  refine ⟨?_, ?_, ?_⟩
  · intro D size cnt m m₁ v h hrm
    exact ⟨(MemFrame.rmSized.of_ok hrm).fl, grp2_shifted h hrm cnt⟩
  · intro D op cnt m m₁ v hrm
    exact ⟨(MemFrame.rmSized.of_ok hrm).fl, doubleShift_shifted op hrm cnt⟩
  · intro size x cnt s h
    obtain ⟨hvalue, hcarry⟩ := rcr_rcl_restores h x cnt s
    exact ⟨hvalue, hcarry, ror_rol_restores h x cnt s⟩

/-- ROL EBX, 4 of 0x80000001, and SHLD EBX, EAX, 8. -/
theorem shift_family_rol_shld :
    (∃ out, @Shifted 4 .rol 0x80000001 4 (regMachine 1 0x80000001).s out ∧
      grp2 4 4 (regMachine 1 0x80000001) =
        setRmSized 4 out.1 ((regMachine 1 0x80000001).setS out.2)) ∧
    (∃ out, @DoubleShifted true .shld 0x80000001 1 8 (regMachine 1 0x80000001).s out ∧
      doubleShift .shld 8 (regMachine 1 0x80000001) =
        setRmSized 4 out.1 ((regMachine 1 0x80000001).setS out.2)) ∧
    (rcr (rcl 0x80 3 1 x86InitMultiboot).1 3 1 (rcl 0x80 3 1 x86InitMultiboot).2).2.cf = false := by
  refine ⟨?_, ?_, ?_⟩
  · exact (shift_family.1 Unit 4 4 (regMachine 1 0x80000001) _ 0x80000001 (by decide) rfl).2
  · exact (shift_family.2.1 Unit .shld 8 (regMachine 1 0x80000001) _ 0x80000001 rfl).2
  · exact (shift_family.2.2 1 0x80 3 x86InitMultiboot (by decide)).2.1

/-- ROL and ROR of 0x80 by 1 leave CF set; RCR of 1 by 1 clears OF where the operand's sign and CF
agreed on 0; SHLD of 0x80000000 by 1 changes the sign without OF. -/
theorem rol_ror_keeps_no_carry :
    x86InitMultiboot.cf = false ∧
    (ror (rol 0x80 1 1 x86InitMultiboot).1 1 1 (rol 0x80 1 1 x86InitMultiboot).2).2.cf = true ∧
    (rcr 1 1 1 x86InitMultiboot).2.of = true ∧
      ShiftOp.rcr.overflow (1#8) x86InitMultiboot.cf = false ∧
    (shldMath true 0x80000000 0 1 x86InitMultiboot).2.of = false ∧
      DoubleOp.shld.overflow (0x80000000#32) 0 = true := by
  decide

end Cemu.X86
