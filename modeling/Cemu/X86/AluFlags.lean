import Cemu.Lib.AddSub
import Cemu.Lib.BitMask
import Cemu.X86.OpFrame

/-!
# x86: the flags of the arithmetic opcodes

The six flags of an exact sum or difference, and the relation between the operands that each
condition code then tells.
-/

namespace Cemu.X86

open RaiseM AddSub X86State
open BitVec hiding not_not
open CInt (Fits)

variable {D : Type}

/-! ### The six flags -/

structure ArithFlags where
  cf : Bool
  pf : Bool
  af : Bool
  zf : Bool
  sf : Bool
  of : Bool
  deriving DecidableEq, Repr

def X86State.arithFlags (s : X86State) : ArithFlags := ⟨s.cf, s.pf, s.af, s.zf, s.sf, s.of⟩

def evenOnes {w : Nat} (r : BitVec w) : Bool :=
  ((List.range 8).countP fun i => r.getLsbD i) % 2 == 0

section Exact

variable {w : Nat}

/-- The flags of the integer `v`, stored in `w` bits, of which `cf`, `af` and `of` are known. -/
def flagsOf (w : Nat) (v : Int) (cf af of : Bool) : ArithFlags where
  cf := cf
  pf := evenOnes (BitVec.ofInt w v)
  af := af
  zf := decide (BitVec.ofInt w v = 0)
  sf := decide ((BitVec.ofInt w v).toInt < 0)
  of := of

def exactSub (x y : BitVec w) (c : Bool) : ArithFlags :=
  flagsOf w (x.toInt - y.toInt - c.toNat) (decide ((x.toNat : Int) - y.toNat - c.toNat < 0))
    (decide (((x.toNat % 16 : Nat) : Int) - (y.toNat % 16 : Nat) - c.toNat < 0))
    (decide ¬Fits w (x.toInt - y.toInt - c.toNat))

def exactAdd (x y : BitVec w) (c : Bool) : ArithFlags :=
  flagsOf w (x.toInt + y.toInt + c.toNat) (decide (2 ^ w ≤ x.toNat + y.toNat + c.toNat))
    (decide (16 ≤ x.toNat % 16 + y.toNat % 16 + c.toNat))
    (decide ¬Fits w (x.toInt + y.toInt + c.toNat))

theorem ofInt_diff (x y : BitVec w) (c : Bool) :
    .ofInt w (x.toInt - y.toInt - c.toNat) = diff x y c := by
  rw [diff, Int.sub_eq_add_neg, Int.sub_eq_add_neg, ofInt_add, ofInt_add,
    ofInt_neg, ofInt_neg, ofInt_toInt, ofInt_toInt,
    ofInt_natCast, BitVec.sub_eq_add_neg, BitVec.sub_eq_add_neg]

theorem ofInt_sum (x y : BitVec w) (c : Bool) :
    .ofInt w (x.toInt + y.toInt + c.toNat) = sum x y c := by
  rw [sum, ofInt_add, ofInt_add, ofInt_toInt, ofInt_toInt, ofInt_natCast]

end Exact

/-! ### The word of eflags -/

theorem getLsbD_setFlag (s : X86State) (b : Bool) {i : Nat} (hi : i < 32) (k : Nat) :
    (s.setFlag i b).fl.getLsbD k = if k = i then b else s.fl.getLsbD k := by
  have hbit : (1#32 <<< i).getLsbD k = decide (k = i) := by
    rw [← twoPow_eq, getLsbD_twoPow, decide_eq_true hi, Bool.true_and]
    exact decide_eq_decide.mpr eq_comm
  show (s.fl &&& ~~~(1#32 <<< i) ||| if b then 1#32 <<< i else 0).getLsbD k = _
  have hset : (if b then 1#32 <<< i else 0#32).getLsbD k = (b && decide (k = i)) := by
    cases b with
    | false => exact getLsbD_zero
    | true => exact hbit
  rw [getLsbD_or, getLsbD_and, getLsbD_not, hbit]
  refine (congrArg (_ || ·) hset).trans ?_
  by_cases hk : k = i
  · rw [if_pos hk, decide_eq_true hk, Bool.not_true, Bool.and_false, Bool.and_false,
      Bool.false_or, Bool.and_true]
  · rw [if_neg hk, decide_eq_false hk, Bool.not_false, Bool.and_true, Bool.and_false, Bool.or_false]
    by_cases hlt : k < 32
    · rw [decide_eq_true hlt, Bool.and_true]
    · rw [getLsbD_of_ge s.fl k (by omega), Bool.false_and]

variable {k size : Nat}

theorem getLsbD_putArith (s : X86State) (f : BitVec 32) (hk : kFlagArith.getLsbD k = true) :
    (s.putArith f).fl.getLsbD k = f.getLsbD k := by
  show (s.fl &&& ~~~kFlagArith ||| f).getLsbD k = _
  simp only [getLsbD_or, getLsbD_and, getLsbD_not, hk, Bool.not_true, Bool.and_false, Bool.false_or]

theorem arithFlags_putArith (s : X86State) (pf zf sf cf af of : Bool) :
    (s.putArith (flagIf pf kFlagPf ||| flagIf zf kFlagZf ||| flagIf sf kFlagSf |||
      flagIf cf kFlagCf ||| flagIf af kFlagAf ||| flagIf of kFlagOf)).arithFlags =
      ⟨cf, pf, af, zf, sf, of⟩ := by
  rw [X86State.arithFlags, X86State.cf, X86State.pf, X86State.af, X86State.zf, X86State.sf,
    X86State.of, getLsbD_putArith s _ (by decide), getLsbD_putArith s _ (by decide),
    getLsbD_putArith s _ (by decide), getLsbD_putArith s _ (by decide),
    getLsbD_putArith s _ (by decide), getLsbD_putArith s _ (by decide)]
  revert pf zf sf cf af of
  decide

theorem getLsbD_putArith_other (s : X86State) (pf zf sf cf af of : Bool)
    (hk : kFlagArith.getLsbD k = false) :
    (s.putArith (flagIf pf kFlagPf ||| flagIf zf kFlagZf ||| flagIf sf kFlagSf |||
      flagIf cf kFlagCf ||| flagIf af kFlagAf ||| flagIf of kFlagOf)).fl.getLsbD k =
      s.fl.getLsbD k := by
  have hpacked : ∀ pf zf sf cf af of : Bool, (flagIf pf kFlagPf ||| flagIf zf kFlagZf |||
      flagIf sf kFlagSf ||| flagIf cf kFlagCf ||| flagIf af kFlagAf ||| flagIf of kFlagOf) &&&
        kFlagArith = (flagIf pf kFlagPf ||| flagIf zf kFlagZf ||| flagIf sf kFlagSf |||
          flagIf cf kFlagCf ||| flagIf af kFlagAf ||| flagIf of kFlagOf) := by
    decide
  rw [← hpacked pf zf sf cf af of]
  show (s.fl &&& ~~~kFlagArith ||| _).getLsbD k = _
  by_cases hlt : k < 32
  · simp only [getLsbD_or, getLsbD_and, getLsbD_not, hk, hlt, decide_true,
      Bool.not_false, Bool.and_true, Bool.and_false, Bool.or_false]
  · rw [getLsbD_of_ge _ k (by omega), getLsbD_of_ge _ k (by omega)]

/-! ### The width of an operation -/

def IsWidth (size : Nat) : Prop := size = 1 ∨ size = 2 ∨ size = 4

instance (size : Nat) : Decidable (IsWidth size) :=
  inferInstanceAs (Decidable (size = 1 ∨ size = 2 ∨ size = 4))

theorem and_vmask (h : IsWidth size) (a : BitVec 32) :
    (a &&& vmask size).toNat = (a.setWidth (size * 8)).toNat := by
  have hmask : (vmask size).toNat = 2 ^ (size * 8) - 1 := by
    rcases h with rfl | rfl | rfl <;> decide
  rw [toNat_and, hmask, Nat.and_two_pow_sub_one_eq_mod, toNat_setWidth]

theorem has_bit (r : BitVec 32) (k : Nat) : has r (1#32 <<< k) = r.getLsbD k := by
  cases hbit : r.getLsbD k with
  | false => exact decide_eq_false (not_not.mpr (BitMask.and_bit_eq_zero.mpr hbit))
  | true =>
    apply decide_eq_true
    intro hzero
    rw [BitMask.and_bit_eq_zero.mp hzero] at hbit
    cases hbit

theorem msb_setWidth_eq (h : IsWidth size) (r : BitVec 32) :
    (r.setWidth (size * 8)).msb = r.getLsbD (size * 8 - 1) := by
  rcases h with rfl | rfl | rfl
  · simp [msb_setWidth]
  · simp [msb_setWidth]
  · rw [setWidth_eq, msb_eq_getLsbD_last]

theorem has_vmsb (h : IsWidth size) (r : BitVec 32) :
    has r (vmsb size) = (r.setWidth (size * 8)).msb := by
  rw [vmsb, has_bit, msb_setWidth_eq h]

theorem parity_eq_evenOnes (r : BitVec 32) :
    (nibbleParity r == nibbleParity (r >>> 4)) = evenOnes r := by
  have hrange : List.range 8 = [0, 1, 2, 3, 4, 5, 6, 7] := rfl
  simp only [evenOnes, hrange, List.countP_cons, List.countP_nil, nibbleParity,
    getLsbD_ushiftRight, Nat.reduceAdd]
  generalize r.getLsbD 0 = b0, r.getLsbD 1 = b1, r.getLsbD 2 = b2, r.getLsbD 3 = b3,
    r.getLsbD 4 = b4, r.getLsbD 5 = b5, r.getLsbD 6 = b6, r.getLsbD 7 = b7
  revert b0 b1 b2 b3 b4 b5 b6 b7
  decide

theorem evenOnes_setWidth {w : Nat} (h : 8 ≤ w) (r : BitVec 32) :
    evenOnes (r.setWidth w) = evenOnes r := by
  have hbits : ∀ i ∈ List.range 8, (r.setWidth w).getLsbD i = r.getLsbD i := by
    intro i hi
    rw [getLsbD_setWidth, decide_eq_true (by have := List.mem_range.mp hi; omega),
      Bool.true_and]
  rw [evenOnes, evenOnes, List.countP_congr fun i hi => by rw [hbits i hi]]

theorem szpBits_eq (h : IsWidth size) (r : BitVec 32) :
    szpBits r size = flagIf (evenOnes (r.setWidth (size * 8))) kFlagPf |||
      flagIf (decide (r.setWidth (size * 8) = 0)) kFlagZf |||
      flagIf (decide ((r.setWidth (size * 8)).toInt < 0)) kFlagSf := by
  have hzero : r &&& vmask size = 0 ↔ r.setWidth (size * 8) = 0 := by
    rw [← toNat_inj, and_vmask h, ← toNat_inj]
    rfl
  rw [szpBits, parity_eq_evenOnes,
    ← evenOnes_setWidth (w := size * 8) (by rcases h with rfl | rfl | rfl <;> decide),
    decide_eq_decide.mpr hzero, has_vmsb h, msb_eq_toInt]

section Helpers

variable {size : Nat} {a b r : BitVec 32} {c : Bool} (s : X86State) (h : IsWidth size)

include h

theorem flagsSub_sf {bin : Nat} :
    (flagsSub s a b r size bin).sf = decide ((r.setWidth (size * 8)).toInt < 0) := by
  have hflags := arithFlags_putArith s (evenOnes (r.setWidth (size * 8)))
    (decide (r.setWidth (size * 8) = 0)) (decide ((r.setWidth (size * 8)).toInt < 0))
    (decide ((a &&& vmask size).toNat < (b &&& vmask size).toNat + bin))
    ((a ^^^ b ^^^ r).getLsbD 4) (has ((a ^^^ b) &&& (a ^^^ r)) (vmsb size))
  rw [← szpBits_eq h] at hflags
  exact congrArg ArithFlags.sf hflags

theorem flagsSub_other {bin k : Nat} (hk : kFlagArith.getLsbD k = false) :
    (flagsSub s a b r size bin).fl.getLsbD k = s.fl.getLsbD k := by
  rw [flagsSub, szpBits_eq h]
  exact getLsbD_putArith_other s _ _ _ _ _ _ hk

theorem getLsbD_four_low (v : BitVec 32) :
    v.getLsbD 4 = (v.setWidth (size * 8)).getLsbD 4 := by
  rcases h with rfl | rfl | rfl <;> simp

theorem flagsSub_exact
    (hr : r.setWidth (size * 8) = diff (a.setWidth (size * 8)) (b.setWidth (size * 8)) c) :
    (flagsSub s a b r size c.toNat).arithFlags =
      exactSub (a.setWidth (size * 8)) (b.setWidth (size * 8)) c := by
  have hw : 8 ≤ size * 8 := by rcases h with rfl | rfl | rfl <;> decide
  have hcf : decide ((a &&& vmask size).toNat < (b &&& vmask size).toNat + c.toNat) =
      decide (((a.setWidth (size * 8)).toNat : Int) -
        (b.setWidth (size * 8)).toNat - c.toNat < 0) := by
    rw [and_vmask h, and_vmask h, decide_eq_decide]
    omega
  have haf : (a ^^^ b ^^^ r).getLsbD 4 =
      decide ((((a.setWidth (size * 8)).toNat % 16 : Nat) : Int) -
        ((b.setWidth (size * 8)).toNat % 16 : Nat) - c.toNat < 0) := by
    rw [getLsbD_four_low h, setWidth_xor, setWidth_xor, hr, half_borrow _ _ _ (by omega),
      decide_eq_decide]
    omega
  have hof : has ((a ^^^ b) &&& (a ^^^ r)) (vmsb size) =
      decide ¬Fits (size * 8) ((a.setWidth (size * 8)).toInt - (b.setWidth (size * 8)).toInt -
        c.toNat) := by
    rw [has_vmsb h, setWidth_and, setWidth_xor, setWidth_xor, hr,
      msb_and, msb_xor, msb_xor, Bool.eq_iff_iff, decide_eq_true_eq,
      fits_diff_iff _ _ c (by omega), not_not]
    have hsigns : ∀ sa sb sr : Bool, ((sa ^^ sb) && (sa ^^ sr)) = true ↔ sa ≠ sb ∧ sa ≠ sr := by
      decide
    exact hsigns _ _ _
  rw [flagsSub, szpBits_eq h, hcf, haf, hof, arithFlags_putArith, exactSub, flagsOf, ofInt_diff, hr]

theorem flagsAdd_exact
    (hr : r.setWidth (size * 8) = sum (a.setWidth (size * 8)) (b.setWidth (size * 8)) c) :
    (flagsAdd s a b r size c.toNat).arithFlags =
      exactAdd (a.setWidth (size * 8)) (b.setWidth (size * 8)) c := by
  have hw : 8 ≤ size * 8 := by rcases h with rfl | rfl | rfl <;> decide
  have hcf : decide ((vmask size).toNat <
        (a &&& vmask size).toNat + (b &&& vmask size).toNat + c.toNat) =
      decide (2 ^ (size * 8) ≤
        (a.setWidth (size * 8)).toNat + (b.setWidth (size * 8)).toNat + c.toNat) := by
    have hmask : (vmask size).toNat + 1 = 2 ^ (size * 8) := by
      rcases h with rfl | rfl | rfl <;> decide
    rw [and_vmask h, and_vmask h, decide_eq_decide]
    omega
  have haf : (a ^^^ b ^^^ r).getLsbD 4 = decide (16 ≤ (a.setWidth (size * 8)).toNat % 16 +
      (b.setWidth (size * 8)).toNat % 16 + c.toNat) := by
    rw [getLsbD_four_low h, setWidth_xor, setWidth_xor, hr, half_carry _ _ _ (by omega)]
  have hof : (~~~(a ^^^ b) &&& (a ^^^ r)).getLsbD (size * 8 - 1) =
      decide ¬Fits (size * 8) ((a.setWidth (size * 8)).toInt + (b.setWidth (size * 8)).toInt +
        c.toNat) := by
    have hlt : size * 8 - 1 < 32 := by rcases h with rfl | rfl | rfl <;> decide
    rw [getLsbD_and, getLsbD_not, getLsbD_xor, getLsbD_xor,
      ← msb_setWidth_eq h, ← msb_setWidth_eq h, ← msb_setWidth_eq h, hr, decide_eq_true hlt,
      Bool.eq_iff_iff, decide_eq_true_eq, fits_sum_iff _ _ c (by omega), not_not]
    have hsigns : ∀ sa sb sr : Bool,
        (true && !(sa ^^ sb) && (sa ^^ sr)) = true ↔ sa = sb ∧ sa ≠ sr := by
      decide
    exact hsigns _ _ _
  rw [flagsAdd, szpBits_eq h, hcf, haf, hof, arithFlags_putArith, exactAdd, flagsOf, ofInt_sum, hr]

end Helpers

/-! ### The operations at a width -/

def AluOp.exact {w : Nat} (op : AluOp) (x y : BitVec w) (c : Bool) : Option ArithFlags :=
  match op with
  | .add => some (exactAdd x y false)
  | .adc => some (exactAdd x y c)
  | .sub | .cmp => some (exactSub x y false)
  | .sbb => some (exactSub x y c)
  | .or | .and | .xor => none

variable {size : Nat}

theorem setWidth_and_vmask (h : IsWidth size) (v : BitVec 32) :
    (v &&& vmask size).setWidth (size * 8) = v.setWidth (size * 8) := by
  apply eq_of_toNat_eq
  rw [toNat_setWidth, and_vmask h, toNat_setWidth, Nat.mod_mod]

section Truncation

variable {w : Nat} (hw : w ≤ 32) (a b : BitVec 32) (c : Bool)
include hw

theorem setWidth_diff :
    (a - b - .ofNat 32 c.toNat).setWidth w = diff (a.setWidth w) (b.setWidth w) c := by
  simp only [diff, BitVec.sub_eq_add_neg, setWidth_add _ _ hw, setWidth_neg_of_le hw,
    setWidth_ofNat_of_le hw]

theorem setWidth_sum :
    (a + b + .ofNat 32 c.toNat).setWidth w = sum (a.setWidth w) (b.setWidth w) c := by
  rw [sum, setWidth_add _ _ hw, setWidth_add _ _ hw, setWidth_ofNat_of_le hw]

end Truncation

theorem AluOp.flags_exact (op : AluOp) (h : IsWidth size) {a b : BitVec 32} {c : Bool}
    {f : ArithFlags} (hf : op.exact (a.setWidth (size * 8)) (b.setWidth (size * 8)) c = some f)
    (s : X86State) : (op.flags a b (op.math a b size c) size c s).arithFlags = f := by
  have hw : size * 8 ≤ 32 := by rcases h with rfl | rfl | rfl <;> decide
  have hsub : ((a - b) &&& vmask size).setWidth (size * 8) =
      diff (a.setWidth (size * 8)) (b.setWidth (size * 8)) false := by
    rw [setWidth_and_vmask h, ← setWidth_diff hw, Bool.toNat_false, BitVec.sub_zero]
  have hadd : ((a + b) &&& vmask size).setWidth (size * 8) =
      sum (a.setWidth (size * 8)) (b.setWidth (size * 8)) false := by
    rw [setWidth_and_vmask h, ← setWidth_sum hw, Bool.toNat_false, BitVec.add_zero]
  cases op with
  | add =>
    rw [← Option.some.inj hf]
    exact flagsAdd_exact (c := false) s h hadd
  | adc =>
    rw [← Option.some.inj hf]
    exact flagsAdd_exact s h ((setWidth_and_vmask h _).trans (setWidth_sum hw a b c))
  | sub =>
    rw [← Option.some.inj hf]
    exact flagsSub_exact (c := false) s h hsub
  | cmp =>
    rw [← Option.some.inj hf]
    exact flagsSub_exact (c := false) s h hsub
  | sbb =>
    rw [← Option.some.inj hf]
    exact flagsSub_exact s h ((setWidth_and_vmask h _).trans (setWidth_diff hw a b c))
  | or => exact absurd hf nofun
  | and => exact absurd hf nofun
  | xor => exact absurd hf nofun

/-! ### The condition codes -/

/-- What a condition code says about the operands of a comparison: overflow, below, equal, below
or equal, negative, parity, less, less or equal, and for an odd code the opposite. -/
def relation {w : Nat} (c : BitVec 4) (x y : BitVec w) : Bool :=
  let r := match (c >>> 1).toNat with
    | 0 => decide ¬Fits w (x.toInt - y.toInt)
    | 1 => decide (x.toNat < y.toNat)
    | 2 => decide (x = y)
    | 3 => decide (x.toNat ≤ y.toNat)
    | 4 => decide ((BitVec.ofInt w (x.toInt - y.toInt)).toInt < 0)
    | 5 => evenOnes (BitVec.ofInt w (x.toInt - y.toInt))
    | 6 => decide (x.toInt < y.toInt)
    | _ => decide (x.toInt ≤ y.toInt)
  r ^^ c.getLsbD 0

section Conditions

variable {w : Nat} {x y : BitVec w} {s : X86State}

theorem exactSub_false (x y : BitVec w) :
    exactSub x y false = ⟨decide (x.toNat < y.toNat), evenOnes (BitVec.ofInt w (x.toInt - y.toInt)),
      decide (x.toNat % 16 < y.toNat % 16), decide (x = y),
      decide ((BitVec.ofInt w (x.toInt - y.toInt)).toInt < 0),
      decide ¬Fits w (x.toInt - y.toInt)⟩ := by
  have hdiff : x.toInt - y.toInt - (false.toNat : Int) = x.toInt - y.toInt := by simp
  have hcf : ((x.toNat : Int) - y.toNat - false.toNat < 0) ↔ x.toNat < y.toNat := by
    rw [Bool.toNat_false]
    omega
  have haf : (((x.toNat % 16 : Nat) : Int) - (y.toNat % 16 : Nat) - false.toNat < 0) ↔
      x.toNat % 16 < y.toNat % 16 := by
    rw [Bool.toNat_false]
    omega
  have hzf : BitVec.ofInt w (x.toInt - y.toInt) = 0 ↔ x = y := by
    have hofInt := ofInt_diff x y false
    rw [hdiff] at hofInt
    rw [hofInt, diff, Bool.toNat_false, BitVec.sub_zero]
    exact sub_eq_zero
  rw [exactSub, flagsOf, hdiff, decide_eq_decide.mpr hcf, decide_eq_decide.mpr haf,
    decide_eq_decide.mpr hzf]

theorem cond_eq_relation (hw : 0 < w) (h : s.arithFlags = exactSub x y false) (c : BitVec 4) :
    cond s c = relation c x y := by
  rw [exactSub_false] at h
  injection h with hcf hpf haf hzf hsf hof
  have hless : (s.sf != s.of) = decide (x.toInt < y.toInt) := by
    have hiff := toInt_lt_iff x y hw
    have hofInt := ofInt_diff x y false
    rw [Bool.toNat_false, Nat.cast_zero, Int.sub_zero] at hofInt
    rw [hsf, hof, hofInt, ← msb_eq_toInt, Bool.eq_iff_iff, bne_iff_ne, decide_eq_true_eq,
      hiff, Ne, Bool.eq_iff_iff, decide_eq_true_eq]
  apply congrArg (· ^^ c.getLsbD 0)
  match (c >>> 1).toNat with
  | 0 => exact hof
  | 1 => exact hcf
  | 2 => exact hzf
  | 3 =>
    have hle : x.toNat < y.toNat ∨ x = y ↔ x.toNat ≤ y.toNat := by
      rw [← toNat_inj]
      omega
    show (s.cf || s.zf) = decide (x.toNat ≤ y.toNat)
    rw [hcf, hzf, ← Bool.decide_or, decide_eq_decide.mpr hle]
  | 4 => exact hsf
  | 5 => exact hpf
  | 6 => exact hless
  | _ + 7 =>
    have hle : x = y ∨ x.toInt < y.toInt ↔ x.toInt ≤ y.toInt := by
      rw [← toInt_inj]
      omega
    show (s.zf || s.sf != s.of) = decide (x.toInt ≤ y.toInt)
    rw [hzf, hless, ← Bool.decide_or, decide_eq_decide.mpr hle]

end Conditions

/-! ### Completed instructions -/

/-- The operands of CMPS and SCAS, read behind the segment checks of the iteration. -/
def strOperands (op : StrOp) (wide : Bool) : X86M D (BitVec 32 × BitVec 32) := do
  let d ← getD
  let s ← getS
  let size := strSize d wide
  let sio := s.sized d.a32 esiI
  let dio := s.sized d.a32 ediI
  let sseg := d.seg.getD .ds
  strChecks op sseg sio dio size
  match op with
  | .cmps => do
    watchData (linOf s sseg sio) size false
    watchData (linOf s .es dio) size false
    let a ← rdSized size (linOf s sseg sio)
    let b ← rdSized size (linOf s .es dio)
    pure (a, b)
  | _ => do
    watchData (linOf s .es dio) size false
    let t ← getS
    let b ← rdSized size (linOf s .es dio)
    pure (t.acc size, b)

/-- An instruction that adds or subtracts ran to its end: the operation, its width, the operands
it read and the machines around it. NEG subtracts from zero. -/
inductive ArithRun : AluOp → Nat → BitVec 32 → BitVec 32 → Machine D → Machine D → Prop
  | direct {op : AluOp} {size : Nat} {a b : BitVec 32} {m m₁ m' : Machine D} (form : AluForm)
      (hsize : IsWidth size) (hops : aluOperands form size m = .ok (a, b) m₁)
      (hrun : aluOp op form size m = .ok () m') : ArithRun op size a b m m'
  | group {size : Nat} {a b : BitVec 32} {m m₁ m' : Machine D} (form : Grp1Imm)
      (hsize : IsWidth size) (hops : grp1Operands size form m = .ok (a, b) m₁)
      (hrun : grp1Op size form m = .ok () m') : ArithRun (AluOp.ofReg m.d.reg) size a b m m'
  | neg {size : Nat} {v : BitVec 32} {m m₁ m' : Machine D} (hsize : IsWidth size)
      (hops : rmSized size m = .ok v m₁) (hrun : grp3Neg size m = .ok () m') :
      ArithRun .sub size 0 v m m'
  | string {a b : BitVec 32} {m m₁ m' : Machine D} (op : StrOp) (wide : Bool)
      (hcmp : op.compares = true) (hbusy : ¬strIdle m.d m.s)
      (hops : strOperands op wide m = .ok (a, b) m₁) (hrun : stringOp op wide m = .ok () m') :
      ArithRun .cmp (strSize m.d wide) a b m m'

/-- CMPXCHG ran to its end: its width, the destination it read and the machines around it. -/
inductive CmpxchgRun : Nat → BitVec 32 → Machine D → Machine D → Prop
  | intro {size : Nat} {dst : BitVec 32} {m m₁ m' : Machine D} (hsize : IsWidth size)
      (hops : rmSized size m = .ok dst m₁) (hrun : cmpxchgOp size m = .ok () m') :
      CmpxchgRun size dst m m'

/-! ### What leaves the flags alone -/

def FlFrame (m m' : Machine D) : Prop := m'.s.fl = m.s.fl

instance : OpFraming (D := D) FlFrame where
  trans h h' := Eq.trans h' h
  ofMem h := h.fl
  decoder _ _ _ := rfl
  regs _ _ := rfl

theorem arithFlags_congr {s t : X86State} (h : s.fl = t.fl) : s.arithFlags = t.arithFlags := by
  simp only [arithFlags, cf, pf, af, zf, sf,
    of, h]

/-! ### The flags a completed instruction leaves -/

section Runs

variable {op : AluOp} {size : Nat} {a b : BitVec 32} {m m₁ m' : Machine D}

theorem aluOp_flags {form : AluForm} (hops : aluOperands form size m = .ok (a, b) m₁)
    (hrun : aluOp op form size m = .ok () m') :
    ∃ s, m'.s = op.flags a b (op.math a b size m.s.cf) size m.s.cf s := by
  have hstate : getS m = .ok m.s m := rfl
  rw [aluOp, bind_of_ok hstate, bind_of_ok hops] at hrun
  split at hrun
  · obtain ⟨_, t, -, hend⟩ := bind_eq_ok hrun
    cases hend
    exact ⟨t.s, rfl⟩
  · cases hrun
    exact ⟨m₁.s, rfl⟩

theorem grp1Op_flags {form : Grp1Imm} (hops : grp1Operands size form m = .ok (a, b) m₁)
    (hrun : grp1Op size form m = .ok () m') :
    ∃ s, m'.s.fl = ((AluOp.ofReg m.d.reg).flags a b ((AluOp.ofReg m.d.reg).math a b size m.s.cf)
      size m.s.cf s).fl := by
  have hd : getD m = .ok m.d m := rfl
  have hcf : m₁.s.cf = m.s.cf := by
    have hfl : m₁.s.fl = m.s.fl := (OpFraming.grp1Operands (R := FlFrame)).of_ok hops
    rw [cf, hfl, cf]
  have hmath : grp1Math (.ofReg m.d.reg) a b size m₁ =
      .ok ((AluOp.ofReg m.d.reg).math a b size m.s.cf)
        (m₁.setS ((AluOp.ofReg m.d.reg).flags a b ((AluOp.ofReg m.d.reg).math a b size m.s.cf)
          size m.s.cf m₁.s)) := by
    rw [← hcf]
    rfl
  rw [grp1Op, bind_of_ok hd, bind_of_ok hops, bind_of_ok hmath] at hrun
  refine ⟨m₁.s, ?_⟩
  split at hrun
  · exact (OpFraming.setRmSized (R := FlFrame)).of_ok hrun
  · cases hrun
    rfl

theorem grp3Neg_flags {v : BitVec 32} (hops : rmSized size m = .ok v m₁)
    (hrun : grp3Neg size m = .ok () m') :
    ∃ s, m'.s.fl = (flagsSub s 0 v (-v &&& vmask size) size 0).fl := by
  rw [grp3Neg, bind_of_ok hops] at hrun
  obtain ⟨_, t, hmod, hstore⟩ := bind_eq_ok hrun
  cases hmod
  exact ⟨m₁.s, (OpFraming.setRmSized (R := FlFrame)).of_ok hstore⟩

theorem strEnd_fl (op : StrOp) (wide : Bool) (d : Dec) (s : X86State) (t : Machine D) :
    (strEnd op wide d s t).s.fl = t.s.fl := by
  have hadvance : (strAdvance op d.a32 (s.sized d.a32 esiI) (s.sized d.a32 ediI)
      (strStep s (strSize d wide)) t.s).fl = t.s.fl := by
    unfold strAdvance
    cases op.usesSi <;> cases op.usesDi <;>
      simp only [fl_setSized, if_true, if_false, Bool.false_eq_true]
  unfold strEnd
  split
  · exact hadvance
  · rw [strNext_s, fl_setSized]
    exact hadvance

theorem stringOp_flags {op : StrOp} {wide : Bool} (hcmp : op.compares = true)
    (hbusy : ¬strIdle m.d m.s) (hops : strOperands op wide m = .ok (a, b) m₁)
    (hrun : stringOp op wide m = .ok () m') :
    ∃ s, m'.s.fl =
      (flagsSub s a b ((a - b) &&& vmask (strSize m.d wide)) (strSize m.d wide) 0).fl := by
  rw [stringOp_apply, if_neg hbusy] at hrun
  obtain ⟨_, t, hchecks, hrun⟩ := bind_eq_ok hrun
  obtain ⟨_, t', hbody, hend⟩ := bind_eq_ok hrun
  have hd : getD m = .ok m.d m := rfl
  have hs : getS m = .ok m.s m := rfl
  rw [strOperands, bind_of_ok hd, bind_of_ok hs, bind_of_ok hchecks] at hops
  have hfl := strEnd_fl op wide m.d m.s t'
  cases hend
  refine ⟨m₁.s, hfl.trans ?_⟩
  cases op with
  | cmps =>
    obtain ⟨_, t1, hw1, hops⟩ := bind_eq_ok hops
    obtain ⟨_, t2, hw2, hops⟩ := bind_eq_ok hops
    obtain ⟨a', t3, ha, hops⟩ := bind_eq_ok hops
    obtain ⟨b', t4, hb, hops⟩ := bind_eq_ok hops
    cases hops
    rw [strBody, bind_of_ok hw1, bind_of_ok hw2, bind_of_ok ha, bind_of_ok hb] at hbody
    cases hbody
    rfl
  | scas =>
    obtain ⟨_, t1, hw1, hops⟩ := bind_eq_ok hops
    obtain ⟨_, t2, hs1, hops⟩ := bind_eq_ok hops
    obtain ⟨b', t3, hb, hops⟩ := bind_eq_ok hops
    cases hops
    rw [strBody, bind_of_ok hw1, bind_of_ok hs1, bind_of_ok hb] at hbody
    cases hbody
    rfl
  | movs => cases hcmp
  | stos => cases hcmp
  | lods => cases hcmp
  | ins => cases hcmp
  | outs => cases hcmp

theorem isWidth_strSize (d : Dec) (wide : Bool) : IsWidth (strSize d wide) := by
  unfold strSize opSize IsWidth
  split
  · split <;> decide
  · decide

theorem ArithRun.flags (h : ArithRun op size a b m m') :
    IsWidth size ∧ ∀ f, op.exact (a.setWidth (size * 8)) (b.setWidth (size * 8)) m.s.cf = some f →
      m'.s.arithFlags = f := by
  cases h with
  | direct form hsize hops hrun =>
    refine ⟨hsize, fun f hf => ?_⟩
    obtain ⟨s, hs⟩ := aluOp_flags hops hrun
    rw [hs]
    exact op.flags_exact hsize hf s
  | group form hsize hops hrun =>
    refine ⟨hsize, fun f hf => ?_⟩
    obtain ⟨s, hs⟩ := grp1Op_flags hops hrun
    rw [arithFlags_congr hs]
    exact (AluOp.ofReg m.d.reg).flags_exact hsize hf s
  | neg hsize hops hrun =>
    refine ⟨hsize, fun f hf => ?_⟩
    obtain ⟨s, hs⟩ := grp3Neg_flags hops hrun
    rw [arithFlags_congr hs]
    have hexact := AluOp.flags_exact .sub hsize hf s
    rwa [AluOp.math] at hexact
  | string op' wide hcmp hbusy hops hrun =>
    refine ⟨isWidth_strSize m.d wide, fun f hf => ?_⟩
    obtain ⟨s, hs⟩ := stringOp_flags hcmp hbusy hops hrun
    rw [arithFlags_congr hs]
    exact AluOp.flags_exact .cmp (isWidth_strSize m.d wide) hf s

theorem ArithRun.conditions (h : ArithRun .cmp size a b m m') (c : BitVec 4) :
    cond m'.s c = relation c (a.setWidth (size * 8)) (b.setWidth (size * 8)) := by
  obtain ⟨hsize, hflags⟩ := h.flags
  apply cond_eq_relation _ (hflags _ rfl)
  rcases hsize with rfl | rfl | rfl <;> decide

theorem CmpxchgRun.fl {dst : BitVec 32} (h : CmpxchgRun size dst m m') :
    IsWidth size ∧ ∃ s, m'.s.fl = (flagsSub s (m.s.acc size) dst
      ((dst - m.s.acc size) &&& vmask size) size 0).fl := by
  obtain ⟨hsize, hops, hrun⟩ := h
  next m₁ =>
  have hacc : m₁.s.acc size = m.s.acc size := by
    have hr := (MemFrame.rmSized.of_ok hops).r
    simp only [acc, l, x, hr]
  have hs : getS m₁ = .ok m₁.s m₁ := rfl
  rw [cmpxchgOp, bind_of_ok hops, bind_of_ok hs, hacc] at hrun
  obtain ⟨_, t, hmod, hrun⟩ := bind_eq_ok hrun
  cases hmod
  refine ⟨hsize, m₁.s, ?_⟩
  split at hrun
  · obtain ⟨v, t, hreg, hstore⟩ := bind_eq_ok hrun
    exact ((OpFraming.setRmSized (R := FlFrame)).of_ok hstore).trans
      ((OpFraming.regSized (R := FlFrame)).of_ok hreg)
  · cases hrun
    exact (congrArg fl (setAcc_regs _ size dst)).trans rfl

theorem msb_neg_eq_iff {w : Nat} (v : BitVec w) : (-v).msb = v.msb ↔ v = 0 ∨ v = .intMin w := by
  rw [msb_neg]
  by_cases hzero : v = 0
  · simp [hzero]
  by_cases hmin : v = .intMin w
  · simp [hmin]
  have hflip : (v != 0#w && v != .intMin w) = true := by
    rw [Bool.and_eq_true, bne_iff_ne, bne_iff_ne]
    exact ⟨hzero, hmin⟩
  rw [hflip, iff_false_intro (not_or.mpr ⟨hzero, hmin⟩)]
  cases v.msb <;> decide

theorem CmpxchgRun.conditions_iff {dst : BitVec 32} (h : CmpxchgRun size dst m m') :
    (∀ c, cond m'.s c = relation c ((m.s.acc size).setWidth (size * 8)) (dst.setWidth (size * 8))) ↔
      (m.s.acc size).setWidth (size * 8) = dst.setWidth (size * 8) ∨
        (m.s.acc size).setWidth (size * 8) - dst.setWidth (size * 8) = .intMin (size * 8) := by
  obtain ⟨hsize, s, hfl⟩ := h.fl
  have hw : 0 < size * 8 ∧ size * 8 ≤ 32 := by rcases hsize with rfl | rfl | rfl <;> decide
  generalize hx : (m.s.acc size).setWidth (size * 8) = x
  generalize hy : dst.setWidth (size * 8) = y
  have hr : ((dst - m.s.acc size) &&& vmask size).setWidth (size * 8) = -(x - y) := by
    rw [setWidth_and_vmask hsize, BitVec.neg_sub, ← hx, ← hy]
    simp only [BitVec.sub_eq_add_neg, setWidth_add _ _ hw.2, setWidth_neg_of_le hw.2]
    rw [BitVec.add_comm]
  constructor
  · intro hall
    -- the sign condition reads the sign of the reversed difference
    have hsign : m'.s.sf = decide ((x - y).toInt < 0) := by
      have hcond := hall 8
      rw [relation, cond] at hcond
      simpa using hcond
    have hsf : m'.s.sf = decide ((-(x - y)).toInt < 0) := by
      rw [sf, hfl, ← hr]
      exact flagsSub_sf s hsize
    rw [hsf, ← msb_eq_toInt, ← msb_eq_toInt, msb_neg_eq_iff] at hsign
    rwa [← sub_eq_zero]
  · intro hsame c
    have hexact : m'.s.arithFlags = exactSub x y false := by
      rw [arithFlags_congr hfl, ← hx, ← hy]
      apply flagsSub_exact (c := false) s hsize
      have hneg : -(x - y) = x - y := by
        rcases hsame with rfl | hmin
        · rw [BitVec.sub_self, BitVec.neg_zero]
        · rw [hmin, neg_intMin]
      rw [hr, hx, hy, hneg, diff, Bool.toNat_false, BitVec.sub_zero]
    exact cond_eq_relation hw.1 hexact c

end Runs

/-- Every sum and difference leaves the flags of the exact operation, every comparison makes the
sixteen condition codes tell the relation of its operands, and CMPXCHG does so exactly when the
two differences are the same word. -/
theorem comparison_flags_iff (D : Type) :
    (∀ (op : AluOp) (size : Nat) (a b : BitVec 32) (m m' : Machine D) (f : ArithFlags),
      ArithRun op size a b m m' →
      op.exact (a.setWidth (size * 8)) (b.setWidth (size * 8)) m.s.cf = some f →
      m'.s.arithFlags = f) ∧
    (∀ (size : Nat) (a b : BitVec 32) (m m' : Machine D), ArithRun .cmp size a b m m' →
      ∀ c, cond m'.s c = relation c (a.setWidth (size * 8)) (b.setWidth (size * 8))) ∧
    (∀ (size : Nat) (dst : BitVec 32) (m m' : Machine D), CmpxchgRun size dst m m' →
      ((∀ c, cond m'.s c =
          relation c ((m.s.acc size).setWidth (size * 8)) (dst.setWidth (size * 8))) ↔
        (m.s.acc size).setWidth (size * 8) = dst.setWidth (size * 8) ∨
          (m.s.acc size).setWidth (size * 8) - dst.setWidth (size * 8) =
            BitVec.intMin (size * 8))) := by
  refine ⟨?_, ?_, ?_⟩
  · intro op size a b m m' f hrun hf
    exact hrun.flags.2 f hf
  · intro size a b m m' hrun
    exact hrun.conditions
  · intro size dst m m' hrun
    exact hrun.conditions_iff

/-- EAX and EBX hold the operands; the modrm byte names EBX and, as the register, EAX. -/
def regMachine (eax ebx : BitVec 32) : Machine Unit :=
  .small { x86InitMultiboot with
    r := fun i => if i = eaxI then eax else if i = ebxI then ebx else 0 }
    { Dec.start true with mod := 3, rm := ebxI } fun _ => 0

theorem comparison_flags_five_seven :
    ∃ m', ArithRun .cmp 4 5 7 (regMachine 7 5) m' ∧
      (∀ c, cond m'.s c = relation c (5#32) (7#32)) ∧
      m'.s.arithFlags = exactSub (5#32) (7#32) false := by
  have hrun : ArithRun .cmp 4 5 7 (regMachine 7 5) _ :=
    .direct .rmReg (.inr (.inr rfl)) rfl rfl
  refine ⟨_, hrun, fun c => ?_, ?_⟩
  · exact (comparison_flags_iff Unit).2.1 4 5 7 _ _ hrun c
  · exact (comparison_flags_iff Unit).1 .cmp 4 5 7 _ _ _ hrun rfl

/-- CMPXCHG of 2 with the accumulator 1 says that 1 is not less than 2. -/
theorem cmpxchg_one_with_two :
    ∃ m', CmpxchgRun 4 2 (regMachine 1 2) m' ∧ cond m'.s 12 = false ∧
      relation 12 (1#32) (2#32) = true := by
  refine ⟨_, .intro (.inr (.inr rfl)) rfl rfl, ?_, ?_⟩
  · decide +kernel
  · decide

end Cemu.X86
