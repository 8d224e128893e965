import Cemu.X86.Frame

/-!
# x86: DIV and IDIV

The division instructions against integer division that truncates towards zero. The operand sizes
are those of the group, 1, 2 and 4 bytes: AX by a byte, DX:AX by a word and EDX:EAX by a double
word, with the quotient and the remainder in AL and AH, AX and DX, EAX and EDX.
-/

namespace Cemu.X86

open Int

open X86State
open CInt hiding toInt_ofInt
open BitVec hiding and_assoc not_not

variable {D : Type}

/-! ### The arithmetic definition -/

def numberOf (signed : Bool) {w : Nat} (v : BitVec w) : Int :=
  if signed then v.toInt else v.toNat

def Holds (signed : Bool) (w : Nat) (v : Int) : Prop :=
  if signed then CInt.Fits w v else 0 ≤ v ∧ v < 2 ^ w

/-- `q` and `r` are the quotient and the remainder of `a` by `b`: the remainder is smaller than
the divisor and has the sign of the dividend. -/
structure Divides (a b q r : Int) : Prop where
  eq : a = q * b + r
  lt : r.natAbs < b.natAbs
  sign : r = 0 ∨ (0 < r ↔ 0 < a)

variable {w n : Nat}

theorem divides_tdiv (a : Int) {b : Int} (hb : b ≠ 0) : Divides a b (a.tdiv b) (a.tmod b) where
  eq := by rw [mul_comm, mul_tdiv_add_tmod]
  lt := by
    rw [natAbs_tmod]
    exact Nat.mod_lt _ (natAbs_pos.mpr hb)
  sign := by
    have hzero : a = 0 → a.tmod b = 0 := by
      rintro rfl
      exact zero_tmod b
    rcases lt_or_ge a 0 with ha | ha
    · have hneg := tmod_nonneg b (neg_nonneg_of_nonpos ha.le)
      rw [neg_tmod] at hneg
      omega
    · have hpos := tmod_nonneg b ha
      omega

section

variable (signed : Bool) (size : Nat)

def dividendOf (s : X86State) : Int :=
  if size = 1 then numberOf signed (s.x eaxI)
  else if size = 2 then numberOf signed (s.x edxI ++ s.x eaxI)
  else numberOf signed (s.r edxI ++ s.r eaxI)

def divisorOf (src : BitVec 32) : Int :=
  if size = 1 then numberOf signed (src.setWidth 8)
  else if size = 2 then numberOf signed (src.setWidth 16)
  else numberOf signed src

def quotientOf (s : X86State) : Int :=
  if size = 1 then numberOf signed (s.l eaxI)
  else if size = 2 then numberOf signed (s.x eaxI)
  else numberOf signed (s.r eaxI)

def remainderOf (s : X86State) : Int :=
  if size = 1 then numberOf signed (s.h eaxI)
  else if size = 2 then numberOf signed (s.x edxI)
  else numberOf signed (s.r edxI)

def Divisible (a b : Int) : Prop :=
  b ≠ 0 ∧ Holds signed (8 * size) (a.tdiv b)

/-- The instruction did what the manual says: it divided where that is possible, and raised #DE
with every register as it was where it is not. A trap of the host's own division is neither. -/
def Divided (m : Machine D) (src : BitVec 32) : Outcome TrapRec (Machine D) Unit → Prop
  | .ok _ m' =>
    Divisible signed size (dividendOf signed size m.s) (divisorOf signed size src) ∧
      Divides (dividendOf signed size m.s) (divisorOf signed size src)
        (quotientOf signed size m'.s) (remainderOf signed size m'.s)
  | .raise e m' =>
    ¬Divisible signed size (dividendOf signed size m.s) (divisorOf signed size src) ∧
      e.cause = vecDe ∧ MemFrame m m'
  | .fatal => False

/-- The one division the host cannot make: the least 64-bit dividend by minus one. -/
def HostTraps (s : X86State) (src : BitVec 32) : Prop :=
  signed = true ∧ size = 4 ∧ s.r edxI = 0x80000000 ∧ s.r eaxI = 0 ∧ src = 0xffffffff

end

instance (signed : Bool) (size : Nat) (s : X86State) (src : BitVec 32) :
    Decidable (HostTraps signed size s src) := inferInstanceAs (Decidable (_ ∧ _))

/-! ### Words and numbers -/

theorem pair_true (s : X86State) : s.pair true = s.r edxI ++ s.r eaxI := by
  apply eq_of_getLsbD_eq
  intro k hk
  rw [X86State.pair, if_pos rfl, getLsbD_append]
  simp only [getLsbD_or, getLsbD_shiftLeft, getLsbD_setWidth, hk]
  by_cases h : k < 32
  · simp [h]
  · simp [getLsbD_of_ge (s.r eaxI) k (by omega), show k - 32 < 64 by omega]

theorem setWidth_pair_false (s : X86State) :
    (s.pair false).setWidth 32 = s.x edxI ++ s.x eaxI := by
  apply eq_of_getLsbD_eq
  intro k hk
  rw [X86State.pair, if_neg (by decide), getLsbD_append, getLsbD_setWidth]
  simp only [getLsbD_or, getLsbD_shiftLeft, getLsbD_setWidth, hk, decide_true]
  by_cases h : k < 16
  · simp [h, show k < 64 by omega]
  · simp [getLsbD_of_ge (s.x eaxI) k (by omega), show k - 16 < 64 by omega,
      show k < 64 by omega]

theorem toNat_pair_false (s : X86State) : (s.pair false).toNat = (s.x edxI ++ s.x eaxI).toNat := by
  rw [← setWidth_pair_false, toNat_setWidth, Nat.mod_eq_of_lt]
  refine Nat.or_lt_two_pow ?_ ?_
  · rw [toNat_shiftLeft, toNat_setWidth]
    omega
  · rw [toNat_setWidth]
    omega

theorem toNat_div_setWidth {a b : BitVec w} (h : a.toNat / b.toNat < 2 ^ n) :
    ((a / b).setWidth n).toNat = a.toNat / b.toNat := by
  rw [toNat_setWidth, toNat_udiv, Nat.mod_eq_of_lt h]

theorem toNat_mod_setWidth {a b : BitVec w} (hb : b.toNat ≠ 0) (hn : b.toNat < 2 ^ n) :
    ((a % b).setWidth n).toNat = a.toNat % b.toNat := by
  have := Nat.mod_lt a.toNat (Nat.pos_of_ne_zero hb)
  rw [toNat_setWidth, toNat_umod, Nat.mod_eq_of_lt (by omega)]

theorem toInt_setWidth_of_fits {v : BitVec w} (hn : n ≤ w) (h0 : 0 < n) (h : CInt.Fits n v.toInt) :
    (v.setWidth n).toInt = v.toInt := by
  have hpow : (2 : Int) ^ n = 2 * 2 ^ (n - 1) := by
    rw [← pow_succ', Nat.sub_add_cancel h0]
  obtain ⟨hlo, hhi⟩ := h
  rw [← signExtend_eq_setWidth_of_le v hn, BitVec.signExtend, toInt_ofInt]
  apply bmod_eq_of_le <;> push_cast <;> omega

theorem fits_tmod {a b : Int} (hb : b ≠ 0) (h : CInt.Fits n b) : CInt.Fits n (a.tmod b) := by
  have hlt := (divides_tdiv a hb).lt
  obtain ⟨hlo, hhi⟩ := h
  constructor <;> omega

/-! ### The two ways to divide -/

theorem divisible_false {size a b : Nat} :
    Divisible false size a b ↔ b ≠ 0 ∧ a / b < 2 ^ (8 * size) := by
  unfold Divisible Holds
  rw [← ofNat_tdiv]
  have hle : (0 : Int) ≤ ((a / b : Nat) : Int) := natCast_nonneg _
  constructor
  · rintro ⟨hb, _, hlt⟩
    exact ⟨by exact_mod_cast hb, by exact_mod_cast hlt⟩
  · rintro ⟨hb, hlt⟩
    exact ⟨by exact_mod_cast hb, hle, by exact_mod_cast hlt⟩

section Shapes

variable {m m₁ m2 : Machine D} {w size : Nat} {src : BitVec 32} {a b lim : BitVec w}
  {t t' : BitVec 64}

theorem divided_unsigned (hframe : MemFrame m m₁) (ha : dividendOf false size m.s = a.toNat)
    (hb : divisorOf false size src = b.toNat) (hlim : lim.toNat + 1 = 2 ^ (8 * size))
    (hfit : b.toNat < 2 ^ (8 * size))
    (hq : quotientOf false size m2.s = ((a / b).setWidth (8 * size)).toNat)
    (hr : remainderOf false size m2.s = ((a % b).setWidth (8 * size)).toNat) :
    Divided false size m src
      (if b = 0 ∨ lim < a / b then .raise ⟨vecDe, t⟩ m₁ else .ok () m2) := by
  have hzero : b = 0 ↔ b.toNat = 0 := BitVec.toNat_eq.trans (by simp)
  have hlt : lim < a / b ↔ ¬a.toNat / b.toNat < 2 ^ (8 * size) := by
    rw [lt_def, toNat_udiv]
    omega
  have hc : (b = 0 ∨ lim < a / b) ↔ ¬Divisible false size a.toNat b.toNat := by
    rw [divisible_false, hzero, hlt, not_and_or, not_not]
  split
  · next h =>
    refine ⟨?_, rfl, hframe⟩
    rw [ha, hb]
    exact hc.mp h
  rename_i h
  have hdiv := divisible_false.mp (not_not.mp (mt hc.mpr h))
  refine ⟨?_, ?_⟩ <;> rw [ha, hb]
  · exact divisible_false.mpr hdiv
  · rw [hq, hr, toNat_div_setWidth hdiv.2, toNat_mod_setWidth hdiv.1 hfit, ofNat_tdiv,
      ofNat_tmod]
    exact divides_tdiv _ (by exact_mod_cast hdiv.1)

theorem divided_signed {c : Prop} [Decidable c] (hframe : MemFrame m m₁)
    (ha : dividendOf true size m.s = a.toInt) (hb : divisorOf true size src = b.toInt)
    (hdef : ¬(a = BitVec.intMin w ∧ b = -1#w)) (hsize : 0 < size) (hle : 8 * size ≤ w)
    (hfit : CInt.Fits (8 * size) b.toInt)
    (hc : c ↔ ¬CInt.Fits (8 * size) (a.sdiv b).toInt)
    (hq : quotientOf true size m2.s = ((a.sdiv b).setWidth (8 * size)).toInt)
    (hr : remainderOf true size m2.s = ((a.srem b).setWidth (8 * size)).toInt) :
    Divided true size m src
      (if b = 0 then .raise ⟨vecDe, t⟩ m₁ else if c then .raise ⟨vecDe, t'⟩ m₁
        else .ok () m2) := by
  have hquot : (a.sdiv b).toInt = a.toInt.tdiv b.toInt :=
    toInt_sdiv_of_ne_or_ne a b (not_and_or.mp hdef)
  have hfits : Divisible true size a.toInt b.toInt ↔
      b ≠ 0 ∧ CInt.Fits (8 * size) (a.sdiv b).toInt := by
    rw [Divisible, Holds, if_pos rfl, hquot, ne_eq, ne_eq, eq_zero_iff]
  split
  · next hzero =>
    refine ⟨?_, rfl, hframe⟩
    rw [ha, hb, hfits]
    exact fun h => h.1 hzero
  rename_i hzero
  split
  · next h =>
    refine ⟨?_, rfl, hframe⟩
    rw [ha, hb, hfits]
    exact fun hd => hc.mp h hd.2
  rename_i h
  have hq' := not_not.mp (mt hc.mpr h)
  have hb0 : b.toInt ≠ 0 := mt CInt.eq_zero_iff.mpr hzero
  have hr' : CInt.Fits (8 * size) (a.srem b).toInt := by
    rw [toInt_srem]
    exact fits_tmod hb0 hfit
  refine ⟨?_, ?_⟩ <;> rw [ha, hb]
  · exact hfits.mpr ⟨hzero, hq'⟩
  · rw [hq, hr, toInt_setWidth_of_fits hle (by omega) hq',
      toInt_setWidth_of_fits hle (by omega) hr', hquot, toInt_srem]
    exact divides_tdiv _ hb0

end Shapes

/-! ### The instructions -/

section Outcomes

variable {m m₁ : Machine D}

theorem MemFrame.x (h : MemFrame m m₁) (i : Reg) : m₁.s.x i = m.s.x i := by
  rw [X86State.x, X86State.x, h.r]

theorem MemFrame.pair (h : MemFrame m m₁) (w32 : Bool) : m₁.s.pair w32 = m.s.pair w32 := by
  unfold X86State.pair
  rw [h.r, h.x, h.x]

variable {v : BitVec 8} {src : BitVec 32}

theorem div8_eq (h : rm8 m = .ok v m₁) :
    div8 m = if v.setWidth 32 = 0 ∨ 0xff < (m₁.s.x eaxI).setWidth 32 / v.setWidth 32 then
        .raise ⟨vecDe, m₁.eip.setWidth 64⟩ m₁
      else .ok () (m₁.setS (m₁.s.setAlAh (((m₁.s.x eaxI).setWidth 32 / v.setWidth 32).setWidth 8)
        (((m₁.s.x eaxI).setWidth 32 % v.setWidth 32).setWidth 8))) := by
  rw [div8, RaiseM.bind_apply, h]
  show (if _ then _ else _ : X86M D Unit) m₁ = _
  split <;> rfl

theorem divW_eq (m : Machine D) (src : BitVec 32) : divW src m =
      if (src &&& vmask (opSize m.d.w32)).setWidth 64 = 0 ∨ (vmask (opSize m.d.w32)).setWidth 64 <
            m.s.pair m.d.w32 / (src &&& vmask (opSize m.d.w32)).setWidth 64 then
        .raise ⟨vecDe, m.eip.setWidth 64⟩ m
      else .ok () (m.setS (m.s.setPair m.d.w32
        ((m.s.pair m.d.w32 / (src &&& vmask (opSize m.d.w32)).setWidth 64).setWidth 32)
        ((m.s.pair m.d.w32 % (src &&& vmask (opSize m.d.w32)).setWidth 64).setWidth 32))) := by
  show (if _ then _ else _ : X86M D Unit) m = _
  split <;> rfl

theorem signedDivision_eq {w : Nat} {a b : BitVec w} (hw : 0 < w)
    (hdef : ¬(a = .intMin w ∧ b = -1#w)) (c : BitVec w → Prop) [DecidablePred c]
    (set : BitVec w → BitVec w → X86State → X86State) (m : Machine D) :
    (if b = 0 then de else do
        let q ← defined (CInt.div a b)
        if c q then de
        else do
          let r ← defined (CInt.rem a b)
          modS fun s => set q r s : X86M D Unit) m =
      if b = 0 then .raise ⟨vecDe, m.eip.setWidth 64⟩ m
      else if c (a.sdiv b) then .raise ⟨vecDe, m.eip.setWidth 64⟩ m
      else .ok () (m.setS (set (a.sdiv b) (a.srem b) m.s)) := by
  split
  · rfl
  · next hb =>
    rw [div_eq_some hw hb hdef, rem_eq_some hw hb hdef]
    show (if _ then _ else _ : X86M D Unit) m = _
    split <;> rfl

-- What the result registers hold afterwards.

section

variable (signed : Bool)

section

variable (s : X86State)

theorem quotientOf_setAlAh (q r : BitVec 8) :
    quotientOf signed 1 (s.setAlAh q r) = numberOf signed q := by
  show numberOf signed ((s.setAlAh q r).l eaxI) = _
  rw [X86State.setAlAh, l_setH_same, l_setL_same]

theorem remainderOf_setAlAh (q r : BitVec 8) :
    remainderOf signed 1 (s.setAlAh q r) = numberOf signed r := by
  show numberOf signed ((s.setAlAh q r).h eaxI) = _
  rw [X86State.setAlAh, h_setH_same]

section

variable (q r : BitVec 32)

theorem quotientOf_setPair_false :
    quotientOf signed 2 (s.setPair false q r) = numberOf signed (q.setWidth 16) := by
  show numberOf signed ((s.setPair false q r).x eaxI) = _
  rw [X86State.setPair, if_neg Bool.false_ne_true, x_setX_ne _ _ (by decide), x_setX_same]

theorem remainderOf_setPair_false :
    remainderOf signed 2 (s.setPair false q r) = numberOf signed (r.setWidth 16) := by
  show numberOf signed ((s.setPair false q r).x edxI) = _
  rw [X86State.setPair, if_neg Bool.false_ne_true, x_setX_same]

theorem quotientOf_setPair_true : quotientOf signed 4 (s.setPair true q r) = numberOf signed q := by
  show numberOf signed ((s.setPair true q r).r eaxI) = _
  rw [X86State.setPair, if_pos rfl, r_setE_ne _ _ (by decide), r_setE_same]

theorem remainderOf_setPair_true :
    remainderOf signed 4 (s.setPair true q r) = numberOf signed r := by
  show numberOf signed ((s.setPair true q r).r edxI) = _
  rw [X86State.setPair, if_pos rfl, r_setE_same]

end

end

end

theorem div8_divided (h : rm8 m = .ok v m₁) (hframe : MemFrame m m₁) :
    Divided false 1 m (v.setWidth 32) (div8 m) := by
  rw [div8_eq h, hframe.x]
  have hv : (v.setWidth 32).toNat = v.toNat := toNat_setWidth_of_le (by decide)
  refine divided_unsigned hframe ?_ ?_ rfl ?_ (quotientOf_setAlAh ..) (remainderOf_setAlAh ..)
  · exact congrArg ofNat (toNat_setWidth_of_le (by decide)).symm
  · refine congrArg ofNat ?_
    rw [setWidth_setWidth_of_le _ (by decide), setWidth_eq, hv]
  · exact v.isLt

theorem ne_narrowed_iff (q : BitVec 32) :
    q ≠ (q.setWidth 8).signExtend 32 ↔ ¬CInt.Fits 8 q.toInt := by
  rw [not_iff_not]
  constructor
  · intro h
    rw [h, toInt_signExtend_of_le (by decide)]
    exact fits_toInt _
  · intro h
    apply eq_of_toInt_eq
    rw [toInt_signExtend_of_le (by decide), toInt_setWidth_of_fits (by decide) (by decide) h]

theorem ne_intMin_of_fits {w n : Nat} {a : BitVec w} (hn : 0 < n) (hw : n < w)
    (h : CInt.Fits n a.toInt) : a ≠ .intMin w := by
  rw [ne_eq, eq_intMin_iff (by omega)]
  have hlt : (2 : Int) ^ (n - 1) < 2 ^ (w - 1) := by
    exact_mod_cast Nat.pow_lt_pow_right (by decide) (by omega)
  have := h.1
  omega

theorem idiv8_eq (h : rm8 m = .ok v m₁) {a b : BitVec 32} (ha : a = (m₁.s.x eaxI).signExtend 32)
    (hb : b = v.signExtend 32) (hdef : ¬(a = .intMin 32 ∧ b = -1#32)) :
    idiv8 m = if b = 0 then .raise ⟨vecDe, m₁.eip.setWidth 64⟩ m₁
      else if a.sdiv b ≠ ((a.sdiv b).setWidth 8).signExtend 32 then
        .raise ⟨vecDe, m₁.eip.setWidth 64⟩ m₁
      else .ok () (m₁.setS (m₁.s.setAlAh ((a.sdiv b).setWidth 8) ((a.srem b).setWidth 8))) := by
  rw [idiv8, RaiseM.bind_apply, h, ha, hb]
  rw [ha, hb] at hdef
  exact signedDivision_eq (by decide) hdef (fun q => q ≠ (q.setWidth 8).signExtend 32)
    (fun q r s => s.setAlAh (q.setWidth 8) (r.setWidth 8)) m₁

theorem idiv8_divided (h : rm8 m = .ok v m₁) (hframe : MemFrame m m₁) :
    Divided true 1 m (v.setWidth 32) (idiv8 m) := by
  have ha : ((m₁.s.x eaxI).signExtend 32).toInt = (m.s.x eaxI).toInt := by
    rw [toInt_signExtend_of_le (by decide), hframe.x]
  have hb : (v.signExtend 32).toInt = v.toInt := toInt_signExtend_of_le (by decide)
  have hdef : ¬((m₁.s.x eaxI).signExtend 32 = .intMin 32 ∧ v.signExtend 32 = -1#32) :=
    fun hbad => ne_intMin_of_fits (n := 16) (by decide) (by decide)
      (by rw [ha]; exact fits_toInt _) hbad.1
  rw [idiv8_eq h rfl rfl hdef]
  refine divided_signed hframe ha.symm ?_ hdef (by decide) (by decide) ?_ (ne_narrowed_iff _)
    (quotientOf_setAlAh ..) (remainderOf_setAlAh ..)
  · rw [hb]
    refine congrArg BitVec.toInt ?_
    rw [setWidth_setWidth_of_le _ (by decide), setWidth_eq]
  · rw [hb]
    exact fits_toInt v

theorem masked_toNat (w32 : Bool) (src : BitVec 32) :
    ((src &&& vmask (opSize w32)).setWidth 64).toNat = src.toNat % 2 ^ (8 * opSize w32) := by
  have hmask : (vmask (opSize w32)).toNat = 2 ^ (8 * opSize w32) - 1 := by cases w32 <;> decide
  rw [toNat_setWidth_of_le (by decide), toNat_and, hmask, Nat.and_two_pow_sub_one_eq_mod]

theorem divW_divided (hframe : MemFrame m m₁) :
    Divided false (opSize m₁.d.w32) m src (divW src m₁) := by
  have hn := masked_toNat m₁.d.w32 src
  have hlim : ((vmask (opSize m₁.d.w32)).setWidth 64).toNat + 1 = 2 ^ (8 * opSize m₁.d.w32) := by
    cases m₁.d.w32 <;> decide
  have hlt : src.toNat % 2 ^ (8 * opSize m₁.d.w32) < 2 ^ (8 * opSize m₁.d.w32) :=
    Nat.mod_lt _ (Nat.two_pow_pos _)
  rw [divW_eq, hframe.pair]
  generalize m₁.d.w32 = w32 at *
  refine divided_unsigned hframe ?_ ?_ hlim (hn ▸ hlt) ?_ ?_
  · cases w32 with
    | true => exact congrArg ofNat (congrArg BitVec.toNat (pair_true m.s)).symm
    | false => exact congrArg ofNat (toNat_pair_false m.s).symm
  · rw [hn]
    cases w32 with
    | true => exact congrArg ofNat (Nat.mod_eq_of_lt src.isLt).symm
    | false => exact congrArg ofNat (toNat_setWidth 16 src)
  · cases w32 with
    | true => exact quotientOf_setPair_true ..
    | false =>
      refine (quotientOf_setPair_false ..).trans (congrArg ofNat (congrArg BitVec.toNat ?_))
      exact setWidth_setWidth_of_le _ (by decide)
  · cases w32 with
    | true => exact remainderOf_setPair_true ..
    | false =>
      refine (remainderOf_setPair_false ..).trans (congrArg ofNat (congrArg BitVec.toNat ?_))
      exact setWidth_setWidth_of_le _ (by decide)

def signedPair (s : X86State) (w32 : Bool) : BitVec 64 :=
  if w32 then s.pair true else ((s.pair false).setWidth 32).signExtend 64

theorem outOfRange_iff (w32 : Bool) (q : BitVec 64) :
    (q.slt (-(1#64 <<< ((if w32 then 32 else 16) - 1))) ||
        (1#64 <<< ((if w32 then 32 else 16) - 1)).sle q) = true ↔
      ¬CInt.Fits (8 * opSize w32) q.toInt := by
  have hhi : (1#64 <<< ((if w32 then 32 else 16) - 1)).toInt = 2 ^ (8 * opSize w32 - 1) := by
    cases w32 <;> decide
  have hlo : (-(1#64 <<< ((if w32 then 32 else 16) - 1))).toInt = -2 ^ (8 * opSize w32 - 1) := by
    cases w32 <;> decide
  rw [Bool.or_eq_true, slt_eq_decide, sle_eq_decide, decide_eq_true_eq,
    decide_eq_true_eq, hhi, hlo, CInt.Fits, not_and_or, not_le, not_lt]

theorem idivW_eq (m : Machine D) {a b : BitVec 64} (ha : a = signedPair m.s m.d.w32)
    (hb : b = signedOperand m.d.w32 src) (hdef : ¬(a = .intMin 64 ∧ b = -1#64)) :
    idivW src m = if b = 0 then .raise ⟨vecDe, m.eip.setWidth 64⟩ m
      else if ((a.sdiv b).slt (-(1#64 <<< ((if m.d.w32 then 32 else 16) - 1))) ||
          (1#64 <<< ((if m.d.w32 then 32 else 16) - 1)).sle (a.sdiv b)) = true then
        .raise ⟨vecDe, m.eip.setWidth 64⟩ m
      else .ok () (m.setS (m.s.setPair m.d.w32 ((a.sdiv b).setWidth 32)
        ((a.srem b).setWidth 32))) := by
  rw [ha, hb] at *
  exact signedDivision_eq (by decide) hdef _
    (fun q r s => s.setPair m.d.w32 (q.setWidth 32) (r.setWidth 32)) m

theorem toInt_signedPair (s : X86State) (w32 : Bool) :
    (signedPair s w32).toInt = dividendOf true (opSize w32) s := by
  cases w32 with
  | true => exact congrArg BitVec.toInt (pair_true s)
  | false =>
    refine (toInt_signExtend_of_le (by decide)).trans (congrArg BitVec.toInt ?_)
    exact setWidth_pair_false s

theorem toInt_signedOperand (w32 : Bool) (src : BitVec 32) :
    (signedOperand w32 src).toInt = divisorOf true (opSize w32) src := by
  cases w32 <;> exact toInt_signExtend_of_le (by decide)

theorem fits_divisorOf (w32 : Bool) (src : BitVec 32) :
    CInt.Fits (8 * opSize w32) (divisorOf true (opSize w32) src) := by
  cases w32 <;> exact fits_toInt _

theorem append_eq_intMin {hi lo : BitVec 32} :
    hi ++ lo = BitVec.intMin 64 ↔ hi = 0x80000000 ∧ lo = 0 := by
  constructor
  · intro h
    have hlo := congrArg (BitVec.setWidth 32) h
    rw [setWidth_append_eq_right] at hlo
    rw [hlo] at h
    exact ⟨(append_left_inj _).mp h, hlo⟩
  · rintro ⟨rfl, rfl⟩
    rfl

theorem undefined_iff (s : X86State) (w32 : Bool) (src : BitVec 32) :
    (signedPair s w32 = .intMin 64 ∧ signedOperand w32 src = -1#64) ↔
      HostTraps true (opSize w32) s src := by
  cases w32 with
  | true =>
    have hsrc : src.signExtend 64 = -1#64 ↔ src = 0xffffffff := by
      rw [eq_neg_one_iff (by decide), toInt_signExtend_of_le (by decide),
        ← eq_neg_one_iff (by decide)]
      rfl
    show (s.pair true = _ ∧ src.signExtend 64 = _) ↔ _
    rw [pair_true, append_eq_intMin, hsrc, and_assoc]
    exact ⟨fun h => ⟨rfl, rfl, h⟩, fun h => h.2.2⟩
  | false =>
    refine iff_of_false (fun h => ?_) fun h => absurd h.2.1 (by decide)
    refine ne_intMin_of_fits (n := 32) (by decide) (by decide) ?_ h.1
    rw [signedPair, if_neg Bool.false_ne_true, toInt_signExtend_of_le (by decide)]
    exact fits_toInt _

theorem idivW_divided (hframe : MemFrame m m₁) (hok : ¬HostTraps true (opSize m₁.d.w32) m.s src) :
    Divided true (opSize m₁.d.w32) m src (idivW src m₁) := by
  have hpair : signedPair m₁.s m₁.d.w32 = signedPair m.s m₁.d.w32 := by
    unfold signedPair
    rw [hframe.pair, hframe.pair]
  rw [← undefined_iff] at hok
  rw [idivW_eq m₁ hpair.symm rfl hok]
  generalize m₁.d.w32 = w32 at *
  refine divided_signed hframe (toInt_signedPair ..).symm (toInt_signedOperand ..).symm hok ?_ ?_ ?_
    (outOfRange_iff ..) ?_ ?_
  · cases w32 <;> decide
  · cases w32 <;> decide
  · rw [toInt_signedOperand]
    exact fits_divisorOf ..
  · cases w32 with
    | true => exact quotientOf_setPair_true ..
    | false =>
      refine (quotientOf_setPair_false ..).trans (congrArg BitVec.toInt ?_)
      exact setWidth_setWidth_of_le _ (by decide)
  · cases w32 with
    | true => exact remainderOf_setPair_true ..
    | false =>
      refine (remainderOf_setPair_false ..).trans (congrArg BitVec.toInt ?_)
      exact setWidth_setWidth_of_le _ (by decide)

theorem idivW_fatal (hbad : HostTraps true (opSize m.d.w32) m.s src) : idivW src m = .fatal := by
  obtain ⟨ha, hb⟩ := (undefined_iff ..).mpr hbad
  have hundef : CInt.div (signedPair m.s m.d.w32) (signedOperand m.d.w32 src) = none := by
    rw [ha, hb]
    decide
  have hnonzero : signedOperand m.d.w32 src ≠ 0 := by
    rw [hb]
    decide
  show (if signedOperand m.d.w32 src = 0 then de else _) m = _
  rw [if_neg hnonzero]
  show (defined (CInt.div (signedPair m.s m.d.w32) (signedOperand m.d.w32 src)) >>= _) m = _
  rw [hundef]
  rfl

/-! ### The group -/

def divReg (signed : Bool) : Reg := if signed then 7 else 6

theorem rmSized_one (h : rmSized 1 m = .ok src m₁) :
    ∃ v, rm8 m = .ok v m₁ ∧ src = v.setWidth 32 := by
  have h' : (rm8 m).bind (fun v m' => .ok (v.setWidth 32) m') = .ok src m₁ := h
  cases hv : rm8 m with
  | ok v m' =>
    rw [hv] at h'
    cases h'
    exact ⟨v, rfl, rfl⟩
  | raise e m' =>
    rw [hv] at h'
    cases h'
  | fatal =>
    rw [hv] at h'
    cases h'

theorem grp3Op_one {signed : Bool} (hreg : m.d.reg = divReg signed) :
    grp3Op 1 m = if signed then idiv8 m else div8 m := by
  show (if m.d.reg ≤ 1 then _ else _ : X86M D Unit) m = _
  rw [hreg]
  cases signed <;> rfl

theorem grp3Op_word {signed : Bool} {size : Nat} (hreg : m.d.reg = divReg signed)
    (hsize : size = opSize m.d.w32) (h : rmSized size m = .ok src m₁) :
    grp3Op size m = if signed then idivW src m₁ else divW src m₁ := by
  have hne : size ≠ 1 := by
    rw [hsize]
    cases m.d.w32 <;> decide
  show (if m.d.reg ≤ 1 then _ else _ : X86M D Unit) m = _
  rw [hreg]
  cases signed
  all_goals
    show (if size = 1 then _ else rmSized size >>= _) m = _
    rw [if_neg hne, RaiseM.bind_apply, h]
    rfl

end Outcomes

/-- DIV and IDIV divide, or raise #DE with the registers as they were, exactly where the manual
says, on every dividend and divisor but the least 64-bit dividend by minus one. -/
theorem division_right_iff {m m₁ : Machine D} {signed : Bool} {size : Nat} {src : BitVec 32}
    (hreg : m.d.reg = divReg signed) (hsize : size = 1 ∨ size = opSize m.d.w32)
    (hop : rmSized size m = .ok src m₁) :
    Divided signed size m src (grp3Op size m) ↔ ¬HostTraps signed size m.s src := by
  have hframe : MemFrame m m₁ := MemFrame.rmSized.of_ok hop
  rcases hsize with rfl | hsize
  · -- the byte form never divides the least dividend
    obtain ⟨v, hv, rfl⟩ := rmSized_one hop
    refine iff_of_true ?_ fun h => absurd h.2.1 (by decide)
    rw [grp3Op_one hreg]
    cases signed with
    | true => exact idiv8_divided hv hframe
    | false => exact div8_divided hv hframe
  · have hw : m₁.d.w32 = m.d.w32 := by rw [hframe.d]
    rw [grp3Op_word hreg hsize hop, hsize, ← hw]
    cases signed with
    | true =>
      refine ⟨fun h hbad => ?_, fun h => idivW_divided hframe h⟩
      have hbad₁ : HostTraps true (opSize m₁.d.w32) m₁.s src := by
        rw [HostTraps, hframe.r]
        exact hbad
      rw [if_pos rfl, idivW_fatal hbad₁] at h
      exact h
    | false =>
      exact iff_of_true (divW_divided hframe) fun h => absurd h.1 (by decide)

def idivEbx (edx eax ebx : BitVec 32) : Machine Unit :=
  .small (((x86InitMultiboot.setE edxI edx).setE eaxI eax).setE ebxI ebx)
    { Dec.start true with mod := 3, reg := divReg true, rm := ebxI } fun _ => 0

theorem division_right_minus_seven :
    rmSized 4 (idivEbx 0xffffffff 0xfffffff9 2) = .ok 2 (idivEbx 0xffffffff 0xfffffff9 2) ∧
      Divided true 4 (idivEbx 0xffffffff 0xfffffff9 2) 2
        (grp3Op 4 (idivEbx 0xffffffff 0xfffffff9 2)) := by
  have hreg : (idivEbx 0xffffffff 0xfffffff9 2).d.reg = divReg true := rfl
  have hsize : 4 = opSize (idivEbx 0xffffffff 0xfffffff9 2).d.w32 := rfl
  refine ⟨rfl, (division_right_iff hreg (.inr hsize) rfl).mpr ?_⟩
  decide

/-- The least dividend by minus one has no quotient, and instead of #DE the host traps. -/
theorem idiv_least_by_minus_one :
    ¬Divisible true 4 (dividendOf true 4 (idivEbx 0x80000000 0 0xffffffff).s)
        (divisorOf true 4 0xffffffff) ∧
      grp3Op 4 (idivEbx 0x80000000 0 0xffffffff) = .fatal := by
  have hreg : (idivEbx 0x80000000 0 0xffffffff).d.reg = divReg true := rfl
  have hsize : 4 = opSize (idivEbx 0x80000000 0 0xffffffff).d.w32 := rfl
  refine ⟨fun h => absurd h.2 ?_, ?_⟩
  · show ¬CInt.Fits 32 ((-9223372036854775808 : Int).tdiv (-1))
    decide
  · rw [grp3Op_word hreg hsize rfl]
    exact idivW_fatal ⟨rfl, rfl, rfl, rfl, rfl⟩

end Cemu.X86
