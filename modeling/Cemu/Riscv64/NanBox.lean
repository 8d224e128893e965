import Cemu.Riscv64.Fp

/-!
# riscv64: operands that are not NaN-boxed

A single-precision operation has to treat an operand whose upper half is not all ones as the
canonical NaN. `BoxUniform` says for each operation on which operands it does.
-/

namespace Cemu.Rv64

open FloatBits FpOut

variable {L : Type}

/-- The single-precision operations on register operands, with their other arguments. -/
inductive SOp where
  | sgnj (kind : BitVec 3)
  | fclass
  | minMax (isMax : Bool)
  | cmp (kind : FpCmp)
  | f2i (toSigned w64 : Bool) (rm : BitVec 8)
  | binary (kind : FpBin) (rm : BitVec 8)
  | sqrt (rm : BitVec 8)
  | fma (rm : BitVec 8)
  | cvtDS (rm : BitVec 8)

def SOp.run (h : HostFloat L) (a b c : BitVec 64) : SOp → FpOut
  | sgnj kind => ⟨(FpBackend.ofHost h).riscvFpSgnj false a b kind, 0⟩
  | fclass => ⟨(FpBackend.ofHost h).riscvFpClass false a, 0⟩
  | minMax isMax => (FpBackend.ofHost h).riscvFpMinMax false a b isMax
  | cmp kind => (FpBackend.ofHost h).riscvFpCmp false a b kind
  | f2i toSigned w64 rm => (FpBackend.ofHost h).riscvFpF2I false a toSigned w64 rm
  | binary kind rm => (FpBackend.ofHost h).riscvFpBinary false a b kind rm
  | sqrt rm => (FpBackend.ofHost h).riscvFpSqrt false a rm
  | fma rm => (FpBackend.ofHost h).riscvFpFma false a b c rm
  | cvtDS rm => (FpBackend.ofHost h).riscvFpCvtDS a rm

def canon (v : BitVec 64) : BitVec 64 := if isBoxed v then v else box32 kQnan32

/-- The single in the register, with an operand that is not boxed read as the canonical NaN. -/
def single (v : BitVec 64) : BitVec 32 := float32 (canon v)

def boxedSnan (v : BitVec 64) : Bool := isBoxed v && isSnan 23 (float32 v)

def strayedSnan (v : BitVec 64) : Bool := !isBoxed v && isSnan 23 (float32 v)

/-- The operands on which the operation reads every operand as it has to. For the arithmetic this is
the host's doing: it must answer a NaN with a NaN. -/
def BoxUniform (h : HostFloat L) (a b c : BitVec 64) : SOp → Prop
  | .sgnj _ => True
  | .fclass => isBoxed a ∨ classify 23 (float32 a) = 9
  | .minMax _ => strayedSnan a ∨ strayedSnan b → boxedSnan a ∨ boxedSnan b
  | .cmp kind => kind = .eq → (isBoxed a ∧ isBoxed b) ∨ boxedSnan a ∨ boxedSnan b
  | .f2i toSigned _ _ => isBoxed a ∨ toSigned = false
  | .binary kind _ => (isBoxed a ∧ isBoxed b) ∨
      isNan 23 (h.single.bin kind (single a) (single b))
  | .sqrt _ => isBoxed a ∨ isNan 23 (h.single.sqrt (single a))
  | .fma _ => (isBoxed a ∧ isBoxed b ∧ isBoxed c) ∨
      isNan 23 (h.single.fma (single a) (single b) (single c))
  | .cvtDS _ => True

/-! ### Boxes -/

theorem float32_box32 (v : BitVec 32) : float32 (box32 v) = v := by
  have hmask : kBoxMask.setWidth 32 = 0#32 := by decide
  rw [float32, box32, BitVec.setWidth_or, hmask, BitVec.zero_or, BitVec.setWidth_setWidth_of_le]
  · exact BitVec.setWidth_eq v
  · decide

theorem box32_inj {v v' : BitVec 32} (h : box32 v = box32 v') : v = v' := by
  rw [← float32_box32 v, h, float32_box32]

variable {v : BitVec 64}

theorem canon_of_boxed (h : isBoxed v = true) : canon v = v := if_pos h

theorem isBoxed_canon (v : BitVec 64) : isBoxed (canon v) = true := by
  unfold canon
  split
  · assumption
  · decide

theorem single_of_boxed (h : isBoxed v = true) : single v = float32 v := by
  rw [single, canon_of_boxed h]

theorem single_of_unboxed (h : isBoxed v = false) : single v = kQnan32 := by
  rw [single, canon, if_neg (by simp [h])]
  decide

theorem single_eq (v : BitVec 64) : single v = if isBoxed v then float32 v else kQnan32 := by
  split
  · next h => exact single_of_boxed h
  · next h => exact single_of_unboxed (Bool.eq_false_of_not_eq_true h)

theorem isSnan_single (v : BitVec 64) : isSnan 23 (single v) = boxedSnan v := by
  rw [boxedSnan]
  cases hbox : isBoxed v with
  | true => rw [single_of_boxed hbox, Bool.true_and]
  | false =>
    rw [single_of_unboxed hbox, Bool.false_and]
    decide

theorem isSnan_float32 (v : BitVec 64) :
    isSnan 23 (float32 v) = (boxedSnan v || strayedSnan v) := by
  rw [boxedSnan, strayedSnan]
  cases isBoxed v <;> cases isSnan 23 (float32 v) <;> rfl

theorem nvIf_eq_iff {p q : Bool} : nvIf p = nvIf q ↔ p = q := by
  cases p <;> cases q <;> decide

/-! ### Operation by operation -/

theorem classify_lt (v : BitVec 32) : classify 23 v < 10 := by
  unfold classify
  split_ifs <;> decide

theorem class_uniform_iff (a : BitVec 64) :
    riscvFpClassS a = riscvFpClassS (canon a) ↔ isBoxed a ∨ classify 23 (float32 a) = 9 := by
  cases hbox : isBoxed a with
  | true =>
    rw [canon_of_boxed hbox]
    exact iff_of_true rfl (.inl rfl)
  | false =>
    have hnine : riscvFpClassS (canon a) = 1#64 <<< 9 := by
      rw [riscvFpClassS, show float32 (canon a) = _ from single_of_unboxed hbox]
      decide
    have hinj : ∀ n < 10, 1#64 <<< n = 1#64 <<< 9 → n = 9 := by decide
    rw [hnine, riscvFpClassS, or_iff_right Bool.false_ne_true]
    exact ⟨hinj _ (classify_lt _), fun h => by rw [h]⟩

theorem minMax_uniform_iff (h : HostFloat L) (a b : BitVec 64) (isMax : Bool) :
    riscvFpMinMaxS h a b isMax = riscvFpMinMaxS h (canon a) (canon b) isMax ↔
      (strayedSnan a ∨ strayedSnan b → boxedSnan a ∨ boxedSnan b) := by
  have hval (v : BitVec 64) :
      (if isBoxed (canon v) then float32 (canon v) else kQnan32) = single v :=
        if_pos (isBoxed_canon v)
  unfold riscvFpMinMaxS
  simp only [mk.injEq, hval, ← single_eq]
  rw [show float32 (canon a) = single a from rfl, show float32 (canon b) = single b from rfl,
    isSnan_single, isSnan_single, isSnan_float32, isSnan_float32]
  cases boxedSnan a <;> cases boxedSnan b <;> cases strayedSnan a <;> cases strayedSnan b <;> decide

theorem cmp_uniform_iff (a b : BitVec 64) (kind : FpCmp) :
    riscvFpCmpS a b kind = riscvFpCmpS (canon a) (canon b) kind ↔
      (kind = .eq → (isBoxed a ∧ isBoxed b) ∨ boxedSnan a ∨ boxedSnan b) := by
  by_cases hbox : isBoxed a = true ∧ isBoxed b = true
  · rw [canon_of_boxed hbox.1, canon_of_boxed hbox.2]
    exact iff_of_true rfl fun _ => .inl hbox
  have hnan : (isNan 23 (single a) || isNan 23 (single b)) = true := by
    rcases not_and_or.mp hbox with hb | hb
    · rw [single_of_unboxed (Bool.eq_false_of_not_eq_true hb)]
      rfl
    · rw [single_of_unboxed (Bool.eq_false_of_not_eq_true hb), Bool.or_comm]
      rfl
  have hleft : riscvFpCmpS a b kind = ⟨0, nvIf true⟩ := by
    rw [riscvFpCmpS, if_pos]
    · rfl
    · simpa only [Bool.or_eq_true, Bool.not_eq_true', ← Bool.not_eq_true] using not_and_or.mp hbox
  have hright : riscvFpCmpS (canon a) (canon b) kind =
      ⟨0, nvIf (decide (kind ≠ .eq) || boxedSnan a || boxedSnan b)⟩ := by
    rw [riscvFpCmpS, isBoxed_canon, isBoxed_canon, if_neg (by decide)]
    change fpCmp 23 (single a) (single b) kind = _
    unfold fpCmp
    rw [if_pos hnan, isSnan_single, isSnan_single]
  rw [hleft, hright, mk.injEq, nvIf_eq_iff, or_iff_right hbox]
  cases kind <;> cases boxedSnan a <;> cases boxedSnan b <;> decide

theorem f2i_uniform_iff (h : HostFloat L) (a : BitVec 64) (toSigned w64 : Bool) (rm : BitVec 8) :
    riscvFpF2IS h a toSigned w64 rm = riscvFpF2IS h (canon a) toSigned w64 rm ↔
      isBoxed a ∨ toSigned = false := by
  cases hbox : isBoxed a with
  | true =>
    rw [canon_of_boxed hbox]
    exact iff_of_true rfl (.inl rfl)
  | false =>
    have hright : riscvFpF2IS h (canon a) toSigned w64 rm = ⟨f2iMax toSigned w64, kFflagNV⟩ := by
      rw [riscvFpF2IS, isBoxed_canon, if_neg (by decide),
        show float32 (canon a) = _ from single_of_unboxed hbox, f2iResult,
        if_pos (h.isnan_widen _ (by decide))]
    rw [hright, riscvFpF2IS, hbox, Bool.not_false, if_pos rfl, mk.injEq]
    cases toSigned <;> cases w64 <;> decide

/-! ### Arithmetic -/

section

variable (h : HostFloat L)
include h

theorem roundAdjust_cases {w : Nat} (u : FpUnit L w) (r : BitVec w) (e : L) (rm : BitVec 8) :
    roundAdjust h u r e rm = (r, 0) ∨ (roundAdjust h u r e rm).2 = kFflagNX := by
  unfold roundAdjust
  dsimp only
  split
  · exact .inl rfl
  · exact .inr rfl

theorem overflowResult_ne_qnan (negative : Bool) (rm : BitVec 8) :
    overflowResult h.unitS negative rm ≠ kQnan32 := by
  unfold overflowResult HostFloat.unitS
  cases negative <;> dsimp only <;> split_ifs <;> decide

theorem finish_eq_unboxed_iff (r : BitVec 32) (e : L) (rm : BitVec 8) (p : Bool) :
    (finish h h.unitS r e rm).raising (nvIf p) = unboxedResult ↔ isNan 23 r := by
  have hinexact (x y : BitVec 8) : x ||| (y ||| kFflagNX) ≠ kFflagNV := by
    intro heq
    have hbit := congrArg (·.getLsbD 0) heq
    simp [kFflagNX, kFflagNV] at hbit
  unfold finish
  rw [show h.unitS.frac = 23 from rfl]
  split
  · next hnan =>
    have hflags : nvIf p ||| kFflagNV = kFflagNV := by cases p <;> decide
    exact iff_of_true (congrArg (mk (box32 kQnan32)) hflags) hnan
  rename_i hnan
  refine iff_of_false (fun heq => ?_) hnan
  split at heq
  · exact overflowResult_ne_qnan h _ rm (box32_inj (congrArg val heq))
  rcases roundAdjust_cases h h.unitS r e rm with hexact | hnx
  · rw [hexact] at heq
    have hr : r = kQnan32 := box32_inj (congrArg val heq)
    rw [hr] at hnan
    exact hnan (by decide)
  · have hflags := congrArg flags heq
    change nvIf p ||| (_ ||| (roundAdjust h h.unitS r e rm).2) = kFflagNV at hflags
    rw [hnx] at hflags
    exact hinexact _ _ hflags

theorem binary_uniform_iff (a b : BitVec 64) (kind : FpBin) (rm : BitVec 8) :
    riscvFpBinaryS h a b kind rm = riscvFpBinaryS h (canon a) (canon b) kind rm ↔
      (isBoxed a ∧ isBoxed b) ∨ isNan 23 (h.single.bin kind (single a) (single b)) := by
  by_cases hbox : isBoxed a = true ∧ isBoxed b = true
  · rw [canon_of_boxed hbox.1, canon_of_boxed hbox.2]
    exact iff_of_true rfl (.inl hbox)
  have hleft : riscvFpBinaryS h a b kind rm = unboxedResult := by
    rw [riscvFpBinaryS, if_pos]
    simpa only [Bool.or_eq_true, Bool.not_eq_true', ← Bool.not_eq_true] using not_and_or.mp hbox
  -- neither a zero divisor nor a finite dividend: one of them is the canonical NaN
  have hdz : ¬(kind = .div ∧ isZero 23 (single b) ∧
      !isSpecial 23 (single a) ∧ !isZero 23 (single a)) := by
    rintro ⟨-, hzero, hfinite, -⟩
    rcases not_and_or.mp hbox with hb | hb
    · rw [single_of_unboxed (Bool.eq_false_of_not_eq_true hb)] at hfinite
      exact absurd hfinite (by decide)
    · rw [single_of_unboxed (Bool.eq_false_of_not_eq_true hb)] at hzero
      exact absurd hzero (by decide)
  rw [hleft, riscvFpBinaryS, isBoxed_canon, isBoxed_canon, eq_comm, or_iff_right hbox]
  change fpBinary h h.unitS (single a) (single b) kind rm = _ ↔ _
  unfold fpBinary
  rw [show h.unitS.frac = 23 from rfl, if_neg hdz]
  exact finish_eq_unboxed_iff h _ _ rm _

theorem sqrt_uniform_iff (a : BitVec 64) (rm : BitVec 8) :
    riscvFpSqrtS h a rm = riscvFpSqrtS h (canon a) rm ↔
      isBoxed a ∨ isNan 23 (h.single.sqrt (single a)) := by
  cases hbox : isBoxed a with
  | true =>
    rw [canon_of_boxed hbox]
    exact iff_of_true rfl (.inl rfl)
  | false =>
    have hneg : ¬lt 23 (single a) 0 = true := by
      rw [single_of_unboxed hbox]
      decide
    rw [riscvFpSqrtS, hbox, riscvFpSqrtS, isBoxed_canon, eq_comm, or_iff_right Bool.false_ne_true]
    change fpSqrt h h.unitS (single a) rm = _ ↔ _
    unfold fpSqrt
    rw [show h.unitS.frac = 23 from rfl, if_neg hneg]
    exact finish_eq_unboxed_iff h _ _ rm _

theorem fma_uniform_iff (a b c : BitVec 64) (rm : BitVec 8) :
    riscvFpFmaS h a b c rm = riscvFpFmaS h (canon a) (canon b) (canon c) rm ↔
      (isBoxed a ∧ isBoxed b ∧ isBoxed c) ∨
        isNan 23 (h.single.fma (single a) (single b) (single c)) := by
  by_cases hbox : isBoxed a = true ∧ isBoxed b = true ∧ isBoxed c = true
  · rw [canon_of_boxed hbox.1, canon_of_boxed hbox.2.1, canon_of_boxed hbox.2.2]
    exact iff_of_true rfl (.inl hbox)
  have hleft : riscvFpFmaS h a b c rm = unboxedResult := by
    rw [riscvFpFmaS, if_pos]
    simp only [Bool.or_eq_true, Bool.not_eq_true', ← Bool.not_eq_true]
    rw [or_assoc, ← not_and_or, ← not_and_or]
    exact hbox
  rw [hleft, riscvFpFmaS, isBoxed_canon, isBoxed_canon, isBoxed_canon, eq_comm, or_iff_right hbox]
  exact finish_eq_unboxed_iff h _ _ rm _

theorem cvtDS_uniform (a : BitVec 64) (rm : BitVec 8) :
    riscvFpCvtDS h a rm = riscvFpCvtDS h (canon a) rm := by
  cases hbox : isBoxed a with
  | true => rw [canon_of_boxed hbox]
  | false =>
    have hnan : isNan 52 (h.double.narrow (h.single.widen kQnan32)) = true :=
      h.isNan_narrow _ (h.isnan_widen _ (by decide))
    rw [riscvFpCvtDS, hbox, riscvFpCvtDS, isBoxed_canon,
      show float32 (canon a) = _ from single_of_unboxed hbox]
    exact (if_pos hnan).symm

end

theorem sgnj_uniform (a b : BitVec 64) (kind : BitVec 3) :
    riscvFpSgnjS a b kind = riscvFpSgnjS (canon a) (canon b) kind := by
  have hval (v : BitVec 64) :
      (if isBoxed (canon v) then float32 (canon v) else kQnan32) = single v :=
        if_pos (isBoxed_canon v)
  have hsign (v : BitVec 64) : (isBoxed v && (float32 v).msb) = (single v).msb := by
    cases hbox : isBoxed v with
    | true => rw [single_of_boxed hbox, Bool.true_and]
    | false =>
      rw [single_of_unboxed hbox, Bool.false_and]
      decide
  unfold riscvFpSgnjS
  simp only [hval, ← single_eq, hsign]
  rw [show single (canon b) = single b by rw [single, canon_of_boxed (isBoxed_canon b)]; rfl]

/-- On every host and all operands: a single-precision operation gives the value and the flags it
gives with the canonical NaN in place of each operand that is not boxed exactly when the
operands are uniform for it. -/
theorem nan_box_uniform_iff (h : HostFloat L) (op : SOp) (a b c : BitVec 64) :
    op.run h a b c = op.run h (canon a) (canon b) (canon c) ↔ BoxUniform h a b c op := by
  cases op with
  | sgnj kind => exact iff_of_true (congrArg (FpOut.mk · 0) (sgnj_uniform a b kind)) trivial
  | fclass =>
    rw [SOp.run, SOp.run, FpOut.mk.injEq, and_iff_left rfl]
    exact class_uniform_iff a
  | minMax isMax => exact minMax_uniform_iff h a b isMax
  | cmp kind => exact cmp_uniform_iff a b kind
  | f2i toSigned w64 rm => exact f2i_uniform_iff h a toSigned w64 rm
  | binary kind rm => exact binary_uniform_iff h a b kind rm
  | sqrt rm => exact sqrt_uniform_iff h a rm
  | fma rm => exact fma_uniform_iff h a b c rm
  | cvtDS rm => exact iff_of_true (cvtDS_uniform h a rm) trivial

def HostFloat.nanOnly : HostFloat Bool where
  single := ⟨fun _ _ _ => kQnan32, fun _ => kQnan32, fun _ _ _ => kQnan32, fun r _ => r,
    isNan 23, fun e => if e then kQnan32 else 0⟩
  double := ⟨fun _ _ _ => kQnan64, fun _ => kQnan64, fun _ _ _ => kQnan64, fun r _ => r,
    isNan 52, fun e => if e then kQnan64 else 0⟩
  bin _ a b := a || b
  sqrtl := id
  fabsl := id
  lt _ _ := false
  eq a b := !a && !b
  isnan := id
  isinf _ := false
  truncl := id
  floorl := id
  ceill := id
  roundl := id
  nearbyintl := id
  ofInt _ := false
  toInt _ := 0
  minNormalD := false
  isnan_widen _ ha := ha
  isNan_narrow e he := by
    rw [show e = true from he]
    decide

/-- feq.s on an operand that is not boxed raises NV, on the canonical NaN it does not; and a signed
conversion of one gives the least value, not the largest. -/
theorem unboxed_operands_differ :
    SOp.run .nanOnly 0 (box32 0) 0 (.cmp .eq) ≠
      SOp.run .nanOnly (canon 0) (canon (box32 0)) (canon 0) (.cmp .eq) ∧
    SOp.run .nanOnly 0 0 0 (.f2i true true 0) ≠
      SOp.run .nanOnly (canon 0) (canon 0) (canon 0) (.f2i true true 0) := by
  constructor
  · intro heq
    exact absurd (congrArg FpOut.flags heq) (by decide)
  · intro heq
    exact absurd (congrArg FpOut.val heq) (by decide)

end Cemu.Rv64
