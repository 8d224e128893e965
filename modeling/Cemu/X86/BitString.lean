import Cemu.X86.Counted
import Cemu.X86.RealMode
import Cemu.X86.ShiftRef

/-!
# x86: bit strings

BT, BTS, BTR and BTC. With a bit offset in a register the memory operand is a string of bits in
both directions from its address; the source walks it by an unsigned number of operands and
without the wrap of the address size.
-/

namespace Cemu.X86

open RaiseM BitVec Outcome

variable {D : Type}

/-! ### The instructions -/

inductive BtOp where
  | bt
  | bts
  | btr
  | btc
  deriving DecidableEq, Repr

namespace BtOp

def ofReg (reg : Reg) : BtOp :=
  match reg.toNat with
  | 4 => bt
  | 5 => bts
  | 6 => btr
  | _ => btc

def change (op : BtOp) (v : BitVec 32) (pos : Nat) : BitVec 32 :=
  match op with
  | bt => v
  | bts => v ||| 1#32 <<< pos
  | btr => v &&& ~~~(1#32 <<< pos)
  | btc => v ^^^ 1#32 <<< pos

end BtOp

/-- The walk along the string: whole operands, counted from the unsigned offset. -/
def btStep (w32 : Bool) (bit : BitVec 32) : BitVec 32 :=
  if w32 then 4 * (bit >>> 5) else 2 * (bit >>> 4)

def Dec.btWalk (d : Dec) (bit : BitVec 32) : Dec :=
  if d.isMem then
    { d with
      moff := d.moff + btStep d.w32 bit
      mlin := d.mlin + (btStep d.w32 bit).setWidth 64 }
  else d

def btPos (w32 : Bool) (bit : BitVec 32) : Nat := (bit &&& if w32 then 31 else 15).toNat

/-- The access to the operand: CF from the bit, and for all but BT the bit changed. -/
def btAt (op : BtOp) (w32 : Bool) (pos : Nat) : X86M D Unit := do
  let v ← rmSized (opSize w32)
  modS fun s => s.setCf ((v >>> pos).getLsbD 0)
  if op ≠ .bt then setRmSized (opSize w32) (op.change v pos) else pure ()

def btRegRm (op : BtOp) : X86M D Unit := do
  let d ← getD
  let bit ← regSized (opSize d.w32)
  modD fun d => d.btWalk bit
  btAt op d.w32 (btPos d.w32 bit)

/-- The case 0xba of `run_op2` behind `modrm()` and the immediate: every operation stores. -/
def grp8Op (op : BtOp) (imm : BitVec 8) : X86M D Unit := do
  let d ← getD
  let v ← rmSized (opSize d.w32)
  modS fun s => s.setCf ((v >>> btPos d.w32 (imm.setWidth 32)).getLsbD 0)
  setRmSized (opSize d.w32) (op.change v (btPos d.w32 (imm.setWidth 32)))

/-! ### Strings of bits -/

section String

variable (w32 a32 : Bool) (moff bit : BitVec 32)

def bitOffset : Int := (bit.setWidth (opSize w32 * 8)).toInt

def stringOff : Nat :=
  ((moff.toNat + opSize w32 * (bitOffset w32 bit / (opSize w32 * 8))) % (span a32 : Int)).toNat

def stringPos : Nat := (bitOffset w32 bit % (opSize w32 * 8)).toNat

/-- The walk of the source ends at the operand of the string: the offset is not negative and the
address does not wrap. -/
def WalkRight : Prop :=
  0 ≤ bitOffset w32 bit ∧
    moff.toNat + opSize w32 * (bitOffset w32 bit / (opSize w32 * 8)) < (span a32 : Int)

instance : Decidable (WalkRight w32 a32 moff bit) := inferInstanceAs (Decidable (_ ∧ _))

end String

def bitString (op : BtOp) : X86M D Unit := do
  let d ← getD
  let s ← getS
  let bit := s.r d.reg
  let off := BitVec.ofNat 32 (stringOff d.w32 d.a32 d.moff bit)
  modD fun d => { d with moff := off, mlin := linOf s d.mseg off }
  btAt op d.w32 (stringPos d.w32 bit)

def bitOf (op : BtOp) (imm : BitVec 8) : X86M D Unit := do
  let d ← getD
  btAt op d.w32 (btPos d.w32 (imm.setWidth 32))

/-! ### The walk -/

section Walk

variable (w32 a32 : Bool) (moff bit : BitVec 32)

def bitReg : BitVec 32 := if w32 then bit else (bit.setWidth 16).setWidth 32

theorem toNat_bitReg : (bitReg w32 bit).toNat = (bit.setWidth (opSize w32 * 8)).toNat := by
  cases w32 with
  | true => exact (congrArg BitVec.toNat (setWidth_eq bit)).symm
  | false => exact toNat_setWidth_of_le (show 16 ≤ 32 by decide)

theorem toNat_btStep (v : BitVec 32) :
    (btStep w32 v).toNat = opSize w32 * (v.toNat / (opSize w32 * 8)) := by
  cases w32 with
  | true =>
    show (4#32 * v >>> 5).toNat = 4 * (v.toNat / 32)
    rw [toNat_mul, toNat_ushiftRight, Nat.shiftRight_eq_div_pow]
    show 4 * (v.toNat / 32) % 4294967296 = _
    omega
  | false =>
    show (2#32 * v >>> 4).toNat = 2 * (v.toNat / 16)
    rw [toNat_mul, toNat_ushiftRight, Nat.shiftRight_eq_div_pow]
    show 2 * (v.toNat / 16) % 4294967296 = _
    omega

theorem btPos_eq (v : BitVec 32) : btPos w32 v = v.toNat % (opSize w32 * 8) := by
  cases w32 with
  | true =>
    exact Nat.and_two_pow_sub_one_eq_mod v.toNat 5
  | false =>
    exact Nat.and_two_pow_sub_one_eq_mod v.toNat 4

theorem bitOffset_cases : (bitReg w32 bit).toNat < 2 ^ (opSize w32 * 8) ∧
    (bitOffset w32 bit = (bitReg w32 bit).toNat ∨
      (2 ^ (opSize w32 * 8) ≤ 2 * (bitReg w32 bit).toNat ∧
        bitOffset w32 bit + (2 ^ (opSize w32 * 8) : Nat) = (bitReg w32 bit).toNat)) := by
  rw [toNat_bitReg, bitOffset]
  have hlt := (bit.setWidth (opSize w32 * 8)).isLt
  refine ⟨hlt, ?_⟩
  rw [toInt_eq_toNat_cond]
  split
  · exact .inl rfl
  · omega

theorem stringPos_eq : stringPos w32 bit = btPos w32 (bitReg w32 bit) := by
  rw [btPos_eq, stringPos]
  have hcases := (bitOffset_cases w32 bit).2
  cases w32 with
  | true =>
    show (bitOffset true bit % 32).toNat = (bitReg true bit).toNat % 32
    change _ ∨ _ ∧ _ + ((4294967296 : Nat) : Int) = _ at hcases
    omega
  | false =>
    show (bitOffset false bit % 16).toNat = (bitReg false bit).toNat % 16
    change _ ∨ _ ∧ _ + ((65536 : Nat) : Int) = _ at hcases
    omega

theorem walk_cases :
    (WalkRight w32 a32 moff bit →
      moff.toNat + (btStep w32 (bitReg w32 bit)).toNat = stringOff w32 a32 moff bit) ∧
    (¬WalkRight w32 a32 moff bit →
      moff.toNat + (btStep w32 (bitReg w32 bit)).toNat + 8 ≤ stringOff w32 a32 moff bit ∨
        stringOff w32 a32 moff bit + 8 ≤ moff.toNat + (btStep w32 (bitReg w32 bit)).toNat) := by
  obtain ⟨hreg, hcases⟩ := bitOffset_cases w32 bit
  rw [toNat_btStep, WalkRight, stringOff]
  generalize bitOffset w32 bit = o at *
  generalize (bitReg w32 bit).toNat = r at *
  generalize moff.toNat = a at *
  -- four sizes, in each of which everything is linear
  cases w32 <;> cases a32 <;> simp only [opSize, span, if_true, if_false, Bool.false_eq_true,
    Nat.cast_ofNat, Nat.reduceMul, Nat.reducePow] at * <;> omega

theorem stringOff_lt : stringOff w32 a32 moff bit < 2 ^ 32 := by
  rw [stringOff]
  have hspan : (span a32) = 65536 ∨ (span a32) = 4294967296 := by cases a32 <;> decide
  rcases hspan with hspan | hspan <;> rw [hspan] <;> omega

end Walk

/-! ### The register forms -/

section RegisterForm

variable {d : Dec} {m : Machine D}

/-- The machine behind the modrm byte `d`: its memory operand lies in the segment it names, and no
watchpoint has been hit yet. -/
def Decoded (d : Dec) (m : Machine D) : Prop :=
  m.d = { d with mlin := linOf m.s d.mseg d.moff, watchHit := 0 }

theorem btRegRm_apply (op : BtOp) (m : Machine D) :
    btRegRm op m = btAt op m.d.w32 (btPos m.d.w32 (bitReg m.d.w32 (m.s.r m.d.reg)))
      (m.setD (m.d.btWalk (bitReg m.d.w32 (m.s.r m.d.reg)))) := by
  have hreg : regOperand (opSize m.d.w32) m = bitReg m.d.w32 (m.s.r m.d.reg) := by
    cases m.d.w32 <;> rfl
  rw [← hreg]
  rfl

theorem bitString_apply (op : BtOp) (m : Machine D) :
    bitString op m = btAt op m.d.w32 (stringPos m.d.w32 (m.s.r m.d.reg)) (m.setD { m.d with
      moff := .ofNat 32 (stringOff m.d.w32 m.d.a32 m.d.moff (m.s.r m.d.reg))
      mlin := linOf m.s m.d.mseg
        (.ofNat 32 (stringOff m.d.w32 m.d.a32 m.d.moff (m.s.r m.d.reg))) }) := rfl

theorem btRegRm_eq (op : BtOp) (hmem : d.isMem = true) (hd : Decoded d m)
    (hwalk : WalkRight d.w32 d.a32 d.moff (m.s.r d.reg)) : btRegRm op m = bitString op m := by
  have hsum := (walk_cases d.w32 d.a32 d.moff (m.s.r d.reg)).1 hwalk
  have hlt := stringOff_lt d.w32 d.a32 d.moff (m.s.r d.reg)
  have hoff : d.moff + btStep d.w32 (bitReg d.w32 (m.s.r d.reg)) =
      .ofNat 32 (stringOff d.w32 d.a32 d.moff (m.s.r d.reg)) := by
    apply eq_of_toNat_eq
    rw [toNat_add, toNat_ofNat, hsum]
  have hlin : linOf m.s d.mseg d.moff + (btStep d.w32 (bitReg d.w32 (m.s.r d.reg))).setWidth 64 =
      linOf m.s d.mseg (.ofNat 32 (stringOff d.w32 d.a32 d.moff (m.s.r d.reg))) := by
    rw [linOf, BitVec.add_assoc, ← hoff]
    congr 1
    apply eq_of_toNat_eq
    rw [toNat_add, toNat_setWidth_of_le (by decide),
      toNat_setWidth_of_le (by decide), toNat_setWidth_of_le (by decide),
      toNat_add]
    omega
  rw [btRegRm_apply, bitString_apply, hd, stringPos_eq]
  congr 2
  show (if d.isMem then _ else _) = _
  rw [if_pos hmem, hoff, hlin]

end RegisterForm

/-! ### A board that tells two operands apart -/

namespace RealMode

variable {f : BitVec 64 → BitVec 64} {m : Machine D}

section

variable (h : RealMode f m) (hmem : m.d.isMem = true)

include h hmem

theorem rmSized (w32 : Bool) (hlin : m.d.mlin.toNat + 8 ≤ 0x200000000) {c : BitVec 64}
    (hc : c = 0#64 ∨ c = .allOnes 64)
    (hf : ∀ a : BitVec 64, m.d.mlin.toNat ≤ a.toNat → a.toNat < m.d.mlin.toNat + 8 → f a = c) :
    ∃ w, rmSized (opSize w32) m = .ok ((c.setWidth (opSize w32 * 8)).setWidth 32)
      ((m.setD (watched m (opSize w32) false)).setWorld w) ∧ Answers f w := by
  have hd : getD m = .ok m.d m := rfl
  cases w32 with
  | true =>
    obtain ⟨w, hload, hw⟩ := (h.setD (watched m 4 false)).busLoad
      (show 0 < 4 by decide) (show m.d.mlin.toNat + 4 ≤ _ by omega) hc
        (fun a hlo hhi => hf a hlo (by omega))
    refine ⟨w, ?_, hw⟩
    show X86.rm32 m = _
    rw [rm32, bind_of_ok hd, hmem, if_pos rfl, bind_of_ok (h.memOperand ..), rd32, bind_of_ok hload]
    exact congrArg (ok · _) (setWidth_eq _).symm
  | false =>
    obtain ⟨w, hload, hw⟩ := (h.setD (watched m 2 false)).busLoad
      (show 0 < 2 by decide) (show m.d.mlin.toNat + 2 ≤ _ by omega) hc
        (fun a hlo hhi => hf a hlo (by omega))
    refine ⟨w, ?_, hw⟩
    have hread : rm16 m = .ok (c.setWidth 16) ((m.setD (watched m 2 false)).setWorld w) := by
      rw [rm16, bind_of_ok hd, hmem, if_pos rfl, bind_of_ok (h.memOperand ..), rd16,
        bind_of_ok hload]
      rfl
    show (rm16 >>= fun v => pure (v.setWidth 32)) m = _
    rw [bind_of_ok hread]
    rfl

theorem setRmSized (w32 : Bool) (v : BitVec 32) :
    ∃ w, setRmSized (opSize w32) v m =
      .ok () ((m.setD (watched m (opSize w32) true)).setWorld w) := by
  have hd : getD m = .ok m.d m := rfl
  cases w32 with
  | true =>
    obtain ⟨w, hstore, -⟩ := (h.setD (watched m 4 true)).busStore m.d.mlin 4 (v.setWidth 64)
    refine ⟨w, ?_⟩
    show setRm32 v m = _
    rw [setRm32, bind_of_ok hd, hmem, if_pos rfl, bind_of_ok (h.memOperand ..), wr32, hstore]
    rfl
  | false =>
    obtain ⟨w, hstore, -⟩ := (h.setD (watched m 2 true)).busStore m.d.mlin 2
      ((v.setWidth 16).setWidth 64)
    refine ⟨w, ?_⟩
    show setRm16 (v.setWidth 16) m = _
    rw [setRm16, bind_of_ok hd, hmem, if_pos rfl, bind_of_ok (h.memOperand ..), wr16, hstore]
    rfl

theorem btAt_cf (op : BtOp) (w32 : Bool) {pos : Nat}
    (hpos : pos < opSize w32 * 8) (hlin : m.d.mlin.toNat + 8 ≤ 0x200000000) (ones : Bool)
    (hf : ∀ a : BitVec 64, m.d.mlin.toNat ≤ a.toNat → a.toNat < m.d.mlin.toNat + 8 →
      f a = if ones then .allOnes 64 else 0#64) :
    ∃ t, btAt op w32 pos m = .ok () t ∧ t.s.cf = ones := by
  have hwidth : opSize w32 * 8 ≤ 32 := by cases w32 <;> decide
  have hc : (if ones then .allOnes 64 else 0#64) = 0#64 ∨
      (if ones then .allOnes 64 else 0#64) = .allOnes 64 := by
    cases ones
    · exact .inl rfl
    · exact .inr rfl
  have hbit : ((((if ones then .allOnes 64 else 0#64).setWidth (opSize w32 * 8)).setWidth 32)
      >>> pos).getLsbD 0 = ones := by
    rw [getLsbD_ushiftRight, getLsbD_setWidth, getLsbD_setWidth, Nat.add_zero,
      decide_eq_true (by omega), decide_eq_true hpos]
    cases ones
    · exact getLsbD_zero
    · exact (getLsbD_allOnes).trans (decide_eq_true (by omega))
  obtain ⟨w, hread, hw⟩ := h.rmSized hmem w32 hlin hc hf
  rw [btAt, bind_of_ok hread, hbit]
  let m1 := ((m.setD (watched m (opSize w32) false)).setWorld w).setS (m.s.setCf ones)
  have hcf : m1.s.cf = ones := X86State.cf_setCf ..
  split
  · have h1 : RealMode f m1 := ⟨h.fast, h.cr0, h.a20, hw⟩
    obtain ⟨w', hstore⟩ := h1.setRmSized hmem w32 _
    exact ⟨_, hstore, hcf⟩
  · exact ⟨m1, rfl, hcf⟩

end

end RealMode

/-- A machine in real mode with base 0 everywhere, on which the operand at `lo` reads as ones and
all other memory as zeros. A watchpoint notes writes to `at_`. -/
def markedMachine (d : Dec) (bit : BitVec 32) (lo : Nat) (at_ : BitVec 32) : Machine Unit where
  s := { x86InitMultiboot with
    r := fun _ => bit
    seg := fun _ => ⟨0, 0, 0xffff, 0x93, false⟩
    cr0 := 0
    dr := fun i => if i = 0 then at_ else if i = 7 then 0x10001 else 0 }
  d := { d with mlin := 0#64 + at_.setWidth 64, watchHit := 0 }
  eip := 0
  recPc := 0
  w := answeringWorld fun a =>
    if lo ≤ a.toNat ∧ a.toNat < lo + 8 then BitVec.allOnes 64 else 0#64
  io := ⟨[], none⟩
  ioWf := BusWf.empty
  ports := openPorts 0
  gMemSlow := false
  portReads := []

section Marked

variable (d : Dec) (bit : BitVec 32) (lo : Nat) (at_ : BitVec 32)

theorem markedMachine_realMode : RealMode
    (fun a => if lo ≤ a.toNat ∧ a.toNat < lo + 8 then .allOnes 64 else 0#64)
    (markedMachine d bit lo at_) :=
  ⟨rfl, rfl, rfl, answers_answeringWorld _⟩

theorem btAt_differs (op : BtOp) (w32 : Bool) {pos : Nat} (hpos : pos < opSize w32 * 8)
    {d1 d2 : Dec} (hmem1 : d1.isMem = true) (hmem2 : d2.isMem = true) (hlo : d1.mlin.toNat = lo)
    (hfar : lo + 8 ≤ d2.mlin.toNat ∨ d2.mlin.toNat + 8 ≤ lo)
    (hlin1 : lo + 8 ≤ 0x200000000) (hlin2 : d2.mlin.toNat + 8 ≤ 0x200000000) :
    btAt op w32 pos ((markedMachine d bit lo at_).setD d1) ≠
      btAt op w32 pos ((markedMachine d bit lo at_).setD d2) := by
  have h := markedMachine_realMode d bit lo at_
  have hones : ∀ a : BitVec 64, d1.mlin.toNat ≤ a.toNat → a.toNat < d1.mlin.toNat + 8 →
      (if lo ≤ a.toNat ∧ a.toNat < lo + 8 then .allOnes 64 else 0#64) = .allOnes 64 :=
    fun a ha ha' => if_pos ⟨by omega, by omega⟩
  have hzeros : ∀ a : BitVec 64, d2.mlin.toNat ≤ a.toNat → a.toNat < d2.mlin.toNat + 8 →
      (if lo ≤ a.toNat ∧ a.toNat < lo + 8 then .allOnes 64 else 0#64) = 0#64 :=
    fun a ha ha' => if_neg (by omega)
  obtain ⟨t1, hrun1, hcf1⟩ := (h.setD d1).btAt_cf hmem1 op w32 hpos
    (show d1.mlin.toNat + 8 ≤ _ by omega) true hones
  obtain ⟨t2, hrun2, hcf2⟩ := (h.setD d2).btAt_cf hmem2 op w32 hpos hlin2 false hzeros
  intro heq
  rw [hrun1, hrun2] at heq
  cases heq
  rw [hcf1] at hcf2
  cases hcf2

theorem markedMachine_watched {size : Nat} (hsize : 0 < size ∧ size ≤ 4) (write : Bool) :
    watchBits (markedMachine d bit lo at_).s
      (watches (markedMachine d bit lo at_).s (0#64 + at_.setWidth 64) size write) =
        if write then 1 else 0 := by
  set s := (markedMachine d bit lo at_).s
  have hrange : List.range 4 = [0, 1, 2, 3] := rfl
  have hany : has (s.dr 7) kDr7AnyEnable = true := by
    show has 0x10001 kDr7AnyEnable = true
    decide
  have hoff {i : Nat} (hi : has (0x10001#32 >>> (2 * i)) 3 = false) :
      watches s (0#64 + at_.setWidth 64) size write i = false := by
    show (has (0x10001#32 >>> (2 * i)) 3 && _ && _ && _) = false
    rw [hi]
    rfl
  have hfirst : watches s (0#64 + at_.setWidth 64) size write 0 =
      write := by
    have hlow : decide (0#64 + at_.setWidth 64 < at_.setWidth 64 + 1#64) = true := by
      rw [decide_eq_true_eq, lt_def, BitVec.zero_add, toNat_add,
        toNat_setWidth_of_le (by decide)]
      show at_.toNat < (at_.toNat + 1) % 18446744073709551616
      omega
    have hhigh : decide (at_.setWidth 64 < 0#64 + at_.setWidth 64 + BitVec.ofNat 64 size) =
        true := by
      rw [decide_eq_true_eq, lt_def, BitVec.zero_add, toNat_add, toNat_ofNat,
        toNat_setWidth_of_le (by decide)]
      omega
    have hon : drEnabled s 0 = true := by
      show has (0x10001#32 >>> 0) 3 = true
      decide
    have hrw : drRw s 0 = 1 := by
      show 0x10001#32 >>> 16 &&& 3 = 1
      decide
    have hlen : drLenBytes s 0 = 1#64 := by
      show 1#64 <<< (0x10001#32 >>> 18 &&& 3).toNat = 1#64
      decide
    show (drEnabled s 0 && _ && decide (_ < at_.setWidth 64 +
      drLenBytes s 0) && decide (at_.setWidth 64 < _)) = write
    rw [hon, hrw, hlen, hlow, hhigh]
    cases write <;> decide
  rw [watchBits, hany, if_pos rfl, hrange]
  simp only [List.foldl_cons, List.foldl_nil, hfirst, hoff (i := 1) (by decide),
    hoff (i := 2) (by decide), hoff (i := 3) (by decide), Bool.false_eq_true, if_false]
  cases write <;> rfl

end Marked

theorem btRegRm_eq_iff (op : BtOp) {d : Dec} (bit : BitVec 32) (hmem : d.isMem = true) :
    (∀ (D : Type) (m : Machine D), Decoded d m → m.s.r d.reg = bit →
        btRegRm op m = bitString op m) ↔ WalkRight d.w32 d.a32 d.moff bit := by
  constructor
  · intro hall
    by_contra hwalk
    have hfar := (walk_cases d.w32 d.a32 d.moff bit).2 hwalk
    have hoff := stringOff_lt d.w32 d.a32 d.moff bit
    have hstep : (btStep d.w32 (bitReg d.w32 bit)).toNat < 2 ^ 29 := by
      have hreg := (bitReg d.w32 bit).isLt
      rw [toNat_btStep]
      cases d.w32 with
      | true =>
        show 4 * ((bitReg true bit).toNat / 32) < _
        omega
      | false =>
        show 2 * ((bitReg false bit).toNat / 16) < _
        omega
    have hpos : btPos d.w32 (bitReg d.w32 bit) < opSize d.w32 * 8 := by
      rw [btPos_eq]
      exact Nat.mod_lt _ (by cases d.w32 <;> decide)
    have hcode : (0#64 + d.moff.setWidth 64 + (btStep d.w32 (bitReg d.w32 bit)).setWidth 64).toNat =
        d.moff.toNat + (btStep d.w32 (bitReg d.w32 bit)).toNat := by
      rw [BitVec.zero_add, toNat_add, toNat_setWidth_of_le (by decide),
        toNat_setWidth_of_le (by decide)]
      omega
    have hright : (0#64 + (BitVec.ofNat 32 (stringOff d.w32 d.a32 d.moff bit)).setWidth 64).toNat =
        stringOff d.w32 d.a32 d.moff bit := by
      rw [BitVec.zero_add, toNat_setWidth_of_le (by decide), toNat_ofNat,
        Nat.mod_eq_of_lt hoff]
    have heq := hall Unit (markedMachine d bit
      (d.moff.toNat + (btStep d.w32 (bitReg d.w32 bit)).toNat) d.moff) rfl rfl
    rw [btRegRm_apply, bitString_apply, stringPos_eq, Dec.btWalk,
      if_pos (show (markedMachine d bit _ d.moff).d.isMem = true from hmem)] at heq
    rw [← hright] at hfar hoff
    refine absurd heq (btAt_differs d bit _ d.moff op d.w32 hpos ?_ ?_ ?_ ?_ ?_ ?_)
    · exact hmem
    · exact hmem
    · exact hcode
    · exact hfar
    · omega
    · exact Nat.le_trans (Nat.add_le_add_right hoff.le 8) (by decide)
  · intro hwalk D m hd hbit
    subst hbit
    exact btRegRm_eq op hmem hd hwalk

/-! ### The immediate forms -/

theorem setRmSized_read {m : Machine D} (hmem : m.d.isMem = false) (w32 : Bool) :
    ∃ v, rmSized (opSize w32) m = .ok v m ∧
      ∀ m' : Machine D, m'.d = m.d → m'.s.r = m.s.r → setRmSized (opSize w32) v m' = .ok () m' := by
  have hd : getD m = .ok m.d m := rfl
  cases w32 with
  | true =>
    refine ⟨m.s.r m.d.rm, ?_, fun m' hd' hr => ?_⟩
    · show rm32 m = _
      rw [rm32, bind_of_ok hd, hmem]
      rfl
    · have hsame : m'.s.setE m.d.rm (m.s.r m.d.rm) = m'.s := by
        rw [X86State.setE, ← hr, Function.update_eq_self]
      have hd'' : getD m' = .ok m.d m' := congrArg (ok · m') hd'
      show setRm32 _ m' = _
      rw [setRm32, bind_of_ok hd'', hmem]
      exact congrArg (fun s => ok () (m'.setS s)) hsame
  | false =>
    refine ⟨(m.s.x m.d.rm).setWidth 32, ?_, fun m' hd' hr => ?_⟩
    · have hread : rm16 m = .ok (m.s.x m.d.rm) m := by
        rw [rm16, bind_of_ok hd, hmem]
        rfl
      show (rm16 >>= fun v => pure (v.setWidth 32)) m = _
      rw [bind_of_ok hread]
      rfl
    · have hnarrow : ((m.s.x m.d.rm).setWidth 32).setWidth 16 = m.s.x m.d.rm := by
        rw [setWidth_setWidth_of_le _ (by decide), setWidth_eq]
      have hmerge : m'.s.r m.d.rm &&& 0xffff0000 ||| (m.s.x m.d.rm).setWidth 32 =
          m'.s.r m.d.rm := by
        apply eq_of_toNat_eq
        rw [toNat_merge16, hr]
        exact Nat.div_add_mod' ..
      have hsame : m'.s.setX m.d.rm (m.s.x m.d.rm) = m'.s := by
        rw [X86State.setX, hmerge, X86State.setE, Function.update_eq_self]
      have hd'' : getD m' = .ok m.d m' := congrArg (ok · m') hd'
      show setRm16 _ m' = _
      rw [setRm16, bind_of_ok hd'', hmem, hnarrow]
      exact congrArg (fun s => ok () (m'.setS s)) hsame

theorem grp8Op_of_changes {op : BtOp} (hop : op ≠ .bt) (imm : BitVec 8) (m : Machine D) :
    grp8Op op imm m = bitOf op imm m := by
  unfold grp8Op bitOf btAt
  simp only [if_pos hop]

theorem grp8Op_register {m : Machine D} (hmem : m.d.isMem = false) (imm : BitVec 8) :
    grp8Op .bt imm m = bitOf .bt imm m := by
  obtain ⟨v, hread, hwrite⟩ := setRmSized_read hmem m.d.w32
  have hd : getD m = .ok m.d m := rfl
  rw [grp8Op, bitOf, bind_of_ok hd, bind_of_ok hd, btAt, bind_of_ok hread, bind_of_ok hread]
  exact hwrite (m.setS (m.s.setCf _)) rfl rfl

theorem grp8Op_memory {d : Dec} (hmem : d.isMem = true) (imm : BitVec 8) :
    ∃ m : Machine Unit, Decoded d m ∧ grp8Op .bt imm m ≠ bitOf .bt imm m := by
  let M := markedMachine d 0 0x200000000 d.moff
  have hreal := markedMachine_realMode d 0 0x200000000 d.moff
  have hlin : (0#64 + d.moff.setWidth 64).toNat = d.moff.toNat := by
    rw [BitVec.zero_add, toNat_setWidth_of_le (by decide)]
  have hsize : 0 < opSize d.w32 ∧ opSize d.w32 ≤ 4 := by cases d.w32 <;> decide
  have hwatch := markedMachine_watched d 0 0x200000000 d.moff hsize
  obtain ⟨w, hread, hw⟩ := hreal.rmSized hmem d.w32
    (show (0#64 + d.moff.setWidth 64).toNat + 8 ≤ 0x200000000 by omega) (.inl rfl)
    (fun a _ ha' => if_neg fun hin => by
      change a.toNat < (0#64 + d.moff.setWidth 64).toNat + 8 at ha'
      omega)
  have hd : (getD : X86M Unit Dec) M = .ok _ _ := rfl
  refine ⟨M, rfl, fun heq => ?_⟩
  rw [grp8Op, bitOf, bind_of_ok hd, bind_of_ok hd, btAt] at heq
  change (rmSized (opSize d.w32) >>= _) _ = (rmSized (opSize d.w32) >>= _) _ at heq
  rw [bind_of_ok hread, bind_of_ok hread] at heq
  let m1 : Machine Unit := ((M.setD (RealMode.watched M (opSize d.w32) false)).setWorld w).setS
    (M.s.setCf (((BitVec.setWidth 32 (BitVec.setWidth (opSize d.w32 * 8) 0#64)) >>>
      btPos d.w32 (imm.setWidth 32)).getLsbD 0))
  have hreal1 : RealMode _ m1 := ⟨hreal.fast, hreal.cr0, hreal.a20, hw⟩
  obtain ⟨w', hstore⟩ := hreal1.setRmSized hmem d.w32 (BtOp.bt.change (BitVec.setWidth 32
    (BitVec.setWidth (opSize d.w32 * 8) 0#64)) (btPos d.w32 (imm.setWidth 32)))
  have hhit : (RealMode.watched m1 (opSize d.w32) true).watchHit = m1.d.watchHit := by
    have hsame : ok () _ = ok () m1 := hstore.symm.trans heq
    injection hsame with _ hmachine
    exact congrArg (fun m : Machine Unit => m.d.watchHit) hmachine
  have hfirst : m1.d.watchHit = 0 |||
      watchBits M.s (watches M.s (0#64 + d.moff.setWidth 64) (opSize d.w32) false) := rfl
  have hsecond : (RealMode.watched m1 (opSize d.w32) true).watchHit = m1.d.watchHit |||
      watchBits M.s (watches M.s (0#64 + d.moff.setWidth 64) (opSize d.w32) true) := rfl
  rw [hsecond, hfirst, hwatch, hwatch] at hhit
  exact absurd hhit (by decide)

/-- The immediate forms change their bit; only BT of a memory operand writes where it should only
read. -/
theorem grp8Op_eq_iff (op : BtOp) (d : Dec) (imm : BitVec 8) :
    (∀ (D : Type) (m : Machine D), Decoded d m → grp8Op op imm m = bitOf op imm m) ↔
      op ≠ .bt ∨ d.isMem = false := by
  constructor
  · intro hall
    by_cases hop : op = .bt
    · subst hop
      cases hmem : d.isMem with
      | false => exact .inr rfl
      | true =>
        obtain ⟨m, hd, hne⟩ := grp8Op_memory hmem imm
        exact absurd (hall Unit m hd) hne
    · exact .inl hop
  · rintro hcond D m hd
    by_cases hop : op = .bt
    · subst hop
      have hmem : m.d.isMem = false := by
        rw [hd]
        exact hcond.resolve_left (not_not.mpr rfl)
      exact grp8Op_register hmem imm
    · exact grp8Op_of_changes hop imm m

/-! ### All forms -/

def BtOp.after (op : BtOp) (b : Bool) : Bool :=
  match op with
  | bt => b
  | bts => true
  | btr => false
  | btc => !b

theorem BtOp.getLsbD_change (op : BtOp) (v : BitVec 32) {pos : Nat} (hpos : pos < 32) (i : Nat) :
    (op.change v pos).getLsbD i = if i = pos then op.after (v.getLsbD pos) else v.getLsbD i := by
  have hbit : (1#32 <<< pos).getLsbD i = decide (i = pos) := by
    rw [← twoPow_eq, getLsbD_twoPow, decide_eq_true hpos, Bool.true_and]
    exact decide_eq_decide.mpr eq_comm
  cases op with
  | bt =>
    split
    next hi => rw [hi]; rfl
    next => rfl
  | bts =>
    show (v ||| 1#32 <<< pos).getLsbD i = _
    rw [getLsbD_or, hbit]
    split
    next hi => rw [decide_eq_true hi, Bool.or_true]; rfl
    next hi => rw [decide_eq_false hi, Bool.or_false]
  | btr =>
    show (v &&& ~~~(1#32 <<< pos)).getLsbD i = _
    rw [getLsbD_and, getLsbD_not, hbit]
    split
    next hi => rw [decide_eq_true hi, Bool.not_true, Bool.and_false, Bool.and_false]; rfl
    next hi =>
      rw [decide_eq_false hi, Bool.not_false, Bool.and_true]
      by_cases hlt : i < 32
      · rw [decide_eq_true hlt, Bool.and_true]
      · rw [getLsbD_of_ge v i (by omega), Bool.false_and]
  | btc =>
    show (v ^^^ 1#32 <<< pos).getLsbD i = _
    rw [getLsbD_xor, hbit]
    split
    next hi => rw [decide_eq_true hi, Bool.xor_true, hi]; rfl
    next hi => rw [decide_eq_false hi, Bool.xor_false]

/-- The register forms act on the bit at `8 * address + offset` exactly when the offset is not
negative and the address does not wrap; the immediate forms read and write as they should except
for BT of a memory operand; and one bit of the operand changes. -/
theorem bit_strings_iff (op : BtOp) (d : Dec) :
    (∀ bit : BitVec 32, d.isMem = true →
      ((∀ (D : Type) (m : Machine D), Decoded d m → m.s.r d.reg = bit →
          btRegRm op m = bitString op m) ↔ WalkRight d.w32 d.a32 d.moff bit)) ∧
    (∀ imm : BitVec 8,
      (∀ (D : Type) (m : Machine D), Decoded d m → grp8Op op imm m = bitOf op imm m) ↔
        op ≠ .bt ∨ d.isMem = false) ∧
    (∀ (v : BitVec 32) (pos i : Nat), pos < 32 → (op.change v pos).getLsbD i =
      if i = pos then op.after (v.getLsbD pos) else v.getLsbD i) := by
  refine ⟨?_, ?_, ?_⟩
  · intro bit hmem
    exact btRegRm_eq_iff op bit hmem
  · intro imm
    exact grp8Op_eq_iff op d imm
  · intro v pos i hpos
    exact op.getLsbD_change v hpos i

def stringDec : Dec := { Dec.start true with isMem := true, moff := 0x1000 }

/-- BTS at offset 100 sets bit 4 of the operand at 0x100c. -/
theorem bts_hundred :
    btRegRm .bts (markedMachine stringDec 100 0 0x1000) =
        bitString .bts (markedMachine stringDec 100 0 0x1000) ∧
      grp8Op .bts 4 (markedMachine stringDec 100 0 0x1000) =
        bitOf .bts 4 (markedMachine stringDec 100 0 0x1000) ∧
      (BtOp.bts.change 0 4).getLsbD 4 = true := by
  refine ⟨?_, ?_, ?_⟩
  · exact ((bit_strings_iff .bts stringDec).1 100 rfl).mpr (by decide) Unit _ rfl rfl
  · exact ((bit_strings_iff .bts stringDec).2.1 4).mpr (.inl (by decide)) Unit _ rfl
  · exact (bit_strings_iff .bts stringDec).2.2 0 4 4 (by decide)

/-- BT at offset -1 should test the bit below 0x1000, and tests one 512 MiB above it. -/
theorem bt_minus_one :
    stringOff true true 0x1000 0xffffffff = 0xffc ∧
      (match btRegRm .bt (markedMachine stringDec 0xffffffff 0xffc 0x1000),
          bitString .bt (markedMachine stringDec 0xffffffff 0xffc 0x1000) with
        | .ok _ t, .ok _ t' => decide (t.d.mlin = 0x20000ffc) && !t.s.cf &&
          decide (t'.d.mlin = 0xffc) && t'.s.cf
        | _, _ => false) = true := by
  constructor
  · decide
  · decide +kernel

end Cemu.X86
