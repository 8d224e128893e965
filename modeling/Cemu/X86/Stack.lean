import Cemu.Lib.BitMask
import Cemu.X86.String

/-!
# x86: instructions on the stack

The pops and peeks of `exec.c`, its near transfers and the frames of ENTER and LEAVE. A stack
pointer is seen at one of two widths, and so is a register operand: `part` and `withPart` are
the two views, used at the width of the stack segment and at the width of the operand.
-/

namespace Cemu.X86

open RaiseM BitVec X86State

variable {D : Type}

/-! ### A register at one of two widths -/

/-- A register seen at one of the widths. -/
def part (wide : Bool) (v : BitVec 32) : BitVec 32 := if wide then v else v &&& 0xffff

/-- A register written at one of the widths; a narrow write keeps its upper half. -/
def withPart (wide : Bool) (old v : BitVec 32) : BitVec 32 :=
  if wide then v else old &&& 0xffff0000 ||| v &&& 0xffff

@[simp] theorem part_true (v : BitVec 32) : part true v = v := rfl

@[simp] theorem withPart_true (old v : BitVec 32) : withPart true old v = v := rfl

theorem toNat_part_false (v : BitVec 32) : (part false v).toNat = v.toNat % 65536 := by
  have hmask : (0xffff#32).toNat = 2 ^ 16 - 1 := rfl
  show (v &&& 0xffff#32).toNat = _
  rw [toNat_and, hmask, Nat.and_two_pow_sub_one_eq_mod]

private theorem toNat_upper (v : BitVec 32) :
    (v &&& 0xffff0000#32).toNat = (v.toNat / 65536) <<< 16 := by
  have hmask : (0xffff0000#32) = 0xffff#32 <<< 16 := rfl
  have hfield : (v >>> 16 &&& 0xffff#32).toNat = v.toNat / 65536 := by
    have hones : (0xffff#32).toNat = 2 ^ 16 - 1 := rfl
    rw [toNat_and, hones, Nat.and_two_pow_sub_one_eq_mod, toNat_ushiftRight,
      Nat.shiftRight_eq_div_pow]
    omega
  rw [hmask, BitMask.and_shiftLeft, toNat_shiftLeft]
  omega

theorem toNat_withPart_false (old v : BitVec 32) :
    (withPart false old v).toNat = old.toNat / 65536 * 65536 + v.toNat % 65536 := by
  have hlow : (v &&& 0xffff#32).toNat = v.toNat % 65536 := toNat_part_false v
  show (old &&& 0xffff0000#32 ||| v &&& 0xffff#32).toNat = _
  rw [toNat_or, toNat_upper, hlow, ← Nat.shiftLeft_add_eq_or_of_lt (by omega), Nat.shiftLeft_eq]

theorem setWidth_low_half (v : BitVec 32) : (v.setWidth 16).setWidth 32 = part false v := by
  apply eq_of_toNat_eq
  rw [toNat_part_false, toNat_setWidth, toNat_setWidth]
  omega

section

variable (s : X86State) (wide : Bool) (i : Reg)

theorem sized_eq_part :
    s.sized wide i = part wide (s.r i) := by
  cases wide
  · exact setWidth_low_half (s.r i)
  · rfl

theorem r_setSized_same (v : BitVec 32) :
    (s.setSized wide i v).r i = withPart wide (s.r i) v := by
  cases wide
  · show (s.setX i (v.setWidth 16)).r i = _
    rw [setX, r_setE_same, setWidth_low_half]
    rfl
  · exact r_setE_same ..

theorem setSized_regs (v : BitVec 32) :
    s.setSized wide i v = { s with r := (s.setSized wide i v).r } := by
  cases wide <;> rfl

theorem seg_setSized (v : BitVec 32) :
    (s.setSized wide i v).seg = s.seg := by
  cases wide <;> rfl

end

/-! ### Pops and peeks -/

def rdStack (size : Nat) (lin : BitVec 64) : X86M D (BitVec 32) :=
  if size = 4 then rd32 lin else do
    let v ← rd16 lin
    pure (v.setWidth 32)

/-- The offset `bytes` above the top of the stack. -/
def peekOff (s : X86State) (bytes : BitVec 32) : BitVec 32 :=
  let off := s.r espI + bytes
  if (s.seg .ss).dbit then off else off &&& 0xffff

def popEsp (s : X86State) (bytes : BitVec 32) : BitVec 32 :=
  let esp := s.r espI + bytes
  if (s.seg .ss).dbit then esp else s.r espI &&& 0xffff0000 ||| esp &&& 0xffff

def stackPop (size : Nat) : X86M D (BitVec 32) := do
  let s ← getS
  let off := peekOff s 0
  segUse .ss off size false
  watchData (linOf s .ss off) size false
  let v ← rdStack size (linOf s .ss off)
  modS fun s => s.setE espI (popEsp s (BitVec.ofNat 32 size))
  pure v

/-- Reads the stack without popping. -/
def stackPeek (size : Nat) (bytes : BitVec 32) : X86M D (BitVec 32) := do
  let s ← getS
  let off := peekOff s bytes
  segUse .ss off size false
  rdStack size (linOf s .ss off)

def pushW (v : BitVec 32) : X86M D Unit := do
  let d ← getD
  stackPush (opSize d.w32) v

def popW : X86M D (BitVec 32) := do
  let d ← getD
  stackPop (opSize d.w32)

/-! ### Instructions -/

def setEip (v : BitVec 32) : X86M D Unit := RaiseM.modify fun m =>
  { m with eip := v, d := { m.d with eipSet := true } }

def nextPc : X86M D (BitVec 32) := fun m => .ok (m.recPc + m.d.nxt) m

def popReg (i : Reg) : X86M D Unit := do
  let d ← getD
  let v ← popW
  modS fun s => s.setSized d.w32 i v

/-- POP to memory computes an ESP-based address after the pop. -/
def Dec.readdress (d : Dec) (s : X86State) : Dec :=
  if d.isMem && d.mEspBase then
    let moff := d.moff + BitVec.ofNat 32 (opSize d.w32)
    { d with moff := moff, mlin := linOf s d.mseg moff }
  else d

def popRm : X86M D Unit := do
  let v ← popW
  let s ← getS
  modD fun d => d.readdress s
  let d ← getD
  setRmSized (opSize d.w32) v

/-- POPA drops the saved ESP. -/
def popInto (w32 : Bool) (i : Reg) (v : BitVec 32) : X86M D Unit :=
  if i = espI then pure () else modS fun s => s.setSized w32 i v

def popAll (w32 : Bool) : List Reg → X86M D Unit
  | [] => pure ()
  | i :: rest => do
    let v ← stackPop (opSize w32)
    popInto w32 i v
    popAll w32 rest

def popa : X86M D Unit := do
  let d ← getD
  popAll d.w32 [ediI, esiI, ebpI, espI, ebxI, edxI, ecxI, eaxI]

def callRel (rel : BitVec 32) : X86M D Unit := do
  let next ← nextPc
  pushW next
  modD fun d => { d with nxt := d.nxt + rel }

def rmW : X86M D (BitVec 32) := do
  let d ← getD
  if d.w32 then rm32 else do
    let v ← rm16
    pure (v.setWidth 32)

def callRm : X86M D Unit := do
  let t ← rmW
  let next ← nextPc
  pushW next
  setEip t

def ret : X86M D Unit := do
  let t ← popW
  setEip t

def releaseParams (n : BitVec 16) : X86M D Unit := do
  let d ← getD
  modS fun s => s.setSized d.w32 espI (s.sized d.w32 espI + n.setWidth 32)

def retImm (n : BitVec 16) : X86M D Unit := do
  let t ← popW
  setEip t
  releaseParams n

/-- ENTER copies the frame pointers of the enclosing levels. -/
def enterDisplay (w32 : Bool) : Nat → X86M D Unit
  | 0 => pure ()
  | k + 1 => do
    modS fun s => s.setSized w32 ebpI (s.sized w32 ebpI - BitVec.ofNat 32 (opSize w32))
    modS fun s => s.setSized w32 espI (s.sized w32 ebpI)
    let s ← getS
    segUse .ss (s.sized w32 espI) (opSize w32) false
    let v ← rdStack (opSize w32) (linOf s .ss (s.sized w32 espI))
    stackPush (opSize w32) v
    enterDisplay w32 k

def enterLink (w32 : Bool) (level : Nat) (frame : BitVec 32) : X86M D Unit :=
  if 0 < level then do
    enterDisplay w32 (level - 1)
    pushW frame
  else pure ()

def enter (alloc : BitVec 16) (level : Nat) : X86M D Unit := do
  let d ← getD
  let s ← getS
  pushW (s.sized d.w32 ebpI)
  let s ← getS
  let frame := s.sized d.w32 espI
  enterLink d.w32 level frame
  modS fun s => s.setSized d.w32 ebpI frame
  modS fun s => s.setSized d.w32 espI (s.sized d.w32 espI - alloc.setWidth 32)

def leave : X86M D Unit := do
  let d ← getD
  modS fun s => s.setSized d.w32 espI (s.sized d.w32 ebpI)
  let v ← popW
  modS fun s => s.setSized d.w32 ebpI v

/-! ### What a push and a pop do to the stack pointer -/

def X86State.stackWide (s : X86State) : Bool := (s.seg .ss).dbit

theorem pushOff_eq (s : X86State) (size : Nat) :
    pushOff s size = part s.stackWide (s.r espI - .ofNat 32 size) := rfl

theorem pushEsp_eq (s : X86State) (size : Nat) :
    pushEsp s (pushOff s size) = withPart s.stackWide (s.r espI) (s.r espI - .ofNat 32 size) := by
  unfold pushEsp pushOff withPart stackWide
  split <;> rfl

theorem popEsp_eq (s : X86State) (bytes : BitVec 32) :
    popEsp s bytes = withPart s.stackWide (s.r espI) (s.r espI + bytes) := rfl

namespace MemFrame

theorem rdStack {size : Nat} {lin : BitVec 64} :
    Quiet MemFrame (rdStack size lin : X86M D (BitVec 32)) :=
  ite rd32 (bind rd16 fun _ => pure _)

theorem wrStack {size : Nat} {lin : BitVec 64} {v : BitVec 32} :
    Quiet MemFrame (wrStack size lin v : X86M D Unit) := ite busStore busStore

theorem stackPeek {size : Nat} {bytes : BitVec 32} :
    Quiet MemFrame (stackPeek size bytes : X86M D (BitVec 32)) :=
  bind getS fun _ => bind segUse fun _ => rdStack

theorem stackWide {m m' : Machine D} (h : MemFrame m m') : m'.s.stackWide = m.s.stackWide := by
  rw [X86State.stackWide, h.seg]
  rfl

end MemFrame

/-- A push that returns has moved ESP at the width of the stack segment. -/
theorem stackPush_returns {size : Nat} {v : BitVec 32} {m m' : Machine D}
    (h : stackPush size v m = .ok () m') :
    ∃ m1, (do
        segUse .ss (pushOff m.s size) size true
        watchData (linOf m.s .ss (pushOff m.s size)) size true
        wrStack size (linOf m.s .ss (pushOff m.s size)) v : X86M D Unit) m = .ok () m1 ∧
      MemFrame m m1 ∧
      m' = m1.setS (m1.s.setE espI (withPart m.s.stackWide (m.s.r espI)
        (m.s.r espI - .ofNat 32 size))) := by
  obtain ⟨_, m1, huse, h⟩ := bind_eq_ok (show ((segUse .ss (pushOff m.s size) size true :
    X86M D Unit) >>= _) m = _ from h)
  obtain ⟨_, m2, hwatch, h⟩ := bind_eq_ok h
  obtain ⟨_, m3, hwr, h⟩ := bind_eq_ok h
  have hframe : MemFrame m m3 := ((MemFrame.segUse.of_ok huse).trans
    (MemFrame.watchData.of_ok hwatch)).trans (MemFrame.wrStack.of_ok hwr)
  refine ⟨m3, ?_, hframe, ?_⟩
  · exact (bind_of_ok huse _).trans ((bind_of_ok hwatch _).trans hwr)
  · have hesp : pushEsp m3.s (pushOff m.s size) = pushEsp m.s (pushOff m.s size) := by
      rw [pushEsp, pushEsp, hframe.seg, hframe.r]
    cases h
    show m3.setS (m3.s.setE espI (pushEsp m3.s (pushOff m.s size))) = _
    rw [hesp, pushEsp_eq]

theorem stackPop_returns {size : Nat} {v : BitVec 32} {m m' : Machine D}
    (h : stackPop size m = .ok v m') :
    ∃ m1, (do
        segUse .ss (peekOff m.s 0) size false
        watchData (linOf m.s .ss (peekOff m.s 0)) size false
        rdStack size (linOf m.s .ss (peekOff m.s 0)) : X86M D (BitVec 32)) m = .ok v m1 ∧
      MemFrame m m1 ∧
      m' = m1.setS (m1.s.setE espI (withPart m.s.stackWide (m.s.r espI)
        (m.s.r espI + .ofNat 32 size))) := by
  obtain ⟨_, m1, huse, h⟩ := bind_eq_ok (show ((segUse .ss (peekOff m.s 0) size false :
    X86M D Unit) >>= _) m = _ from h)
  obtain ⟨_, m2, hwatch, h⟩ := bind_eq_ok h
  obtain ⟨w, m3, hrd, h⟩ := bind_eq_ok h
  have hframe : MemFrame m m3 := ((MemFrame.segUse.of_ok huse).trans
    (MemFrame.watchData.of_ok hwatch)).trans (MemFrame.rdStack.of_ok hrd)
  have hesp : popEsp m3.s (.ofNat 32 size) = popEsp m.s (.ofNat 32 size) := by
    rw [popEsp, popEsp, hframe.seg, hframe.r]
  cases h
  refine ⟨m3, ?_, hframe, ?_⟩
  · exact (bind_of_ok huse _).trans ((bind_of_ok hwatch _).trans hrd)
  · show m3.setS (m3.s.setE espI (popEsp m3.s (.ofNat 32 size))) = _
    rw [hesp, popEsp_eq]

end Cemu.X86
