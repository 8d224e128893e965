import Cemu.X86.String

/-!
# x86: the arithmetic opcodes

ADD, OR, ADC, SBB, AND, SUB, XOR and CMP in their six direct forms and in GRP1, and CMPXCHG. The
direct forms store before they set the flags, GRP1 and CMPXCHG the other way round.
-/

namespace Cemu.X86

variable {D : Type}

def flagsAdd (s : X86State) (a b r : BitVec 32) (size cin : Nat) : X86State :=
  s.putArith (szpBits r size |||
    flagIf (decide ((vmask size).toNat <
      (a &&& vmask size).toNat + (b &&& vmask size).toNat + cin)) kFlagCf |||
    flagIf ((a ^^^ b ^^^ r).getLsbD 4) kFlagAf |||
    flagIf ((~~~(a ^^^ b) &&& (a ^^^ r)).getLsbD (size * 8 - 1)) kFlagOf)

/-! ### The operations -/

inductive AluOp where
  | add
  | or
  | adc
  | sbb
  | and
  | sub
  | xor
  | cmp
  deriving DecidableEq, Repr

namespace AluOp

def ofReg (reg : Reg) : AluOp :=
  match reg.toNat with
  | 0 => add
  | 1 => or
  | 2 => adc
  | 3 => sbb
  | 4 => and
  | 5 => sub
  | 6 => xor
  | _ => cmp

def math (op : AluOp) (a b : BitVec 32) (size : Nat) (carry : Bool) : BitVec 32 :=
  match op with
  | add => (a + b) &&& vmask size
  | adc => (a + b + BitVec.ofNat 32 carry.toNat) &&& vmask size
  | sub | cmp => (a - b) &&& vmask size
  | sbb => (a - b - BitVec.ofNat 32 carry.toNat) &&& vmask size
  | or => a ||| b
  | and => a &&& b
  | xor => a ^^^ b

def flags (op : AluOp) (a b r : BitVec 32) (size : Nat) (carry : Bool) (s : X86State) : X86State :=
  match op with
  | add => flagsAdd s a b r size 0
  | adc => flagsAdd s a b r size carry.toNat
  | sub | cmp => flagsSub s a b r size 0
  | sbb => flagsSub s a b r size carry.toNat
  | or | and | xor => flagsLogic s r size

end AluOp

def grp1Math (op : AluOp) (a b : BitVec 32) (size : Nat) : X86M D (BitVec 32) := do
  let s ← getS
  let r := op.math a b size s.cf
  modS (op.flags a b r size s.cf)
  pure r

/-! ### The reg operand -/

def regSized (size : Nat) : X86M D (BitVec 32) := do
  let d ← getD
  let s ← getS
  pure (if size = 1 then (s.byteReg d.reg).setWidth 32
    else if size = 2 then (s.x d.reg).setWidth 32
    else s.r d.reg)

def regOperand (size : Nat) (m : Machine D) : BitVec 32 :=
  if size = 1 then (m.s.byteReg m.d.reg).setWidth 32
  else if size = 2 then (m.s.x m.d.reg).setWidth 32
  else m.s.r m.d.reg

theorem regSized_eq (size : Nat) (m : Machine D) :
    regSized size m = .ok (regOperand size m) m := rfl

def setRegSized (size : Nat) (v : BitVec 32) : X86M D Unit := do
  let d ← getD
  modS fun s => if size = 1 then s.setByteReg d.reg (v.setWidth 8)
    else if size = 2 then s.setX d.reg (v.setWidth 16)
    else s.setE d.reg v

/-! ### The direct forms -/

inductive AluForm where
  | rmReg
  | regRm
  | accImm
  deriving DecidableEq, Repr

def aluOperands (form : AluForm) (size : Nat) : X86M D (BitVec 32 × BitVec 32) :=
  match form with
  | .rmReg => do
    let a ← rmSized size
    let b ← regSized size
    pure (a, b)
  | .regRm => do
    let a ← regSized size
    let b ← rmSized size
    pure (a, b)
  | .accImm => do
    let s ← getS
    let b ← immSized size
    pure (s.acc size, b)

def aluWrite (form : AluForm) (size : Nat) (r : BitVec 32) : X86M D Unit :=
  match form with
  | .rmReg => setRmSized size r
  | .regRm => setRegSized size r
  | .accImm => modS fun s => s.setAcc size r

/-- A direct form behind its `modrm()`. The word forms read CF before the operands and the byte
forms after them; no operand changes it. -/
def aluOp (op : AluOp) (form : AluForm) (size : Nat) : X86M D Unit := do
  let s ← getS
  let v ← aluOperands form size
  let r := op.math v.1 v.2 size s.cf
  if op ≠ .cmp then
    aluWrite form size r
    modS (op.flags v.1 v.2 r size s.cf)
  else modS (op.flags v.1 v.2 r size s.cf)

/-- The operation, the form and the width of an opcode below 0x40; the last two of each eight are
other instructions. -/
def aluOf (op : BitVec 8) : Option (AluOp × AluForm × Bool) :=
  let pick := AluOp.ofReg ((op >>> 3).setWidth 3)
  if 0x40 ≤ op then none
  else match (op &&& 7).toNat with
    | 0 => some (pick, .rmReg, false)
    | 1 => some (pick, .rmReg, true)
    | 2 => some (pick, .regRm, false)
    | 3 => some (pick, .regRm, true)
    | 4 => some (pick, .accImm, false)
    | 5 => some (pick, .accImm, true)
    | _ => none

def formSize (wide : Bool) (d : Dec) : Nat := if wide then opSize d.w32 else 1

/-! ### GRP1 -/

inductive Grp1Imm where
  | full
  | sext
  | byte
  deriving DecidableEq, Repr

def grp1Src (form : Grp1Imm) : X86M D (BitVec 32) :=
  match form with
  | .sext => do
    let v ← fetch8
    pure (v.signExtend 32)
  | .byte => do
    let v ← fetch8
    pure (v.setWidth 32)
  | .full => do
    let d ← getD
    if d.w32 then fetch32 else fetchDisp16

def grp1Operands (size : Nat) (form : Grp1Imm) : X86M D (BitVec 32 × BitVec 32) := do
  let src ← grp1Src form
  let a ← rmSized size
  pure (a, src &&& vmask size)

def grp1Op (size : Nat) (form : Grp1Imm) : X86M D Unit := do
  let d ← getD
  let v ← grp1Operands size form
  let r ← grp1Math (AluOp.ofReg d.reg) v.1 v.2 size
  if d.reg ≠ 7 then setRmSized size r else pure ()

/-! ### CMPXCHG -/

def cmpxchgOp (size : Nat) : X86M D Unit := do
  let dst ← rmSized size
  let s ← getS
  -- the difference is taken the other way round than the flags describe it
  let r := (dst - s.acc size) &&& vmask size
  modS fun t => flagsSub t (s.acc size) dst r size 0
  if r = 0 then
    let v ← regSized size
    setRmSized size v
  else modS fun t => t.setAcc size dst

end Cemu.X86
