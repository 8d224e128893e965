import Cemu.Riscv64.Access

/-!
# riscv64: decoding and the pure part of the instruction cases

The fields and immediates of a 32-bit instruction and, for each opcode that only computes,
its result as a function of the operands. `none` is the case's `illegal(fr, i)`. The
floating-point arithmetic of `fp.c` enters as `FpBackend`, one field for each entry point.
-/

namespace Cemu.Rv64

section

variable (i : BitVec 32)

def opcode : BitVec 7 := i.extractLsb' 0 7
def rd : BitVec 5 := i.extractLsb' 7 5
def f3 : BitVec 3 := i.extractLsb' 12 3
def rs1 : BitVec 5 := i.extractLsb' 15 5
def rs2 : BitVec 5 := i.extractLsb' 20 5
def rs3 : BitVec 5 := i.extractLsb' 27 5
def f7 : BitVec 7 := i.extractLsb' 25 7

end

def bits {w : Nat} (i : BitVec w) (lo n : Nat) : BitVec 64 := (i.extractLsb' lo n).setWidth 64

def immI (i : BitVec 32) : BitVec 64 := sext (bits i 20 12) 12

def immS (i : BitVec 32) : BitVec 64 := sext (bits i 25 7 <<< 5 ||| bits i 7 5) 12

def immB (i : BitVec 32) : BitVec 64 :=
  sext (bits i 31 1 <<< 12 ||| bits i 7 1 <<< 11 ||| bits i 25 6 <<< 5 ||| bits i 8 4 <<< 1) 13

def immU (i : BitVec 32) : BitVec 64 := sext (bits i 12 20 <<< 12) 32

def immJ (i : BitVec 32) : BitVec 64 :=
  sext (bits i 31 1 <<< 20 ||| bits i 12 8 <<< 12 ||| bits i 20 1 <<< 11 ||| bits i 21 10 <<< 1) 21

def ofBool (b : Bool) : BitVec 64 := if b then 1 else 0

def branchTaken (f3 : BitVec 3) (a b : BitVec 64) : Option Bool :=
  match f3 with
  | 0 => some (decide (a = b))
  | 1 => some (decide (a ≠ b))
  | 4 => some (a.slt b)
  | 5 => some (b.sle a)
  | 6 => some (decide (a < b))
  | 7 => some (decide (b ≤ a))
  | _ => none

def loadKind (f3 : BitVec 3) : Option (Nat × Bool) :=
  match f3 with
  | 0 => some (1, true)
  | 1 => some (2, true)
  | 2 => some (4, true)
  | 3 => some (8, false)
  | 4 => some (1, false)
  | 5 => some (2, false)
  | 6 => some (4, false)
  | _ => none

def storeSize (f3 : BitVec 3) : Option Nat :=
  match f3 with
  | 0 => some 1
  | 1 => some 2
  | 2 => some 4
  | 3 => some 8
  | _ => none

def aluImm (i : BitVec 32) (a : BitVec 64) : Option (BitVec 64) :=
  let imm := immI i
  let shamt := (bits i 20 5 ||| bits i 25 1 <<< 5).toNat
  match f3 i with
  | 0 => some (a + imm)
  | 2 => some (ofBool (a.slt imm))
  | 3 => some (ofBool (decide (a < imm)))
  | 4 => some (a ^^^ imm)
  | 6 => some (a ||| imm)
  | 7 => some (a &&& imm)
  | 1 => if f7 i &&& 0x7e ≠ 0 then none else some (a <<< shamt)
  | _ =>
    if f7 i &&& 0x7e ≠ 0 ∧ f7 i &&& 0x7e ≠ 0x20 then none
    else some (if bits i 30 1 ≠ 0 then a.sshiftRight shamt else a >>> shamt)

def aluImm32 (i : BitVec 32) (x : BitVec 64) : Option (BitVec 64) :=
  let a : BitVec 32 := x.setWidth 32
  let shamt := (rs2 i).toNat
  match f3 i with
  | 0 => some (sext32 (a + (immI i).setWidth 32))
  | 1 => if f7 i ≠ 0 then none else some (sext32 (a <<< shamt))
  | 5 =>
    if f7 i ≠ 0x00 ∧ f7 i ≠ 0x20 then none
    else some (sext32 (if f7 i = 0x20 then a.sshiftRight shamt else a >>> shamt))
  | _ => none

def mulHigh (a b : BitVec 128) : BitVec 64 := ((a * b) >>> 64).setWidth 64

def divSigned {w : Nat} (a b : BitVec w) : BitVec w :=
  if b = 0 then ~~~0
  else if a = BitVec.intMin w ∧ b = ~~~0 then a
  else a.sdiv b

def remSigned {w : Nat} (a b : BitVec w) : BitVec w :=
  if b = 0 then a
  else if a = BitVec.intMin w ∧ b = ~~~0 then 0
  else a.srem b

def aluOp (f3 : BitVec 3) (f7 : BitVec 7) (a b : BitVec 64) : Option (BitVec 64) :=
  let sh := (b &&& 63).toNat
  match f3, f7 with
  | 0, 0x00 => some (a + b)
  | 0, 0x20 => some (a - b)
  | 0, 0x01 => some (a * b)
  | 1, 0x00 => some (a <<< sh)
  | 1, 0x01 => some (mulHigh (a.signExtend 128) (b.signExtend 128))
  | 2, 0x00 => some (ofBool (a.slt b))
  | 2, 0x01 => some (mulHigh (a.signExtend 128) (b.setWidth 128))
  | 3, 0x00 => some (ofBool (decide (a < b)))
  | 3, 0x01 => some (mulHigh (a.setWidth 128) (b.setWidth 128))
  | 4, 0x00 => some (a ^^^ b)
  | 4, 0x01 => some (divSigned a b)
  | 5, 0x00 => some (a >>> sh)
  | 5, 0x20 => some (a.sshiftRight sh)
  | 5, 0x01 => some (if b = 0 then ~~~0 else a / b)
  | 6, 0x00 => some (a ||| b)
  | 6, 0x01 => some (remSigned a b)
  | 7, 0x00 => some (a &&& b)
  | 7, 0x01 => some (if b = 0 then a else a % b)
  | _, _ => none

def aluOp32 (f3 : BitVec 3) (f7 : BitVec 7) (x y : BitVec 64) : Option (BitVec 64) :=
  let a : BitVec 32 := x.setWidth 32
  let b : BitVec 32 := y.setWidth 32
  let sh := (b &&& 31).toNat
  match f3, f7 with
  | 0, 0x00 => some (sext32 (a + b))
  | 0, 0x20 => some (sext32 (a - b))
  | 0, 0x01 => some (sext32 (a * b))
  | 1, 0x00 => some (sext32 (a <<< sh))
  | 4, 0x01 => some (sext32 (divSigned a b))
  | 5, 0x00 => some (sext32 (a >>> sh))
  | 5, 0x20 => some (sext32 (a.sshiftRight sh))
  | 5, 0x01 => some (sext32 (if b = 0 then ~~~0 else a / b))
  | 6, 0x01 => some (sext32 (remSigned a b))
  | 7, 0x01 => some (sext32 (if b = 0 then a else a % b))
  | _, _ => none

def isAmoOp (op5 : BitVec 5) : Bool :=
  decide (op5 ∈ [0x01, 0x00, 0x04, 0x0C, 0x08, 0x10, 0x14, 0x18, (0x1C : BitVec 5)])

def amoValue {w : Nat} (op5 : BitVec 5) (old val : BitVec w) : BitVec w :=
  match op5 with
  | 0x01 => val
  | 0x00 => old + val
  | 0x04 => old ^^^ val
  | 0x0C => old &&& val
  | 0x08 => old ||| val
  | 0x10 => if old.slt val then old else val
  | 0x14 => if val.slt old then old else val
  | 0x18 => if old < val then old else val
  | _ => if val < old then old else val

def amoStored (isDouble : Bool) (op5 : BitVec 5) (old val : BitVec 64) : BitVec 64 :=
  if isDouble then amoValue op5 old val
  else (amoValue op5 (old.setWidth 32) (val.setWidth 32)).setWidth 64

/-! ### Floating point -/

structure FpOut where
  val : BitVec 64
  flags : BitVec 8

inductive FpBin where
  | add | sub | mul | div
  deriving DecidableEq, Repr

inductive FpCmp where
  | eq | lt | le
  deriving DecidableEq, Repr

/-- The entry points of `fp.c`; `dbl` picks the S or the D form. They read their arguments
only and touch `fflags` by OR only. -/
structure FpBackend where
  riscvFpBinary : (dbl : Bool) → (a b : BitVec 64) → FpBin → (rm : BitVec 8) → FpOut
  riscvFpSqrt : (dbl : Bool) → (a : BitVec 64) → (rm : BitVec 8) → FpOut
  riscvFpFma : (dbl : Bool) → (a b c : BitVec 64) → (rm : BitVec 8) → FpOut
  riscvFpMinMax : (dbl : Bool) → (a b : BitVec 64) → (isMax : Bool) → FpOut
  riscvFpCmp : (dbl : Bool) → (a b : BitVec 64) → FpCmp → FpOut
  riscvFpClass : (dbl : Bool) → (a : BitVec 64) → BitVec 64
  riscvFpSgnj : (dbl : Bool) → (a b : BitVec 64) → (kind : BitVec 3) → BitVec 64
  riscvFpF2I : (dbl : Bool) → (a : BitVec 64) → (toSigned w64 : Bool) → (rm : BitVec 8) → FpOut
  riscvFpI2F : (dbl : Bool) → (v : BitVec 64) → (fromSigned w64 : Bool) → (rm : BitVec 8) → FpOut
  riscvFpCvtSD : (a : BitVec 64) → (rm : BitVec 8) → FpOut
  riscvFpCvtDS : (a : BitVec 64) → (rm : BitVec 8) → FpOut

/-- The backend that answers zero and raises no flag, for runs that reach no arithmetic. -/
def FpBackend.idle : FpBackend where
  riscvFpBinary _ _ _ _ _ := ⟨0, 0⟩
  riscvFpSqrt _ _ _ := ⟨0, 0⟩
  riscvFpFma _ _ _ _ _ := ⟨0, 0⟩
  riscvFpMinMax _ _ _ _ := ⟨0, 0⟩
  riscvFpCmp _ _ _ _ := ⟨0, 0⟩
  riscvFpClass _ _ := 0
  riscvFpSgnj _ _ _ _ := 0
  riscvFpF2I _ _ _ _ _ := ⟨0, 0⟩
  riscvFpI2F _ _ _ _ _ := ⟨0, 0⟩
  riscvFpCvtSD _ _ := ⟨0, 0⟩
  riscvFpCvtDS _ _ := ⟨0, 0⟩

inductive FpDest where
  | toF (out : FpOut)
  | toX (out : FpOut)

def fpRm (s : RiscvState) (rmField : BitVec 3) : BitVec 8 :=
  if rmField = 7 then s.frm else rmField.setWidth 8

def fpBinOf (f7 : BitVec 7) : FpBin :=
  match f7.extractLsb' 2 2 with
  | 0 => .add
  | 1 => .sub
  | 2 => .mul
  | _ => .div

def fpResult (fp : FpBackend) (i : BitVec 32) (rm : BitVec 8) (a b xa : BitVec 64) :
    Option FpDest :=
  let f3v := f3 i
  let dbl := decide (f7 i &&& 1 ≠ 0)
  let toSigned := decide (rs2 i &&& 1 = 0)
  let w64 := decide (rs2 i &&& 2 ≠ 0)
  match f7 i with
  | 0x00 | 0x01 | 0x04 | 0x05 | 0x08 | 0x09 | 0x0C | 0x0D =>
    some (.toF (fp.riscvFpBinary dbl a b (fpBinOf (f7 i)) rm))
  | 0x2C | 0x2D => if rs2 i ≠ 0 then none else some (.toF (fp.riscvFpSqrt dbl a rm))
  | 0x10 | 0x11 => if 2 < f3v then none else some (.toF ⟨fp.riscvFpSgnj dbl a b f3v, 0⟩)
  | 0x14 | 0x15 =>
    if 1 < f3v then none else some (.toF (fp.riscvFpMinMax dbl a b (decide (f3v = 1))))
  | 0x50 | 0x51 =>
    some (.toX (fp.riscvFpCmp dbl a b (if f3v = 0 then .le else if f3v = 1 then .lt else .eq)))
  | 0x60 | 0x61 => if 3 < rs2 i then none else some (.toX (fp.riscvFpF2I dbl a toSigned w64 rm))
  | 0x68 | 0x69 => if 3 < rs2 i then none else some (.toF (fp.riscvFpI2F dbl xa toSigned w64 rm))
  | 0x20 => if rs2 i ≠ 1 then none else some (.toF (fp.riscvFpCvtSD a rm))
  | 0x21 => if rs2 i ≠ 0 then none else some (.toF (fp.riscvFpCvtDS a rm))
  | 0x70 =>
    if rs2 i ≠ 0 ∨ 1 < f3v then none
    else some (.toX ⟨if f3v = 0 then (a.setWidth 32).signExtend 64 else fp.riscvFpClass false a, 0⟩)
  | 0x71 =>
    if rs2 i ≠ 0 ∨ 1 < f3v then none
    else some (.toX ⟨if f3v = 0 then a else fp.riscvFpClass true a, 0⟩)
  | 0x78 =>
    if rs2 i ≠ 0 ∨ f3v ≠ 0 then none
    else some (.toF ⟨0xffffffff00000000 ||| (xa &&& 0xffffffff), 0⟩)
  | 0x79 => if rs2 i ≠ 0 ∨ f3v ≠ 0 then none else some (.toF ⟨xa, 0⟩)
  | _ => none

end Cemu.Rv64
