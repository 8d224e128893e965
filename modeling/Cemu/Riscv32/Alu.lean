import Cemu.Riscv32.Access

/-!
# riscv32: decoding and the pure part of the instruction cases

The immediates and results of the riscv32 switch at register width. The fields of an instruction
are riscv64's, and `fp.c`, which the two backends have alike, enters as the same `FpBackend`.
-/

namespace Cemu.Rv32

open Rv64 (f3 f7 rs2 FpBackend FpDest fpBinOf divSigned remSigned)

def bits {w : Nat} (i : BitVec w) (lo n : Nat) : BitVec 32 := (i.extractLsb' lo n).setWidth 32

def sext32 (v : BitVec 32) (bits : Nat) : BitVec 32 :=
  let m : BitVec 32 := 1#32 <<< (bits - 1)
  (v ^^^ m) - m

def immI (i : BitVec 32) : BitVec 32 := sext32 (bits i 20 12) 12

def immS (i : BitVec 32) : BitVec 32 := sext32 (bits i 25 7 <<< 5 ||| bits i 7 5) 12

def immB (i : BitVec 32) : BitVec 32 :=
  sext32 (bits i 31 1 <<< 12 ||| bits i 7 1 <<< 11 ||| bits i 25 6 <<< 5 ||| bits i 8 4 <<< 1) 13

def immU (i : BitVec 32) : BitVec 32 := i &&& 0xfffff000

def immJ (i : BitVec 32) : BitVec 32 :=
  sext32 (bits i 31 1 <<< 20 ||| bits i 12 8 <<< 12 ||| bits i 20 1 <<< 11 |||
    bits i 21 10 <<< 1) 21

def ofBool (b : Bool) : BitVec 32 := if b then 1 else 0

def branchTaken (f3 : BitVec 3) (a b : BitVec 32) : Option Bool :=
  match f3 with
  | 0 => some (decide (a = b))
  | 1 => some (decide (a ≠ b))
  | 4 => some (a.slt b)
  | 5 => some (b.sle a)
  | 6 => some (decide (a < b))
  | 7 => some (decide (b ≤ a))
  | _ => none

def loadKind (f3 : BitVec 3) : Option (Nat × Bool) :=
  match f3 with
  | 0 => some (1, true)
  | 1 => some (2, true)
  | 2 => some (4, true)
  | 4 => some (1, false)
  | 5 => some (2, false)
  | _ => none

def storeSize (f3 : BitVec 3) : Option Nat :=
  match f3 with
  | 0 => some 1
  | 1 => some 2
  | 2 => some 4
  | _ => none

def aluImm (i : BitVec 32) (a : BitVec 32) : Option (BitVec 32) :=
  let imm := immI i
  let shamt := (rs2 i).toNat
  match f3 i with
  | 0 => some (a + imm)
  | 2 => some (ofBool (a.slt imm))
  | 3 => some (ofBool (decide (a < imm)))
  | 4 => some (a ^^^ imm)
  | 6 => some (a ||| imm)
  | 7 => some (a &&& imm)
  | 1 => if f7 i ≠ 0 then none else some (a <<< shamt)
  | _ =>
    if f7 i ≠ 0x00 ∧ f7 i ≠ 0x20 then none
    else some (if f7 i = 0x20 then a.sshiftRight shamt else a >>> shamt)

def mulHigh (a b : BitVec 64) : BitVec 32 := ((a * b) >>> 32).setWidth 32

def aluOp (f3 : BitVec 3) (f7 : BitVec 7) (a b : BitVec 32) : Option (BitVec 32) :=
  let sh := (b &&& 31).toNat
  match f3, f7 with
  | 0, 0x00 => some (a + b)
  | 0, 0x20 => some (a - b)
  | 0, 0x01 => some (a * b)
  | 1, 0x00 => some (a <<< sh)
  | 1, 0x01 => some (mulHigh (a.signExtend 64) (b.signExtend 64))
  | 2, 0x00 => some (ofBool (a.slt b))
  | 2, 0x01 => some (mulHigh (a.signExtend 64) (b.setWidth 64))
  | 3, 0x00 => some (ofBool (decide (a < b)))
  | 3, 0x01 => some (mulHigh (a.setWidth 64) (b.setWidth 64))
  | 4, 0x00 => some (a ^^^ b)
  | 4, 0x01 => some (divSigned a b)
  | 5, 0x00 => some (a >>> sh)
  | 5, 0x20 => some (a.sshiftRight sh)
  | 5, 0x01 => some (if b = 0 then ~~~0 else a / b)
  | 6, 0x00 => some (a ||| b)
  | 6, 0x01 => some (remSigned a b)
  | 7, 0x00 => some (a &&& b)
  | 7, 0x01 => some (if b = 0 then a else a % b)
  | _, _ => none

def fpRm (s : Riscv32State) (rmField : BitVec 3) : BitVec 8 :=
  if rmField = 7 then s.frm else rmField.setWidth 8

def nanBox (v : BitVec 32) : BitVec 64 := 0xffffffff00000000 ||| v.setWidth 64

/-- The switch of `fp_op` on operands `a`, `b` and the integer operand `xa`. The conversions have
their word forms only, and the moves between a double and an integer register do not exist. -/
def fpResult (fp : FpBackend) (i : BitVec 32) (rm : BitVec 8) (a b : BitVec 64) (xa : BitVec 32) :
    Option FpDest :=
  let f3v := f3 i
  let dbl := decide (f7 i &&& 1 ≠ 0)
  let toSigned := decide (rs2 i &&& 1 = 0)
  match f7 i with
  | 0x00 | 0x01 | 0x04 | 0x05 | 0x08 | 0x09 | 0x0C | 0x0D =>
    some (.toF (fp.riscvFpBinary dbl a b (fpBinOf (f7 i)) rm))
  | 0x2C | 0x2D => if rs2 i ≠ 0 then none else some (.toF (fp.riscvFpSqrt dbl a rm))
  | 0x10 | 0x11 => if 2 < f3v then none else some (.toF ⟨fp.riscvFpSgnj dbl a b f3v, 0⟩)
  | 0x14 | 0x15 =>
    if 1 < f3v then none else some (.toF (fp.riscvFpMinMax dbl a b (decide (f3v = 1))))
  | 0x50 | 0x51 =>
    if 2 < f3v then none
    else some (.toX (fp.riscvFpCmp dbl a b
      (if f3v = 0 then .le else if f3v = 1 then .lt else .eq)))
  | 0x60 | 0x61 => if 1 < rs2 i then none else some (.toX (fp.riscvFpF2I dbl a toSigned false rm))
  | 0x68 | 0x69 =>
    if 1 < rs2 i then none
    else some (.toF (fp.riscvFpI2F dbl (xa.setWidth 64) toSigned false rm))
  | 0x20 => if rs2 i ≠ 1 then none else some (.toF (fp.riscvFpCvtSD a rm))
  | 0x21 => if rs2 i ≠ 0 then none else some (.toF (fp.riscvFpCvtDS a rm))
  | 0x70 =>
    if rs2 i ≠ 0 ∨ 1 < f3v then none
    else some (.toX ⟨if f3v = 0 then a else fp.riscvFpClass false a, 0⟩)
  | 0x71 => if rs2 i ≠ 0 ∨ f3v ≠ 1 then none else some (.toX ⟨fp.riscvFpClass true a, 0⟩)
  | 0x78 => if rs2 i ≠ 0 ∨ f3v ≠ 0 then none else some (.toF ⟨nanBox xa, 0⟩)
  | _ => none

end Cemu.Rv32
