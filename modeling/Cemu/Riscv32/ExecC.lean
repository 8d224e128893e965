import Cemu.Riscv32.Exec
import Cemu.Riscv64.ExecC

/-!
# riscv32: the compressed instructions

`riscv32_exec_c` of `exec.c`, quadrant by quadrant. It is a decoder of its own: c.jal, c.flw, c.fsw,
c.flwsp and c.fswsp stand where RV64C has c.addiw and the doubleword integer forms.
-/

namespace Cemu.Rv32

open Rv64 (raiseTrap creg crd crs2 cf3 kExBreakpoint)

variable {D : Type}

section

variable (i : BitVec 16)

def cimm4spn : BitVec 32 :=
  bits i 11 2 <<< 4 ||| bits i 7 4 <<< 6 ||| bits i 6 1 <<< 2 ||| bits i 5 1 <<< 3

def cimmD : BitVec 32 := bits i 10 3 <<< 3 ||| bits i 5 2 <<< 6

def cimmW : BitVec 32 :=
  bits i 10 3 <<< 3 ||| bits i 6 1 <<< 2 ||| bits i 5 1 <<< 6

def cimm6 : BitVec 32 := sext32 (bits i 12 1 <<< 5 ||| bits i 2 5) 6

def cimm16sp : BitVec 32 :=
  sext32 (bits i 12 1 <<< 9 ||| bits i 6 1 <<< 4 ||| bits i 5 1 <<< 6 ||| bits i 3 2 <<< 7 |||
    bits i 2 1 <<< 5) 10

def cimmLui : BitVec 32 := sext32 (bits i 12 1 <<< 17 ||| bits i 2 5 <<< 12) 18

def cimmJ : BitVec 32 :=
  sext32 (bits i 12 1 <<< 11 ||| bits i 11 1 <<< 4 ||| bits i 9 2 <<< 8 ||| bits i 8 1 <<< 10 |||
    bits i 7 1 <<< 6 ||| bits i 6 1 <<< 7 ||| bits i 3 3 <<< 1 ||| bits i 2 1 <<< 5) 12

def cimmB : BitVec 32 :=
  sext32 (bits i 12 1 <<< 8 ||| bits i 10 2 <<< 3 ||| bits i 5 2 <<< 6 ||| bits i 3 2 <<< 1 |||
    bits i 2 1 <<< 5) 9

def cimmLdsp : BitVec 32 :=
  bits i 12 1 <<< 5 ||| bits i 5 2 <<< 3 ||| bits i 2 3 <<< 6

def cimmLwsp : BitVec 32 :=
  bits i 12 1 <<< 5 ||| bits i 4 3 <<< 2 ||| bits i 2 2 <<< 6

def cimmSdsp : BitVec 32 := bits i 10 3 <<< 3 ||| bits i 7 3 <<< 6

def cimmSwsp : BitVec 32 := bits i 9 4 <<< 2 ||| bits i 7 2 <<< 6

end

def cIllegal {α : Type} (i : BitVec 16) : RvM D α := illegal (i.setWidth 64)

def updX (r : BitVec 5) (g : BitVec 32 → BitVec 32) : RvM D Unit := do
  let v ← getX r
  setX r (g v)

def updX2 (r r' : BitVec 5) (g : BitVec 32 → BitVec 32 → BitVec 32) : RvM D Unit := do
  let a ← getX r
  let b ← getX r'
  setX r (g a b)

section

variable (r base : BitVec 5) (imm : BitVec 32)

def cLoad : RvM D Unit := do
  let a ← getX base
  let v ← load32 (a + imm) 4 true
  setX r v

def cStore : RvM D Unit := do
  let a ← getX base
  let v ← getX r
  riscv32MemStore ((a + imm).setWidth 64) 4 (v.setWidth 64)

def cLoadF (isDouble : Bool) : RvM D Unit := do
  let a ← getX base
  let v ← riscv32MemLoad ((a + imm).setWidth 64) (Rv64.accessWidth isDouble) .read
  setF r (fpBox isDouble v)

def cStoreF (isDouble : Bool) : RvM D Unit := do
  let a ← getX base
  let v ← getF r
  riscv32MemStore ((a + imm).setWidth 64) (Rv64.accessWidth isDouble) v

end

section

variable (i : BitVec 16)

def cFp (body : RvM D Unit) : RvM D Unit := do
  fpEnter (i.setWidth 64)
  body

def quadrant0 : RvM D Unit :=
  match cf3 i with
  | 0 =>
    if cimm4spn i = 0 then cIllegal i
    else do
      let sp ← getX 2
      setX (creg i 2) (sp + cimm4spn i)
  | 1 => cFp i (cLoadF (creg i 2) (creg i 7) (cimmD i) true)
  | 2 => cLoad (creg i 2) (creg i 7) (cimmW i)
  | 3 => cFp i (cLoadF (creg i 2) (creg i 7) (cimmW i) false)
  | 5 => cFp i (cStoreF (creg i 2) (creg i 7) (cimmD i) true)
  | 6 => cStore (creg i 2) (creg i 7) (cimmW i)
  | 7 => cFp i (cStoreF (creg i 2) (creg i 7) (cimmW i) false)
  | _ => cIllegal i

/-- `f3 = 4` of quadrant 1: shifts, c.andi and the register-register forms. Bit 12 is reserved in
all but c.andi. -/
def quadrant1Alu : RvM D Unit :=
  let rdq := creg i 7
  let rs2q := creg i 2
  let shamt := (crs2 i).toNat
  let sub : BitVec 2 := i.extractLsb' 10 2
  if sub = 0 ∨ sub = 1 then
    if bits i 12 1 ≠ 0 then cIllegal i
    else if shamt = 0 then pure ()
    else updX rdq fun v => if sub = 0 then v >>> shamt else v.sshiftRight shamt
  else if sub = 2 then updX rdq fun v => v &&& cimm6 i
  else if bits i 12 1 ≠ 0 then cIllegal i
  else
    match i.extractLsb' 5 2 with
    | 0 => updX2 rdq rs2q fun a b => a - b
    | 1 => updX2 rdq rs2q fun a b => a ^^^ b
    | 2 => updX2 rdq rs2q fun a b => a ||| b
    | _ => updX2 rdq rs2q fun a b => a &&& b

def cBranch (onZero : Bool) : RvM D (BitVec 64) := do
  let v ← getX (creg i 7)
  let pc ← getPc
  if decide (v = 0) = onZero then pure ((pc + cimmB i).setWidth 64)
  else pure ((pc + 2).setWidth 64)

def quadrant1 : RvM D (BitVec 64) :=
  match cf3 i with
  | 0 => thenFall 2 (if crd i = 0 then pure () else updX (crd i) fun v => v + cimm6 i)
  | 1 => do
    let pc ← getPc
    setX 1 (pc + 2)
    pure ((pc + cimmJ i).setWidth 64)
  | 2 => thenFall 2 (setX (crd i) (cimm6 i))
  | 3 => thenFall 2 (if crd i = 2 then updX 2 fun v => v + cimm16sp i
      else if crd i ≠ 0 ∧ cimmLui i ≠ 0 then setX (crd i) (cimmLui i)
      else pure ())
  | 4 => thenFall 2 (quadrant1Alu i)
  | 5 => do
    let pc ← getPc
    pure ((pc + cimmJ i).setWidth 64)
  | 6 => cBranch i true
  | _ => cBranch i false

def quadrant2Jump : RvM D (BitVec 64) :=
  if bits i 12 1 = 0 then
    if crs2 i = 0 then
      if crd i = 0 then cIllegal i
      else do
        let v ← getX (crd i)
        pure ((v &&& ~~~1).setWidth 64)
    else thenFall 2 (if crd i = 0 then pure () else do
      let v ← getX (crs2 i)
      setX (crd i) v)
  else if crs2 i = 0 then
    if crd i = 0 then do
      let pc ← getPc
      raiseTrap kExBreakpoint (pc.setWidth 64)
    else do
      let pc ← getPc
      let v ← getX (crd i)
      setX 1 (pc + 2)
      pure ((v &&& ~~~1).setWidth 64)
  else thenFall 2 (if crd i = 0 then pure () else updX2 (crd i) (crs2 i) fun a b => a + b)

def quadrant2 : RvM D (BitVec 64) :=
  match cf3 i with
  | 0 => thenFall 2 (if bits i 12 1 ≠ 0 then cIllegal i
      else if crd i = 0 ∨ crs2 i = 0 then pure ()
      else updX (crd i) fun v => v <<< (crs2 i).toNat)
  -- the double stack forms skip register 0, the single load calls it illegal
  | 1 => thenFall 2 (cFp i (if crd i = 0 then pure ()
      else cLoadF (crd i) 2 (cimmLdsp i) true))
  | 2 => thenFall 2 (if crd i = 0 then cIllegal i else cLoad (crd i) 2 (cimmLwsp i))
  | 3 => thenFall 2 (if crd i = 0 then cIllegal i
      else cFp i (cLoadF (crd i) 2 (cimmLwsp i) false))
  | 4 => quadrant2Jump i
  | 5 => thenFall 2 (cFp i (if crs2 i = 0 then pure ()
      else cStoreF (crs2 i) 2 (cimmSdsp i) true))
  | 6 => thenFall 2 (cStore (crs2 i) 2 (cimmSwsp i))
  | _ => thenFall 2 (cFp i (cStoreF (crs2 i) 2 (cimmSwsp i) false))

def riscv32ExecC : RvM D (BitVec 64) :=
  match i.extractLsb' 0 2 with
  | 0 => thenFall 2 (quadrant0 i)
  | 1 => quadrant1 i
  | _ => quadrant2 i

end

end Cemu.Rv32
