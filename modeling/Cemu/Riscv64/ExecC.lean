import Cemu.Riscv64.Exec

/-!
# riscv64: the compressed instructions

`riscv_exec_c` of `exec.c`, quadrant by quadrant. Every case is a second implementation
with its own immediate bits and register subset, and is kept as the source writes it.
-/

namespace Cemu.Rv64

variable {D : Type}

section

variable (i : BitVec 16)

/-- A three-bit field names `x8` to `x15`. -/
def creg (lo : Nat) : BitVec 5 := 8 + (i.extractLsb' lo 3).setWidth 5

def crd : BitVec 5 := i.extractLsb' 7 5

def crs2 : BitVec 5 := i.extractLsb' 2 5

def cf3 : BitVec 3 := i.extractLsb' 13 3

def cimm4spn : BitVec 64 :=
  bits i 11 2 <<< 4 ||| bits i 7 4 <<< 6 ||| bits i 6 1 <<< 2 ||| bits i 5 1 <<< 3

def cimmD : BitVec 64 := bits i 10 3 <<< 3 ||| bits i 5 2 <<< 6

def cimmW : BitVec 64 :=
  bits i 10 3 <<< 3 ||| bits i 6 1 <<< 2 ||| bits i 5 1 <<< 6

/-- The six-bit immediate of C.ADDI and its like. -/
def cimm6 : BitVec 64 := sext (bits i 12 1 <<< 5 ||| bits i 2 5) 6

def cimm16sp : BitVec 64 :=
  sext (bits i 12 1 <<< 9 ||| bits i 6 1 <<< 4 ||| bits i 5 1 <<< 6 ||| bits i 3 2 <<< 7 |||
    bits i 2 1 <<< 5) 10

def cimmLui : BitVec 64 := sext (bits i 12 1 <<< 17 ||| bits i 2 5 <<< 12) 18

def cshamt : BitVec 64 := bits i 12 1 <<< 5 ||| bits i 2 5

def cimmJ : BitVec 64 :=
  sext (bits i 12 1 <<< 11 ||| bits i 11 1 <<< 4 ||| bits i 9 2 <<< 8 ||| bits i 8 1 <<< 10 |||
    bits i 7 1 <<< 6 ||| bits i 6 1 <<< 7 ||| bits i 3 3 <<< 1 ||| bits i 2 1 <<< 5) 12

def cimmB : BitVec 64 :=
  sext (bits i 12 1 <<< 8 ||| bits i 10 2 <<< 3 ||| bits i 5 2 <<< 6 ||| bits i 3 2 <<< 1 |||
    bits i 2 1 <<< 5) 9

def cimmLdsp : BitVec 64 :=
  bits i 12 1 <<< 5 ||| bits i 5 2 <<< 3 ||| bits i 2 3 <<< 6

def cimmLwsp : BitVec 64 :=
  bits i 12 1 <<< 5 ||| bits i 4 3 <<< 2 ||| bits i 2 2 <<< 6

def cimmSdsp : BitVec 64 := bits i 10 3 <<< 3 ||| bits i 7 3 <<< 6

def cimmSwsp : BitVec 64 := bits i 9 4 <<< 2 ||| bits i 7 2 <<< 6

end

def cIllegal {α : Type} (i : BitVec 16) : RvM D α := illegal (i.setWidth 64)

def updX (r : BitVec 5) (g : BitVec 64 → BitVec 64) : RvM D Unit := do
  let v ← getX r
  setX r (g v)

def updX2 (r r' : BitVec 5) (g : BitVec 64 → BitVec 64 → BitVec 64) : RvM D Unit := do
  let a ← getX r
  let b ← getX r'
  setX r (g a b)

section

variable (r base : BitVec 5) (imm : BitVec 64)

/-- A load with the address in `base`. -/
def cLoad (size : Nat) (sextW : Bool) : RvM D Unit := do
  let a ← getX base
  let v ← load (a + imm) size sextW
  setX r v

def cStore (size : Nat) : RvM D Unit := do
  let a ← getX base
  let v ← getX r
  riscvMemStore (a + imm) size v

def cLoadF : RvM D Unit := do
  let a ← getX base
  let v ← riscvMemLoad (a + imm) 8 .read
  setF r v

def cStoreF : RvM D Unit := do
  let a ← getX base
  let v ← getF r
  riscvMemStore (a + imm) 8 v

end

section

variable (i : BitVec 16)

/-- Loads and stores with three-bit registers, and C.ADDI4SPN. -/
def quadrant0 : RvM D Unit :=
  match cf3 i with
  | 0 =>
    if cimm4spn i = 0 then cIllegal i
    else do
      let sp ← getX 2
      setX (creg i 2) (sp + cimm4spn i)
  | 1 => do
    fpEnter (i.setWidth 64)
    cLoadF (creg i 2) (creg i 7) (cimmD i)
  | 2 => cLoad (creg i 2) (creg i 7) (cimmW i) 4 true
  | 3 => cLoad (creg i 2) (creg i 7) (cimmD i) 8 false
  | 5 => do
    fpEnter (i.setWidth 64)
    cStoreF (creg i 2) (creg i 7) (cimmD i)
  | 6 => cStore (creg i 2) (creg i 7) (cimmW i) 4
  | 7 => cStore (creg i 2) (creg i 7) (cimmD i) 8
  | _ => cIllegal i

/-- C.SRLI to C.ADDW. -/
def quadrant1Alu : RvM D Unit :=
  let rdq := creg i 7
  let rs2q := creg i 2
  match i.extractLsb' 10 2 with
  | 0 => if cshamt i = 0 then pure () else updX rdq fun v => v >>> (cshamt i).toNat
  | 1 => if cshamt i = 0 then pure () else updX rdq fun v => v.sshiftRight (cshamt i).toNat
  | 2 => updX rdq fun v => v &&& cimm6 i
  | _ =>
    if bits i 12 1 ≠ 0 then
      match i.extractLsb' 5 2 with
      | 0 => updX2 rdq rs2q fun a b => sext32 ((a - b).setWidth 32)
      | 1 => updX2 rdq rs2q fun a b => sext32 ((a + b).setWidth 32)
      | _ => cIllegal i
    else
      match i.extractLsb' 5 2 with
      | 0 => updX2 rdq rs2q fun a b => a - b
      | 1 => updX2 rdq rs2q fun a b => a ^^^ b
      | 2 => updX2 rdq rs2q fun a b => a ||| b
      | _ => updX2 rdq rs2q fun a b => a &&& b

def cBranch (onZero : Bool) : RvM D (BitVec 64) := do
  let v ← getX (creg i 7)
  let pc ← getPc
  if decide (v = 0) = onZero then pure (pc + cimmB i) else pure (pc + 2)

def quadrant1 : RvM D (BitVec 64) :=
  match cf3 i with
  | 0 => thenFall 2 (if crd i = 0 then pure () else updX (crd i) fun v => v + cimm6 i)
  | 1 => thenFall 2 (if crd i = 0 then cIllegal i
      else updX (crd i) fun v => sext32 (v.setWidth 32 + (cimm6 i).setWidth 32))
  | 2 => thenFall 2 (setX (crd i) (cimm6 i))
  | 3 => thenFall 2 (if crd i = 2 then updX 2 fun v => v + cimm16sp i
      else if crd i ≠ 0 ∧ cimmLui i ≠ 0 then setX (crd i) (cimmLui i)
      else pure ())
  | 4 => thenFall 2 (quadrant1Alu i)
  | 5 => do
    let pc ← getPc
    pure (pc + cimmJ i)
  | 6 => cBranch i true
  | _ => cBranch i false

/-- C.JR, C.MV, C.EBREAK, C.JALR and C.ADD. -/
def quadrant2Jump : RvM D (BitVec 64) :=
  if bits i 12 1 = 0 then
    if crs2 i = 0 then
      if crd i = 0 then cIllegal i
      else do
        let v ← getX (crd i)
        pure (v &&& ~~~1)
    else thenFall 2 (if crd i = 0 then pure () else do
      let v ← getX (crs2 i)
      setX (crd i) v)
  else if crs2 i = 0 then
    if crd i = 0 then do
      let pc ← getPc
      raiseTrap kExBreakpoint pc
    else do
      let pc ← getPc
      let v ← getX (crd i)
      setX 1 (pc + 2)
      pure (v &&& ~~~1)
  else thenFall 2 (if crd i = 0 then pure () else updX2 (crd i) (crs2 i) fun a b => a + b)

def quadrant2 : RvM D (BitVec 64) :=
  match cf3 i with
  | 0 => thenFall 2 (if crd i = 0 ∨ cshamt i = 0 then pure ()
      else updX (crd i) fun v => v <<< (cshamt i).toNat)
  -- the two FP stack forms neither gate nor dirty FS, and skip register 0
  | 1 => thenFall 2 (if crd i = 0 then pure () else cLoadF (crd i) 2 (cimmLdsp i))
  | 2 => thenFall 2 (if crd i = 0 then cIllegal i else cLoad (crd i) 2 (cimmLwsp i) 4 true)
  | 3 => thenFall 2 (if crd i = 0 then cIllegal i else cLoad (crd i) 2 (cimmLdsp i) 8 false)
  | 4 => quadrant2Jump i
  | 5 => thenFall 2 (if crs2 i = 0 then pure () else cStoreF (crs2 i) 2 (cimmSdsp i))
  | 6 => thenFall 2 (cStore (crs2 i) 2 (cimmSwsp i) 4)
  | _ => thenFall 2 (cStore (crs2 i) 2 (cimmSdsp i) 8)

def riscvExecC : RvM D (BitVec 64) :=
  match i.extractLsb' 0 2 with
  | 0 => thenFall 2 (quadrant0 i)
  | 1 => quadrant1 i
  | _ => quadrant2 i

end

end Cemu.Rv64
