import Cemu.Riscv32.Alu
import Cemu.Riscv64.Exec

/-!
# riscv32: the 32-bit instructions

`riscv32_exec_inst` of `exec.c`. As for riscv64 the length of the instruction is a parameter of the
cases that use it: `riscv32ExecInstAt 4` is the source's function, and the same instruction at
length 2 is what a compressed form stands for.
-/

namespace Cemu.Rv32

open RaiseM

open Rv64 (FpBackend FpDest opcode rd rs1 rs2 rs3 f3 f7 raiseTrap csrWriteValue isAmoOp amoValue
  accessWidth fmaSign kCacheBlockSize kPrivUser kPrivSupervisor kPrivMachine kMstatusTsr kMstatusTw
  kMstatusTvm kMisaC kExBreakpoint kExMachineEcall kExSupervisorEcall kExUserEcall
  kExStoreMisaligned)

variable {D : Type}

def fallThrough (ilen : BitVec 32) : RvM D (BitVec 64) := do
  let pc ← getPc
  pure ((pc + ilen).setWidth 64)

def setXOr (i : BitVec 32) (r : BitVec 5) : Option (BitVec 32) → RvM D Unit
  | some v => setX r v
  | none => illegal (i.setWidth 64)

/-! ### Zicsr and system -/

def csrOp (ilen : BitVec 32) (i : BitVec 32) : RvM D Unit := do
  let m ← get
  let csr := Rv64.bits i 20 12
  match riscv32CsrRead m csr with
  | none => illegal (i.setWidth 64)
  | some old =>
    let src : BitVec 64 := if 5 ≤ f3 i then (rs1 i).setWidth 64 else (m.x (rs1 i)).setWidth 64
    match csrWriteValue (f3 i) old src with
    | none => setX (rd i) (old.setWidth 32)
    | some wval =>
      match riscv32CsrWrite m.rs csr wval (low (m.cpu.pc + ilen.setWidth 64)) with
      | none => illegal (i.setWidth 64)
      | some rs =>
        setRs rs
        setX (rd i) (old.setWidth 32)

def ecallCause (s : Riscv32State) : BitVec 64 :=
  if s.priv = kPrivMachine then kExMachineEcall
  else if s.priv = kPrivSupervisor then kExSupervisorEcall
  else kExUserEcall

def systemOp (ilen : BitVec 32) (i : BitVec 32) : RvM D (BitVec 64) := do
  let m ← get
  let s := m.rs
  let bad := illegal (i.setWidth 64)
  match i.extractLsb' 20 12 with
  | 0x000 => raiseTrap (ecallCause s) 0
  | 0x001 => raiseTrap kExBreakpoint m.cpu.pc
  | 0x302 =>
    if rd i ≠ 0 ∨ rs1 i ≠ 0 ∨ s.priv ≠ kPrivMachine then bad
    else
      setRs (riscv32Mret s).2
      pure (riscv32Mret s).1
  | 0x102 =>
    if rd i ≠ 0 ∨ rs1 i ≠ 0 then bad
    else if s.priv = kPrivSupervisor ∧ s.mstatus &&& kMstatusTsr ≠ 0 then bad
    else if s.priv < kPrivSupervisor then bad
    else
      setRs (riscv32Sret s).2
      pure (riscv32Sret s).1
  | 0x105 =>
    if rd i ≠ 0 ∨ rs1 i ≠ 0 then bad
    else if s.priv = kPrivUser ∨ (s.priv = kPrivSupervisor ∧ s.mstatus &&& kMstatusTw ≠ 0) then
      bad
    else
      -- with an enabled interrupt already pending it is a nop
      if mipAll m &&& s.mie = 0 then modify fun m => m.setWait true
      fallThrough ilen
  | 0x120 =>
    if rd i ≠ 0 then bad
    else if s.priv = kPrivUser ∨ (s.priv = kPrivSupervisor ∧ s.mstatus &&& kMstatusTvm ≠ 0) then
      bad
    else
      setRs { s with tlbGen := s.tlbGen + 1 }
      fallThrough ilen
  | _ => bad

/-! ### Atomics: the word forms only -/

def amoOp (i : BitVec 32) : RvM D Unit := do
  let op5 : BitVec 5 := i.extractLsb' 27 5
  let addr ← getX (rs1 i)
  let vaddr : BitVec 64 := addr.setWidth 64
  if addr % 4 ≠ 0 then raiseTrap kExStoreMisaligned vaddr
  else if op5 = 0x02 then
    let old ← riscv32MemLoad vaddr 4 .read
    let s ← getRs
    setRs { s with resValid := true, resAddr := vaddr }
    setX (rd i) (old.setWidth 32)
  else if op5 = 0x03 then
    let val ← getX (rs2 i)
    let s ← getRs
    if s.resValid ∧ s.resAddr = vaddr then
      riscv32MemStore vaddr 4 (val.setWidth 64)
      setX (rd i) 0
    else setX (rd i) 1
    let s ← getRs
    setRs { s with resValid := false }
  else if isAmoOp op5 then
    let old ← riscv32MemLoad vaddr 4 .read
    let val ← getX (rs2 i)
    riscv32MemStore vaddr 4 ((amoValue op5 (old.setWidth 32) val).setWidth 64)
    setX (rd i) (old.setWidth 32)
  else illegal (i.setWidth 64)

/-! ### Floating point -/

def fpCommit (r : BitVec 5) (dest : FpDest) : RvM D Unit := do
  let s ← getRs
  match dest with
  | .toF out =>
    setRs { s with fflags := s.fflags ||| out.flags }
    setF r out.val
  | .toX out =>
    setRs { s with fflags := s.fflags ||| out.flags }
    setX r (out.val.setWidth 32)

def fpOp (fp : FpBackend) (i : BitVec 32) : RvM D Unit := do
  fpEnter (i.setWidth 64)
  let m ← get
  match fpResult fp i (fpRm m.rs (f3 i)) (m.cpu.fpr (rs1 i)) (m.cpu.fpr (rs2 i)) (m.x (rs1 i)) with
  | some dest => fpCommit (rd i) dest
  | none => illegal (i.setWidth 64)

def fmaOp (fp : FpBackend) (i : BitVec 32) : RvM D Unit := do
  fpEnter (i.setWidth 64)
  let m ← get
  let dbl := decide (bits i 25 1 ≠ 0)
  let op := opcode i
  let a := m.cpu.fpr (rs1 i)
  let c := m.cpu.fpr (rs3 i)
  -- fmsub and fnmadd negate the addend, fnmsub and fnmadd the product
  let c := if op = 0x47 ∨ op = 0x4f then c ^^^ fmaSign dbl else c
  let a := if op = 0x4b ∨ op = 0x4f then a ^^^ fmaSign dbl else a
  fpCommit (rd i) (.toF (fp.riscvFpFma dbl a (m.cpu.fpr (rs2 i)) c (fpRm m.rs (f3 i))))

def fpBox (isDouble : Bool) (v : BitVec 64) : BitVec 64 :=
  if isDouble then v else nanBox (v.setWidth 32)

def fpLdst (i : BitVec 32) (isStore isDouble : Bool) : RvM D Unit := do
  fpEnter (i.setWidth 64)
  let size := accessWidth isDouble
  let base ← getX (rs1 i)
  if isStore then
    let v ← getF (rs2 i)
    riscv32MemStore ((base + immS i).setWidth 64) size v
  else
    let v ← riscv32MemLoad ((base + immI i).setWidth 64) size .read
    setF (rd i) (fpBox isDouble v)

/-! ### Cache blocks -/

def blockOffset (addr : BitVec 32) : BitVec 64 := addr.setWidth 64 % kCacheBlockSize

def cboOp (i : BitVec 32) : RvM D Unit := do
  let m ← get
  if m.rs.priv = kPrivUser ∧ m.rs.senvcfg &&& 1#64 <<< 4 = 0 then illegal (i.setWidth 64)
  else if blockOffset (m.x (rs1 i)) ≠ 0 then illegal (i.setWidth 64)
  else pure ()

/-- The loop of `cbo_zero`: `n` doublewords from `addr` on, wrapping at 32 bits. -/
def cboZeroFrom (addr : BitVec 32) : Nat → RvM D Unit
  | 0 => pure ()
  | n + 1 => do
    riscv32MemStore (addr.setWidth 64) 8 0
    cboZeroFrom (addr + 8) n

def cboZero (i : BitVec 32) : RvM D Unit := do
  let m ← get
  let addr := m.x (rs1 i)
  if m.rs.priv = kPrivUser ∧ m.rs.senvcfg &&& 1#64 <<< 7 = 0 then illegal (i.setWidth 64)
  else if blockOffset addr ≠ 0 then raiseTrap kExStoreMisaligned (addr.setWidth 64)
  else cboZeroFrom addr 8

def miscMem (i : BitVec 32) : RvM D Unit :=
  match f3 i with
  | 0 => pure ()
  | 1 =>
    if f7 i = 0 ∧ rs1 i = 0 ∧ rd i = 0 then pure ()
    else if 2 < f7 i then illegal (i.setWidth 64)
    else cboOp i
  | 2 => if f7 i ≠ 0 then illegal (i.setWidth 64) else cboZero i
  | _ => illegal (i.setWidth 64)

/-! ### The switch -/

def branchOp (ilen : BitVec 32) (i : BitVec 32) : RvM D (BitVec 64) := do
  let a ← getX (rs1 i)
  let b ← getX (rs2 i)
  match branchTaken (f3 i) a b with
  | none => illegal (i.setWidth 64)
  | some true => do
    let pc ← getPc
    pure ((pc + immB i).setWidth 64)
  | some false => fallThrough ilen

def jalOp (ilen : BitVec 32) (i : BitVec 32) : RvM D (BitVec 64) := do
  let pc ← getPc
  setX (rd i) (pc + ilen)
  pure ((pc + immJ i).setWidth 64)

def jalrOp (ilen : BitVec 32) (i : BitVec 32) : RvM D (BitVec 64) := do
  let pc ← getPc
  let base ← getX (rs1 i)
  let target := (base + immI i) &&& ~~~1
  setX (rd i) (pc + ilen)
  let s ← getRs
  pure ((if s.misa &&& kMisaC ≠ 0 then target else target &&& ~~~2).setWidth 64)

def loadOp (i : BitVec 32) : RvM D Unit := do
  let base ← getX (rs1 i)
  match loadKind (f3 i) with
  | none => illegal (i.setWidth 64)
  | some (size, sextW) =>
    let v ← load32 (base + immI i) size sextW
    setX (rd i) v

def storeOp (i : BitVec 32) : RvM D Unit := do
  let base ← getX (rs1 i)
  match storeSize (f3 i) with
  | none => illegal (i.setWidth 64)
  | some size =>
    let v ← getX (rs2 i)
    riscv32MemStore ((base + immS i).setWidth 64) size (v.setWidth 64)

def unaryOp (i : BitVec 32) (op : BitVec 32 → Option (BitVec 32)) : RvM D Unit := do
  let a ← getX (rs1 i)
  setXOr i (rd i) (op a)

def binaryOp (i : BitVec 32) (op : BitVec 32 → BitVec 32 → Option (BitVec 32)) :
    RvM D Unit := do
  let a ← getX (rs1 i)
  let b ← getX (rs2 i)
  setXOr i (rd i) (op a b)

def thenFall (ilen : BitVec 32) (body : RvM D Unit) : RvM D (BitVec 64) := do
  body
  fallThrough ilen

def byWidth (i : BitVec 32) (body : Bool → RvM D Unit) : RvM D Unit :=
  if f3 i = 2 then body false
  else if f3 i = 3 then body true
  else illegal (i.setWidth 64)

def riscv32ExecInstAt (fp : FpBackend) (ilen : BitVec 32) (i : BitVec 32) : RvM D (BitVec 64) :=
  match opcode i with
  | 0x37 => thenFall ilen (setX (rd i) (immU i))
  | 0x17 => thenFall ilen do
    let pc ← getPc
    setX (rd i) (pc + immU i)
  | 0x6f => jalOp ilen i
  | 0x67 => jalrOp ilen i
  | 0x63 => branchOp ilen i
  | 0x03 => thenFall ilen (loadOp i)
  | 0x23 => thenFall ilen (storeOp i)
  | 0x13 => thenFall ilen (unaryOp i (aluImm i))
  | 0x33 => thenFall ilen (binaryOp i (aluOp (f3 i) (f7 i)))
  | 0x0f => thenFall ilen (miscMem i)
  | 0x73 =>
    if f3 i = 0 then systemOp ilen i
    else if f3 i ≠ 4 then thenFall ilen (csrOp ilen i)
    else illegal (i.setWidth 64)
  | 0x2f => thenFall ilen (if f3 i = 2 then amoOp i else illegal (i.setWidth 64))
  | 0x07 => thenFall ilen (byWidth i (fpLdst i false))
  | 0x27 => thenFall ilen (byWidth i (fpLdst i true))
  | 0x43 | 0x47 | 0x4b | 0x4f => thenFall ilen (fmaOp fp i)
  | 0x53 => thenFall ilen (fpOp fp i)
  | _ => illegal (i.setWidth 64)

def riscv32ExecInst (fp : FpBackend) (i : BitVec 32) : RvM D (BitVec 64) :=
  riscv32ExecInstAt fp 4 i

end Cemu.Rv32
