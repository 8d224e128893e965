import Cemu.Riscv64.Alu

/-!
# riscv64: the 32-bit instructions

`riscv_exec_inst` of `exec.c`. The length of the instruction is a parameter of the cases
that use it: `riscvExecInstAt 4` is the source's function, and the same instruction at
length 2 is what a compressed form stands for.
-/

namespace Cemu.Rv64

open RaiseM

variable {D : Type}

def fallThrough (ilen : BitVec 64) : RvM D (BitVec 64) := do
  let pc ← getPc
  pure (pc + ilen)

/-- No result is an illegal instruction. -/
def setXOr (i : BitVec 32) (r : BitVec 5) : Option (BitVec 64) → RvM D Unit
  | some v => setX r v
  | none => illegal (i.setWidth 64)

/-! ### Zicsr and system -/

/-- CSRRS and CSRRC with a zero operand do not write. -/
def csrWriteValue (f3 : BitVec 3) (old src : BitVec 64) : Option (BitVec 64) :=
  match f3 &&& 3 with
  | 1 => some src
  | 2 => if src ≠ 0 then some (old ||| src) else none
  | _ => if src ≠ 0 then some (old &&& ~~~src) else none

/-- Zicsr: the old value is read first, and either access can be illegal. -/
def csrOp (ilen : BitVec 64) (i : BitVec 32) : RvM D Unit := do
  let m ← get
  let csr := bits i 20 12
  match riscvCsrRead m csr with
  | none => illegal (i.setWidth 64)
  | some old =>
    let src := if 5 ≤ f3 i then (rs1 i).setWidth 64 else m.cpu.gpr (rs1 i)
    match csrWriteValue (f3 i) old src with
    | none => setX (rd i) old
    | some wval =>
      match riscvCsrWrite m.rs csr wval (m.cpu.pc + ilen) with
      | none => illegal (i.setWidth 64)
      | some rs =>
        setRs rs
        setX (rd i) old

def ecallCause (s : RiscvState) : BitVec 64 :=
  if s.priv = kPrivMachine then kExMachineEcall
  else if s.priv = kPrivSupervisor then kExSupervisorEcall
  else kExUserEcall

def systemOp (ilen : BitVec 64) (i : BitVec 32) : RvM D (BitVec 64) := do
  let m ← get
  let s := m.rs
  let bad := illegal (i.setWidth 64)
  match i.extractLsb' 20 12 with
  | 0x000 => raiseTrap (ecallCause s) 0
  | 0x001 => raiseTrap kExBreakpoint m.cpu.pc
  | 0x302 =>
    if rd i ≠ 0 ∨ rs1 i ≠ 0 ∨ s.priv ≠ kPrivMachine then bad
    else
      setRs (riscvMret s).2
      pure (riscvMret s).1
  | 0x102 =>
    if rd i ≠ 0 ∨ rs1 i ≠ 0 then bad
    else if s.priv = kPrivSupervisor ∧ s.mstatus &&& kMstatusTsr ≠ 0 then bad
    else if s.priv < kPrivSupervisor then bad
    else
      setRs (riscvSret s).2
      pure (riscvSret s).1
  | 0x105 =>
    if rd i ≠ 0 ∨ rs1 i ≠ 0 then bad
    else if s.priv = kPrivUser ∨ (s.priv = kPrivSupervisor ∧ s.mstatus &&& kMstatusTw ≠ 0) then
      bad
    else
      -- with an enabled interrupt already pending it is a nop
      if mipAll m &&& s.mie = 0 then modify fun m => m.setWait true
      fallThrough ilen
  | 0x120 =>
    if rd i ≠ 0 then bad
    else if s.priv = kPrivUser ∨ (s.priv = kPrivSupervisor ∧ s.mstatus &&& kMstatusTvm ≠ 0) then
      bad
    else
      setRs { s with tlbGen := s.tlbGen + 1 }
      fallThrough ilen
  | _ => bad

/-! ### Atomics -/

def accessWidth (isDouble : Bool) : Nat := if isDouble then 8 else 4

def amoOld (isDouble : Bool) (old : BitVec 64) : BitVec 64 := if isDouble then old else sext old 32

def amoOp (i : BitVec 32) (isDouble : Bool) : RvM D Unit := do
  let op5 : BitVec 5 := i.extractLsb' 27 5
  let width := accessWidth isDouble
  let addr ← getX (rs1 i)
  if addr % BitVec.ofNat 64 width ≠ 0 then raiseTrap kExStoreMisaligned addr
  else if op5 = 0x02 then
    let old ← riscvMemLoad addr width .read
    let s ← getRs
    setRs { s with resValid := true, resAddr := addr }
    setX (rd i) (amoOld isDouble old)
  else if op5 = 0x03 then
    let val ← getX (rs2 i)
    let s ← getRs
    if s.resValid ∧ s.resAddr = addr then
      riscvMemStore addr width val
      setX (rd i) 0
    else setX (rd i) 1
    let s ← getRs
    setRs { s with resValid := false }
  else if isAmoOp op5 then
    let old ← riscvMemLoad addr width .read
    let val ← getX (rs2 i)
    riscvMemStore addr width (amoStored isDouble op5 old val)
    setX (rd i) (amoOld isDouble old)
  else illegal (i.setWidth 64)

/-! ### Floating point -/

/-- Accrues the flags and writes the destination. -/
def fpCommit (r : BitVec 5) (dest : FpDest) : RvM D Unit := do
  let s ← getRs
  match dest with
  | .toF out =>
    setRs { s with fflags := s.fflags ||| out.flags }
    setF r out.val
  | .toX out =>
    setRs { s with fflags := s.fflags ||| out.flags }
    setX r out.val

def fpOp (fp : FpBackend) (i : BitVec 32) : RvM D Unit := do
  fpEnter (i.setWidth 64)
  let m ← get
  match fpResult fp i (fpRm m.rs (f3 i)) (m.cpu.fpr (rs1 i)) (m.cpu.fpr (rs2 i))
      (m.cpu.gpr (rs1 i)) with
  | some dest => fpCommit (rd i) dest
  | none => illegal (i.setWidth 64)

def fmaSign (dbl : Bool) : BitVec 64 := if dbl then 0x8000000000000000 else 0x80000000

def fmaOp (fp : FpBackend) (i : BitVec 32) : RvM D Unit := do
  fpEnter (i.setWidth 64)
  let m ← get
  let dbl := decide (bits i 25 1 ≠ 0)
  let op := opcode i
  let a := m.cpu.fpr (rs1 i)
  let c := m.cpu.fpr (rs3 i)
  -- fmsub and fnmadd negate the addend, fnmsub and fnmadd the product
  let c := if op = 0x47 ∨ op = 0x4f then c ^^^ fmaSign dbl else c
  let a := if op = 0x4b ∨ op = 0x4f then a ^^^ fmaSign dbl else a
  fpCommit (rd i) (.toF (fp.riscvFpFma dbl a (m.cpu.fpr (rs2 i)) c (fpRm m.rs (f3 i))))

/-- A single is NaN-boxed. -/
def fpBox (isDouble : Bool) (v : BitVec 64) : BitVec 64 :=
  if isDouble then v else 0xffffffff00000000 ||| v

def fpLdst (i : BitVec 32) (isStore isDouble : Bool) : RvM D Unit := do
  fpEnter (i.setWidth 64)
  let size := accessWidth isDouble
  let base ← getX (rs1 i)
  if isStore then
    let v ← getF (rs2 i)
    riscvMemStore (base + immS i) size v
  else
    let v ← riscvMemLoad (base + immI i) size .read
    setF (rd i) (fpBox isDouble v)

/-! ### Cache blocks -/

def cboOp (i : BitVec 32) : RvM D Unit := do
  let m ← get
  if m.rs.priv = kPrivUser ∧ m.rs.senvcfg &&& 1#64 <<< 4 = 0 then illegal (i.setWidth 64)
  else if m.cpu.gpr (rs1 i) % kCacheBlockSize ≠ 0 then illegal (i.setWidth 64)
  else pure ()

/-- CBO.ZERO: eight stores of a double word. -/
def cboZeroFrom (addr : BitVec 64) : Nat → RvM D Unit
  | 0 => pure ()
  | n + 1 => do
    riscvMemStore addr 8 0
    cboZeroFrom (addr + 8) n

def cboZero (i : BitVec 32) : RvM D Unit := do
  let m ← get
  let addr := m.cpu.gpr (rs1 i)
  if m.rs.priv = kPrivUser ∧ m.rs.senvcfg &&& 1#64 <<< 7 = 0 then illegal (i.setWidth 64)
  else if addr % kCacheBlockSize ≠ 0 then raiseTrap kExStoreMisaligned addr
  else cboZeroFrom addr 8

def miscMem (i : BitVec 32) : RvM D Unit :=
  match f3 i with
  | 0 => pure ()
  | 1 =>
    if f7 i = 0 ∧ rs1 i = 0 ∧ rd i = 0 then pure ()
    else if 2 < f7 i then illegal (i.setWidth 64)
    else cboOp i
  | 2 => if f7 i ≠ 0 then illegal (i.setWidth 64) else cboZero i
  | _ => illegal (i.setWidth 64)

/-! ### The switch -/

def branchOp (ilen : BitVec 64) (i : BitVec 32) : RvM D (BitVec 64) := do
  let a ← getX (rs1 i)
  let b ← getX (rs2 i)
  match branchTaken (f3 i) a b with
  | none => illegal (i.setWidth 64)
  | some true => do
    let pc ← getPc
    pure (pc + immB i)
  | some false => fallThrough ilen

def jalOp (ilen : BitVec 64) (i : BitVec 32) : RvM D (BitVec 64) := do
  let pc ← getPc
  setX (rd i) (pc + ilen)
  pure (pc + immJ i)

/-- Without the C extension the target also loses bit 1. -/
def jalrOp (ilen : BitVec 64) (i : BitVec 32) : RvM D (BitVec 64) := do
  let pc ← getPc
  let base ← getX (rs1 i)
  let target := (base + immI i) &&& ~~~1
  setX (rd i) (pc + ilen)
  let s ← getRs
  pure (if s.misa &&& kMisaC ≠ 0 then target else target &&& ~~~2)

def loadOp (i : BitVec 32) : RvM D Unit := do
  let base ← getX (rs1 i)
  match loadKind (f3 i) with
  | none => illegal (i.setWidth 64)
  | some (size, sextW) =>
    let v ← load (base + immI i) size sextW
    setX (rd i) v

def storeOp (i : BitVec 32) : RvM D Unit := do
  let base ← getX (rs1 i)
  match storeSize (f3 i) with
  | none => illegal (i.setWidth 64)
  | some size =>
    let v ← getX (rs2 i)
    riscvMemStore (base + immS i) size v

def unaryOp (i : BitVec 32) (op : BitVec 64 → Option (BitVec 64)) : RvM D Unit := do
  let a ← getX (rs1 i)
  setXOr i (rd i) (op a)

def binaryOp (i : BitVec 32) (op : BitVec 64 → BitVec 64 → Option (BitVec 64)) :
    RvM D Unit := do
  let a ← getX (rs1 i)
  let b ← getX (rs2 i)
  setXOr i (rd i) (op a b)

/-- An instruction that goes on to the next one. -/
def thenFall (ilen : BitVec 64) (body : RvM D Unit) : RvM D (BitVec 64) := do
  body
  fallThrough ilen

/-- The two widths of a floating-point access or an AMO. -/
def byWidth (i : BitVec 32) (body : Bool → RvM D Unit) : RvM D Unit :=
  if f3 i = 2 then body false
  else if f3 i = 3 then body true
  else illegal (i.setWidth 64)

def riscvExecInstAt (fp : FpBackend) (ilen : BitVec 64) (i : BitVec 32) : RvM D (BitVec 64) :=
  match opcode i with
  | 0x37 => thenFall ilen (setX (rd i) (immU i))
  | 0x17 => thenFall ilen do
    let pc ← getPc
    setX (rd i) (pc + immU i)
  | 0x6f => jalOp ilen i
  | 0x67 => jalrOp ilen i
  | 0x63 => branchOp ilen i
  | 0x03 => thenFall ilen (loadOp i)
  | 0x23 => thenFall ilen (storeOp i)
  | 0x13 => thenFall ilen (unaryOp i (aluImm i))
  | 0x1b => thenFall ilen (unaryOp i (aluImm32 i))
  | 0x33 => thenFall ilen (binaryOp i (aluOp (f3 i) (f7 i)))
  | 0x3b => thenFall ilen (binaryOp i (aluOp32 (f3 i) (f7 i)))
  | 0x0f => thenFall ilen (miscMem i)
  | 0x73 =>
    if f3 i = 0 then systemOp ilen i
    else if f3 i ≠ 4 then thenFall ilen (csrOp ilen i)
    else illegal (i.setWidth 64)
  | 0x2f => thenFall ilen (byWidth i (amoOp i))
  | 0x07 => thenFall ilen (byWidth i (fpLdst i false))
  | 0x27 => thenFall ilen (byWidth i (fpLdst i true))
  | 0x43 | 0x47 | 0x4b | 0x4f => thenFall ilen (fmaOp fp i)
  | 0x53 => thenFall ilen (fpOp fp i)
  | _ => illegal (i.setWidth 64)

def riscvExecInst (fp : FpBackend) (i : BitVec 32) : RvM D (BitVec 64) := riscvExecInstAt fp 4 i

end Cemu.Rv64
