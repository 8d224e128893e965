import Cemu.Riscv32.Mmu

/-!
# riscv32: the memory pipeline and the register operations of an instruction

The load and store funnels of `exec.c`. They take 64-bit addresses and raise with the address they
were given; only `riscv32Translate` cuts it. The bus ends are riscv64's.
-/

namespace Cemu.Rv32

open RaiseM

open Rv64 (Acc TrigOp raiseTrap loadVia storeVia kExIllegal kMstatusFs)

variable {D : Type}

/-- The direct path applies: the page has host backing and the access stays inside it. -/
def inHostPage (m : Machine D) (vaddr : BitVec 64) (size : Nat) : Bool :=
  decide ((vaddr &&& 0xfff) + BitVec.ofNat 64 size ≤ 0x1000) && !m.w.dbgMem

section

variable (vaddr : BitVec 64) (size : Nat)

def loadAt (acc : Acc) (paddr : BitVec 64) (host : Option HostPtr) : RvM D (BitVec 64) := do
  let m ← get
  match host with
  | some h =>
    if inHostPage m vaddr size then pure (m.w.hostLoad (h.add (vaddr &&& 0xfff)) size)
    else onWorld fun _ => loadVia vaddr size acc paddr
  | none => onWorld fun _ => loadVia vaddr size acc paddr

def riscv32MemLoad (acc : Acc) : RvM D (BitVec 64) := do
  -- fetches have their own trigger check
  if acc ≠ .ifetch then riscv32TriggerCheck .load vaddr
  let (paddr, host) ← riscv32Translate vaddr size acc
  loadAt vaddr size acc paddr host

def storeAt (val paddr : BitVec 64) (host : Option HostPtr) : RvM D Unit := do
  let m ← get
  match host with
  | some h =>
    if inHostPage m vaddr size then
      modify fun m => m.setWorld (m.w.hostStore (h.add (vaddr &&& 0xfff)) size val)
    else onWorld fun _ => storeVia vaddr size val paddr
  | none => onWorld fun _ => storeVia vaddr size val paddr

def riscv32MemStore (val : BitVec 64) : RvM D Unit := do
  riscv32TriggerCheck .store vaddr
  let (paddr, host) ← riscv32Translate vaddr size .write
  storeAt vaddr size val paddr host

end

def extend32 (v : BitVec 64) (size : Nat) (sextW : Bool) : BitVec 32 :=
  if !sextW then v.setWidth 32
  else
    match size with
    | 1 => (v.setWidth 8).signExtend 32
    | 2 => (v.setWidth 16).signExtend 32
    | _ => v.setWidth 32

def load32 (addr : BitVec 32) (size : Nat) (sextW : Bool) : RvM D (BitVec 32) := do
  let v ← riscv32MemLoad (addr.setWidth 64) size .read
  pure (extend32 v size sextW)

def illegal {α : Type} (tval : BitVec 64) : RvM D α := raiseTrap kExIllegal tval

def getX (r : BitVec 5) : RvM D (BitVec 32) := do
  let m ← get
  pure (m.x r)

def getF (r : BitVec 5) : RvM D (BitVec 64) := do
  let m ← get
  pure (m.cpu.fpr r)

def getPc : RvM D (BitVec 32) := do
  let m ← get
  pure (m.cpu.pc.setWidth 32)

def getRs : RvM D Riscv32State := do
  let m ← get
  pure m.rs

def setX (r : BitVec 5) (v : BitVec 32) : RvM D Unit := modify fun m => m.setX r v

def setF (r : BitVec 5) (v : BitVec 64) : RvM D Unit := modify fun m => m.setF r v

def setRs (rs : Riscv32State) : RvM D Unit := modify fun m => m.setRs rs

def fpEnter (tval : BitVec 64) : RvM D Unit := do
  let s ← getRs
  if s.mstatus &&& kMstatusFs = 0 then illegal tval
  else setRs { s with mstatus := s.mstatus ||| kMstatusFs }

end Cemu.Rv32
