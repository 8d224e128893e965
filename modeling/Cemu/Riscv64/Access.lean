import Cemu.Riscv64.Mmu

/-!
# riscv64: the memory pipeline and the register operations of an instruction

The load and store funnels of `exec.c` (trigger, translation, direct RAM access or bus),
and the small state operations the instruction cases are made of.
-/

namespace Cemu.Rv64

open RaiseM

variable {D : Type}

def faultCause : Acc → BitVec 64
  | .ifetch => kExFetchFault
  | .write => kExStoreFault
  | _ => kExLoadFault

/-- The direct path applies: the page has host backing and the access stays inside it. -/
def inHostPage (m : Machine D) (vaddr : BitVec 64) (size : Nat) : Bool :=
  decide ((vaddr &&& 0xfff) + BitVec.ofNat 64 size ≤ 0x1000) && !m.w.dbgMem

section

variable (vaddr : BitVec 64) (size : Nat)

def loadVia (acc : Acc) (paddr : BitVec 64) : WorldM D (BitVec 64) := do
  match ← probe paddr size with
  | none => raisePaddr (faultCause acc) vaddr paddr
  | some _ => busRead paddr size

def loadAt (acc : Acc) (paddr : BitVec 64) (host : Option HostPtr) : RvM D (BitVec 64) := do
  let m ← get
  match host with
  | some h =>
    if inHostPage m vaddr size then pure (m.w.hostLoad (h.add (vaddr &&& 0xfff)) size)
    else onWorld fun _ => loadVia vaddr size acc paddr
  | none => onWorld fun _ => loadVia vaddr size acc paddr

def riscvMemLoad (acc : Acc) : RvM D (BitVec 64) := do
  -- fetches have their own trigger check
  if acc ≠ .ifetch then riscvTriggerCheck .load vaddr
  let (paddr, host) ← riscvTranslate vaddr size acc
  loadAt vaddr size acc paddr host

def storeVia (val paddr : BitVec 64) : WorldM D Unit := do
  match ← probe paddr size with
  | none => raisePaddr kExStoreFault vaddr paddr
  | some _ => busWrite paddr size val

def storeAt (val paddr : BitVec 64) (host : Option HostPtr) : RvM D Unit := do
  let m ← get
  match host with
  | some h =>
    if inHostPage m vaddr size then
      modify fun m => m.setWorld (m.w.hostStore (h.add (vaddr &&& 0xfff)) size val)
    else onWorld fun _ => storeVia vaddr size val paddr
  | none => onWorld fun _ => storeVia vaddr size val paddr

def riscvMemStore (val : BitVec 64) : RvM D Unit := do
  riscvTriggerCheck .store vaddr
  let (paddr, host) ← riscvTranslate vaddr size .write
  storeAt vaddr size val paddr host

end

def sext (v : BitVec 64) (bits : Nat) : BitVec 64 :=
  if 64 ≤ bits then v
  else
    let m : BitVec 64 := 1#64 <<< (bits - 1)
    ((v &&& (1#64 <<< bits - 1)) ^^^ m) - m

def sext32 (v : BitVec 32) : BitVec 64 := sext (v.setWidth 64) 32

def load (addr : BitVec 64) (size : Nat) (sextW : Bool) : RvM D (BitVec 64) := do
  let v ← riscvMemLoad addr size .read
  pure (if sextW then sext v (size * 8) else v)

def illegal {α : Type} (tval : BitVec 64) : RvM D α := raiseTrap kExIllegal tval

def getX (r : BitVec 5) : RvM D (BitVec 64) := do
  let m ← get
  pure (m.cpu.gpr r)

def getF (r : BitVec 5) : RvM D (BitVec 64) := do
  let m ← get
  pure (m.cpu.fpr r)

def getPc : RvM D (BitVec 64) := do
  let m ← get
  pure m.cpu.pc

def getRs : RvM D RiscvState := do
  let m ← get
  pure m.rs

def setX (r : BitVec 5) (v : BitVec 64) : RvM D Unit := modify fun m => m.setX r v

def setF (r : BitVec 5) (v : BitVec 64) : RvM D Unit := modify fun m => m.setF r v

def setRs (rs : RiscvState) : RvM D Unit := modify fun m => m.setRs rs

def fpEnter (tval : BitVec 64) : RvM D Unit := do
  let s ← getRs
  if s.mstatus &&& kMstatusFs = 0 then illegal tval
  else setRs { s with mstatus := s.mstatus ||| kMstatusFs }

end Cemu.Rv64
