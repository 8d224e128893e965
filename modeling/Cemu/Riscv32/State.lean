import Cemu.Riscv64.Alu

/-!
# riscv32: the machine state

The state `cpu/isa/riscv32` works on. The backend mirrors riscv64's: access classes, privilege
modes, causes, trap records and the register fields that do not depend on XLEN are the ones of
`Cemu.Rv64`, and only what the two headers give different values is defined here. The control
registers are 64-bit words in both; the instruction set runs on a bank of 32-bit registers that a
step copies in and commits.
-/

namespace Cemu.Rv32

open Rv64 (Acc CounterWritten TrapRec CpuState RiscvTlbEntry WorldM)

def kXlenMask : BitVec 64 := 0xffffffff

/-- A value cut to the width of a register and widened again, the cast `(uint32_t)v` of the
source where the result goes back into a 64-bit field. -/
def low (v : BitVec 64) : BitVec 64 := v &&& kXlenMask

def kSstatusRmask : BitVec 64 := Rv64.kSstatusWmask
def kSstatusSd : BitVec 64 := 1#64 <<< 31

def kMisaMxl32 : BitVec 64 := 1#64 <<< 30

def kMisaSupported : BitVec 64 :=
  kMisaMxl32 ||| Rv64.kMisaA ||| Rv64.kMisaC ||| Rv64.kMisaD ||| Rv64.kMisaF ||| Rv64.kMisaI |||
    Rv64.kMisaM ||| Rv64.kMisaS ||| Rv64.kMisaU

def kTrigTypeMcontrol6 : BitVec 64 := 6#64 <<< 28
def kMc6Dmode : BitVec 64 := 1#64 <<< 27

def kSatpModeBare : BitVec 64 := 0
def kSatpPpnMask : BitVec 64 := 1#64 <<< 22 - 1
def kSatpAsidMask : BitVec 64 := 0x1ff
def kSatpWmask : BitVec 64 := 1#64 <<< 31 ||| 0x1ff#64 <<< 22 ||| (1#64 <<< 22 - 1)

def kSv32Levels : Nat := 2
def kSv32VpnBits : Nat := 10
def kSv32PteSize : Nat := 4
def kSv32PageShift : Nat := 12
def kSv32VpnMask : BitVec 64 := 1#64 <<< kSv32VpnBits - 1
def kSv32OffsetMask : BitVec 64 := 1#64 <<< kSv32PageShift - 1
def kSv32SuperpageMask : BitVec 64 := 1#64 <<< (kSv32PageShift + kSv32VpnBits) - 1
def kSv32PhysSize : BitVec 64 := 1#64 <<< 34

def kIntBit : BitVec 64 := 0x80000000

structure Riscv32State where
  misa : BitVec 64
  mstatus : BitVec 64
  mie : BitVec 64
  mip : BitVec 64
  mtvec : BitVec 64
  mscratch : BitVec 64
  mepc : BitVec 64
  mcause : BitVec 64
  mtval : BitVec 64
  medeleg : BitVec 64
  mideleg : BitVec 64
  mcounteren : BitVec 64
  scounteren : BitVec 64
  mcycle : BitVec 64
  minstret : BitVec 64
  mcountinhibit : BitVec 64
  stvec : BitVec 64
  sscratch : BitVec 64
  sepc : BitVec 64
  scause : BitVec 64
  stval : BitVec 64
  satp : BitVec 64
  tselect : BitVec 64
  tcontrol : BitVec 64
  tdata1 : Nat → BitVec 64
  tdata2 : Nat → BitVec 64
  tdata3 : Nat → BitVec 64
  scontext : BitVec 64
  menvcfg : BitVec 64
  senvcfg : BitVec 64
  stimecmp : BitVec 64
  mnstatus : BitVec 64
  mhpmcounter : Nat → BitVec 64
  mhpmevent : Nat → BitVec 64
  /-- Four entry bytes a word. -/
  pmpcfg : Nat → BitVec 32
  /-- Physical address bits 33 to 2. -/
  pmpaddr : Nat → BitVec 32
  tlb : Nat → RiscvTlbEntry
  tlbGen : BitVec 64
  tlbClock : BitVec 32
  pmpGen : BitVec 32
  priv : BitVec 8
  frm : BitVec 8
  fflags : BitVec 8
  counterWritten : CounterWritten
  resValid : Bool
  resAddr : BitVec 64
  trapSeq : BitVec 64
  trapSignal : BitVec 8

/-- The committed registers `cpu`, the bank `rv32_x` an instruction runs on, the control state and
the world behind the bus. -/
structure Machine (D : Type) where
  cpu : CpuState
  x : BitVec 5 → BitVec 32
  rs : Riscv32State
  w : World D

abbrev RvM (D : Type) := RaiseM TrapRec (Machine D)

variable {D : Type}

section

variable (m : Machine D)

def Machine.setRs (rs : Riscv32State) : Machine D := { m with rs := rs }

def Machine.setWorld (w : World D) : Machine D := { m with w := w }

def Machine.setPc (pc : BitVec 64) : Machine D :=
  { m with cpu := { m.cpu with pc := pc } }

def Machine.setWait (wait : Bool) : Machine D :=
  { m with cpu := { m.cpu with wait := wait } }

/-- `x[r] = v`. Cell 0 is an ordinary cell that the step clears before each instruction. -/
def Machine.setX (r : BitVec 5) (v : BitVec 32) : Machine D :=
  { m with x := Function.update m.x r v }

def Machine.setF (r : BitVec 5) (v : BitVec 64) : Machine D :=
  { m with cpu := { m.cpu with fpr := Function.update m.cpu.fpr r v } }

def Machine.loadRegs : Machine D :=
  { m with x := fun r => if r = 0 then 0 else (m.cpu.gpr r).setWidth 32 }

def Machine.storeRegs : Machine D :=
  { m with cpu := { m.cpu with gpr := fun r => if r = 0 then 0 else (m.x r).setWidth 64 } }

end

def onWorld {α : Type} (c : Riscv32State → WorldM D α) : RvM D α := fun m =>
  match c m.rs m.w with
  | .ok a w => .ok a (m.setWorld w)
  | .raise t w => .raise t (m.setWorld w)
  | .fatal => .fatal

def riscv32Init : Riscv32State where
  misa := kMisaSupported
  mstatus := 0
  mie := 0
  mip := 0
  mtvec := 0
  mscratch := 0
  mepc := 0
  mcause := 0
  mtval := 0
  medeleg := 0
  mideleg := 0
  mcounteren := 0
  scounteren := 0
  mcycle := 0
  minstret := 0
  mcountinhibit := 0
  stvec := 0
  sscratch := 0
  sepc := 0
  scause := 0
  stval := 0
  satp := 0
  tselect := 0
  tcontrol := 0
  tdata1 := fun i => if i < Rv64.kTrigCount then kTrigTypeMcontrol6 else 0
  tdata2 := fun _ => 0
  tdata3 := fun _ => 0
  scontext := 0
  menvcfg := 0
  senvcfg := 0
  stimecmp := ~~~0
  mnstatus := 0
  mhpmcounter := fun _ => 0
  mhpmevent := fun _ => 0
  pmpcfg := fun _ => 0
  pmpaddr := fun _ => 0
  tlb := fun _ => .zero
  tlbGen := 1
  tlbClock := 0
  pmpGen := 0
  priv := Rv64.kPrivMachine
  frm := 0
  fflags := 0
  counterWritten := .none
  resValid := false
  resAddr := 0
  trapSeq := 0
  trapSignal := 0

def Machine.init (w : World D) (pc : BitVec 64) : Machine D where
  cpu := ⟨fun _ => 0, fun _ => 0, pc, false, 0⟩
  x := fun _ => 0
  rs := riscv32Init
  w := w

end Cemu.Rv32
