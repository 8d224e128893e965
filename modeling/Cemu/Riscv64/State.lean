import Cemu.Lib.RaiseM
import Cemu.Mem.World

/-!
# riscv64: the machine state

The state `cpu/isa/riscv64` works on: the register banks of `CpuState`, the control state
of `RiscvState` and the world behind the bus. Fixed-width fields are words of the source's
width; a C array is a function of its index. Fields only the debugger reads are left out,
and the interrupt lines `ext_irq` and the `halted` flag live on the device side, where
device callbacks change them.
-/

namespace Cemu.Rv64

inductive Acc where
  | ifetch
  | read
  | write
  | amo
  deriving DecidableEq, Repr

def Acc.code : Acc → BitVec 64
  | ifetch => 0
  | read => 1
  | write => 2
  | amo => 3

inductive CounterWritten where
  | none
  | mcycle
  | minstret
  deriving DecidableEq, Repr

-- Privilege modes; 2 is the unimplemented H encoding.
def kPrivUser : BitVec 8 := 0
def kPrivSupervisor : BitVec 8 := 1
def kPrivMachine : BitVec 8 := 3

def kMstatusSie : BitVec 64 := 1#64 <<< 1
def kMstatusMie : BitVec 64 := 1#64 <<< 3
def kMstatusSpie : BitVec 64 := 1#64 <<< 5
def kMstatusMpie : BitVec 64 := 1#64 <<< 7
def kMstatusSpp : BitVec 64 := 1#64 <<< 8
def kMstatusMppMask : BitVec 64 := 3#64 <<< 11
def kMstatusFs : BitVec 64 := 3#64 <<< 13
def kMstatusMprv : BitVec 64 := 1#64 <<< 17
def kMstatusSum : BitVec 64 := 1#64 <<< 18
def kMstatusMxr : BitVec 64 := 1#64 <<< 19
def kMstatusTvm : BitVec 64 := 1#64 <<< 20
def kMstatusTw : BitVec 64 := 1#64 <<< 21
def kMstatusTsr : BitVec 64 := 1#64 <<< 22
def kMstatusUxlMask : BitVec 64 := 3#64 <<< 32
def kMstatusUxlValue : BitVec 64 := 2#64 <<< 32

def kMstatusWmask : BitVec 64 :=
  kMstatusSie ||| kMstatusMie ||| kMstatusSpie ||| kMstatusMpie ||| kMstatusSpp |||
    kMstatusMppMask ||| kMstatusFs ||| kMstatusMprv ||| kMstatusSum ||| kMstatusMxr |||
    kMstatusTvm ||| kMstatusTw ||| kMstatusTsr

def kSstatusRmask : BitVec 64 :=
  kMstatusSie ||| kMstatusSpie ||| kMstatusSpp ||| kMstatusFs ||| kMstatusSum |||
    kMstatusMxr ||| kMstatusUxlMask ||| 1#64 <<< 63

def kSstatusWmask : BitVec 64 :=
  kMstatusSie ||| kMstatusSpie ||| kMstatusSpp ||| kMstatusFs ||| kMstatusSum ||| kMstatusMxr

def kMcountinhibitCy : BitVec 64 := 1#64 <<< 0
def kMcountinhibitIr : BitVec 64 := 1#64 <<< 2

def kMisaMxl64 : BitVec 64 := 2#64 <<< 62
def kMisaA : BitVec 64 := 1#64 <<< 0
def kMisaC : BitVec 64 := 1#64 <<< 2
def kMisaD : BitVec 64 := 1#64 <<< 3
def kMisaF : BitVec 64 := 1#64 <<< 5
def kMisaI : BitVec 64 := 1#64 <<< 8
def kMisaM : BitVec 64 := 1#64 <<< 12
def kMisaS : BitVec 64 := 1#64 <<< 18
def kMisaU : BitVec 64 := 1#64 <<< 20

def kMisaSupported : BitVec 64 :=
  kMisaMxl64 ||| kMisaA ||| kMisaC ||| kMisaD ||| kMisaF ||| kMisaI ||| kMisaM |||
    kMisaS ||| kMisaU

def kTcontrolMte : BitVec 64 := 1#64 <<< 7
def kTcontrolMpte : BitVec 64 := 1#64 <<< 6

def kMenvcfgWmask : BitVec 64 := 0xff ||| 1#64 <<< 61 ||| 1#64 <<< 63
def kMenvcfgAdue : BitVec 64 := 1#64 <<< 61
def kSenvcfgWmask : BitVec 64 := 0xff

def kMhpmCount : Nat := 16
def kTrigCount : Nat := 2
def kPmpCount : Nat := 16
def kCacheBlockSize : BitVec 64 := 64
def kTrigTypeMcontrol6 : BitVec 64 := 6#64 <<< 60

def kIrqSsip : BitVec 64 := 1#64 <<< 1
def kIrqStip : BitVec 64 := 1#64 <<< 5
def kIrqSeip : BitVec 64 := 1#64 <<< 9
def kMidelegWmask : BitVec 64 := kIrqSsip ||| kIrqStip ||| kIrqSeip
def kIrqSLevelMask : BitVec 64 := kMidelegWmask
def kMedelegWmask : BitVec 64 := 0xf7ff

def kSatpModeBare : BitVec 64 := 0
def kSatpModeSv39 : BitVec 64 := 8
def kSatpModeSv48 : BitVec 64 := 9
def kSatpWmask : BitVec 64 := 0xf#64 <<< 60 ||| 0xffff#64 <<< 44 ||| (1#64 <<< 44 - 1)

def kIntBit : BitVec 64 := 0x8000000000000000

def kExFetchMisaligned : BitVec 64 := 0
def kExFetchFault : BitVec 64 := 1
def kExIllegal : BitVec 64 := 2
def kExBreakpoint : BitVec 64 := 3
def kExLoadMisaligned : BitVec 64 := 4
def kExLoadFault : BitVec 64 := 5
def kExStoreMisaligned : BitVec 64 := 6
def kExStoreFault : BitVec 64 := 7
def kExUserEcall : BitVec 64 := 8
def kExSupervisorEcall : BitVec 64 := 9
def kExMachineEcall : BitVec 64 := 11
def kExFetchPageFault : BitVec 64 := 12
def kExLoadPageFault : BitVec 64 := 13
def kExStorePageFault : BitVec 64 := 15

structure RiscvTlbEntry where
  vpn : BitVec 64
  pbase : BitVec 64
  host : Option HostPtr
  gen : BitVec 64
  satp : BitVec 64
  mstatus : BitVec 64
  menvcfg : BitVec 64
  pmpGen : BitVec 32
  priv : BitVec 8
  eff : BitVec 8
  acc : Acc
  deriving DecidableEq, Repr

structure RiscvState where
  misa : BitVec 64
  mstatus : BitVec 64
  mie : BitVec 64
  mip : BitVec 64
  mtvec : BitVec 64
  mscratch : BitVec 64
  mepc : BitVec 64
  mcause : BitVec 64
  mtval : BitVec 64
  medeleg : BitVec 64
  mideleg : BitVec 64
  mcounteren : BitVec 64
  scounteren : BitVec 64
  mcycle : BitVec 64
  minstret : BitVec 64
  mcountinhibit : BitVec 64
  stvec : BitVec 64
  sscratch : BitVec 64
  sepc : BitVec 64
  scause : BitVec 64
  stval : BitVec 64
  satp : BitVec 64
  tselect : BitVec 64
  tcontrol : BitVec 64
  tdata1 : Nat → BitVec 64
  tdata2 : Nat → BitVec 64
  tdata3 : Nat → BitVec 64
  scontext : BitVec 64
  menvcfg : BitVec 64
  senvcfg : BitVec 64
  stimecmp : BitVec 64
  mnstatus : BitVec 64
  mhpmcounter : Nat → BitVec 64
  mhpmevent : Nat → BitVec 64
  pmpcfg : Nat → BitVec 64
  pmpaddr : Nat → BitVec 64
  tlb : Nat → RiscvTlbEntry
  tlbGen : BitVec 64
  tlbClock : BitVec 32
  pmpGen : BitVec 32
  priv : BitVec 8
  frm : BitVec 8
  fflags : BitVec 8
  counterWritten : CounterWritten
  resValid : Bool
  resAddr : BitVec 64
  trapSeq : BitVec 64
  trapSignal : BitVec 8

structure CpuState where
  gpr : BitVec 5 → BitVec 64
  fpr : BitVec 5 → BitVec 64
  pc : BitVec 64
  wait : Bool
  instCount : BitVec 64

structure Machine (D : Type) where
  cpu : CpuState
  rs : RiscvState
  w : World D

structure TrapRec where
  cause : BitVec 64
  tval : BitVec 64
  paddr : Option (BitVec 64)
  deriving DecidableEq, Repr

abbrev RvM (D : Type) := RaiseM TrapRec (Machine D)

/-- The part of such code that reaches the world only, and reads the control state. -/
abbrev WorldM (D : Type) := RaiseM TrapRec (World D)

variable {D : Type}

def raiseTrap {σ α : Type} (cause tval : BitVec 64) : RaiseM TrapRec σ α :=
  RaiseM.raise ⟨cause, tval, none⟩

def raisePaddr {σ α : Type} (cause tval paddr : BitVec 64) : RaiseM TrapRec σ α :=
  RaiseM.raise ⟨cause, tval, some paddr⟩

def Machine.setRs (m : Machine D) (rs : RiscvState) : Machine D := { m with rs := rs }

def Machine.setWorld (m : Machine D) (w : World D) : Machine D := { m with w := w }

def Machine.setPc (m : Machine D) (pc : BitVec 64) : Machine D :=
  { m with cpu := { m.cpu with pc := pc } }

def Machine.setWait (m : Machine D) (wait : Bool) : Machine D :=
  { m with cpu := { m.cpu with wait := wait } }

/-- `x[r] = v`. Cell 0 is an ordinary cell that the step clears before each instruction. -/
def Machine.setX (m : Machine D) (r : BitVec 5) (v : BitVec 64) : Machine D :=
  { m with cpu := { m.cpu with gpr := Function.update m.cpu.gpr r v } }

def Machine.setF (m : Machine D) (r : BitVec 5) (v : BitVec 64) : Machine D :=
  { m with cpu := { m.cpu with fpr := Function.update m.cpu.fpr r v } }

def onWorld {α : Type} (c : RiscvState → WorldM D α) : RvM D α := fun m =>
  match c m.rs m.w with
  | .ok a w => .ok a (m.setWorld w)
  | .raise t w => .raise t (m.setWorld w)
  | .fatal => .fatal

def RiscvTlbEntry.zero : RiscvTlbEntry :=
  ⟨0, 0, none, 0, 0, 0, 0, 0, 0, 0, .ifetch⟩

def riscvInit : RiscvState where
  misa := kMisaSupported
  mstatus := 2#64 <<< 32
  mie := 0
  mip := 0
  mtvec := 0
  mscratch := 0
  mepc := 0
  mcause := 0
  mtval := 0
  medeleg := 0
  mideleg := 0
  mcounteren := 0
  scounteren := 0
  mcycle := 0
  minstret := 0
  mcountinhibit := 0
  stvec := 0
  sscratch := 0
  sepc := 0
  scause := 0
  stval := 0
  satp := 0
  tselect := 0
  tcontrol := 0
  tdata1 := fun i => if i < kTrigCount then kTrigTypeMcontrol6 else 0
  tdata2 := fun _ => 0
  tdata3 := fun _ => 0
  scontext := 0
  menvcfg := 0
  senvcfg := 0
  stimecmp := ~~~0
  mnstatus := 0
  mhpmcounter := fun _ => 0
  mhpmevent := fun _ => 0
  pmpcfg := fun _ => 0
  pmpaddr := fun _ => 0
  tlb := fun _ => .zero
  tlbGen := 1
  tlbClock := 0
  pmpGen := 0
  priv := kPrivMachine
  frm := 0
  fflags := 0
  counterWritten := .none
  resValid := false
  resAddr := 0
  trapSeq := 0
  trapSignal := 0

def Machine.init (w : World D) (pc : BitVec 64) : Machine D where
  cpu := ⟨fun _ => 0, fun _ => 0, pc, false, 0⟩
  rs := riscvInit
  w := w

end Cemu.Rv64
