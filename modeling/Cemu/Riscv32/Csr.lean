import Cemu.Riscv32.Trigger

/-!
# riscv32: control and status registers

`csr.c`: trap entry and return, interrupt delivery, and the CSR file. Five kinds of register are 64
bits wide and appear as two CSRs each; every case that reads or writes a half has its own masking
expression, kept as the source has it.
-/

namespace Cemu.Rv32

open Function

open Rv64

variable {D : Type}

def mipAll (m : Machine D) : BitVec 64 := m.rs.mip ||| m.w.ds.extIrq

variable (s : Riscv32State)

def trapToS (cause : BitVec 64) : Bool :=
  let delegSrc := if cause &&& kIntBit ≠ 0 then s.mideleg else s.medeleg
  decide (delegSrc >>> (cause &&& 0xfff).toNat &&& 1 ≠ 0) && decide (s.priv < kPrivMachine)

def riscv32Trap (pc : BitVec 64) (s : Riscv32State) (cause tval : BitVec 64) :
    BitVec 64 × Riscv32State :=
  let isInt := decide (cause &&& kIntBit ≠ 0)
  if trapToS s cause then
    let st := copyFlag s.mstatus kMstatusSie kMstatusSpie &&& ~~~kMstatusSie
    let st := (st &&& ~~~kMstatusSpp) ||| (if s.priv = kPrivSupervisor then kMstatusSpp else 0)
    (low (vectorBase s.stvec cause isInt),
      { s with sepc := low pc, scause := low cause, stval := low tval, mstatus := st,
               priv := kPrivSupervisor })
  else
    let st := copyFlag s.mstatus kMstatusMie kMstatusMpie &&& ~~~kMstatusMie
    let st := (st &&& ~~~kMstatusMppMask) ||| s.priv.setWidth 64 <<< 11
    (low (vectorBase s.mtvec cause isInt),
      { s with mepc := low pc, mcause := low cause, mtval := low tval, mstatus := st,
               priv := kPrivMachine })

def riscv32SyncTimer (m : Machine D) : Machine D :=
  match m.w.timer with
  | some now =>
    if m.rs.stimecmp ≠ ~~~0 then
      m.setWorld (riscvSetExtIrq m.w kIrqStip (decide (m.rs.stimecmp ≤ now)))
    else m
  | none => m

def takeInterrupt (id : Nat) : Bool :=
  if s.mideleg >>> id &&& 1 ≠ 0 then
    if s.priv = kPrivSupervisor then decide (s.mstatus &&& kMstatusSie ≠ 0)
    else decide (s.priv < kPrivSupervisor)
  else
    if s.priv = kPrivMachine then decide (s.mstatus &&& kMstatusMie ≠ 0)
    else decide (s.priv < kPrivMachine)

def riscv32DeliverInterrupt (m : Machine D) : Machine D :=
  let pending := mipAll m &&& m.rs.mie
  match kOrder.find? fun id => decide (pending >>> id &&& 1 ≠ 0) && takeInterrupt m.rs id with
  | some id =>
    let (base, rs) := riscv32Trap m.cpu.pc m.rs (kIntBit ||| BitVec.ofNat 64 id) 0
    (m.setRs rs).setPc (low base)
  | none => m

def returnTarget (epc : BitVec 64) : BitVec 64 :=
  let target := epc &&& ~~~1
  low (if s.misa &&& kMisaC = 0 then target &&& ~~~2 else target)

def riscv32Mret : BitVec 64 × Riscv32State :=
  let st := copyFlag s.mstatus kMstatusMpie kMstatusMie ||| kMstatusMpie
  let mpp := (st &&& kMstatusMppMask) >>> 11
  let st := if mpp ≠ kPrivMachine.setWidth 64 then st &&& ~~~kMstatusMprv else st
  (returnTarget s s.mepc, { s with mstatus := st &&& ~~~kMstatusMppMask, priv := mpp.setWidth 8 })

def riscv32Sret : BitVec 64 × Riscv32State :=
  let st := (copyFlag s.mstatus kMstatusSpie kMstatusSie ||| kMstatusSpie) &&& ~~~kMstatusMprv
  (returnTarget s s.sepc,
    { s with mstatus := st &&& ~~~kMstatusSpp,
             priv := if st &&& kMstatusSpp ≠ 0 then kPrivSupervisor else kPrivUser })

/-! ### The CSR file -/

inductive Csr where
  | fflags | frm | fcsr
  | sstatus | sie | stvec | scounteren | senvcfg | senvcfgh | stimecmp | stimecmph
  | sscratch | sepc | scause | stval | sip | satp
  | mstatus | misa | medeleg | mideleg | mie | mtvec | mcounteren | menvcfg
  | mstatush | medelegh | menvcfgh | mcountinhibit
  | mscratch | mepc | mcause | mtval | mip
  | scontext | tselect | tdata1 | tdata2 | tdata3 | tinfo | tcontrol | mnstatus
  | mvendorid | marchid | mimpid | mhartid
  | mhpmcounter (k : Nat)
  | mhpmcounterh (k : Nat)
  | mhpmevent (k : Nat)
  | pmpcfg (k : Nat)
  | pmpaddr (k : Nat)
  deriving DecidableEq, Repr

def csrTable : List (BitVec 64 × Csr) :=
  [(0x001, .fflags), (0x002, .frm), (0x003, .fcsr),
   (0x100, .sstatus), (0x104, .sie), (0x105, .stvec), (0x106, .scounteren), (0x10A, .senvcfg),
   (0x11A, .senvcfgh), (0x14D, .stimecmp), (0x15D, .stimecmph), (0x140, .sscratch),
   (0x141, .sepc), (0x142, .scause), (0x143, .stval), (0x144, .sip), (0x180, .satp),
   (0x300, .mstatus), (0x301, .misa), (0x302, .medeleg), (0x303, .mideleg), (0x304, .mie),
   (0x305, .mtvec), (0x306, .mcounteren), (0x30A, .menvcfg), (0x310, .mstatush),
   (0x312, .medelegh), (0x31A, .menvcfgh), (0x320, .mcountinhibit),
   (0x340, .mscratch), (0x341, .mepc), (0x342, .mcause), (0x343, .mtval), (0x344, .mip),
   (0x5A8, .scontext), (0x7A0, .tselect), (0x7A1, .tdata1), (0x7A2, .tdata2), (0x7A3, .tdata3),
   (0x7A4, .tinfo), (0x7A5, .tcontrol), (0x744, .mnstatus),
   (0xF11, .mvendorid), (0xF12, .marchid), (0xF13, .mimpid), (0xF14, .mhartid)]

/-- The `default` branch: the ranges whose CSR number is turned into an array index. -/
def csrRange (addr : BitVec 64) : Option Csr :=
  if 0xB03 ≤ addr ∧ addr ≤ 0xB03 + 15 then some (.mhpmcounter (addr - 0xB03).toNat)
  else if 0xB83 ≤ addr ∧ addr ≤ 0xB83 + 15 then some (.mhpmcounterh (addr - 0xB83).toNat)
  else if 0x323 ≤ addr ∧ addr ≤ 0x323 + 15 then some (.mhpmevent (addr - 0x323).toNat)
  else if 0x3A0 ≤ addr ∧ addr ≤ 0x3A3 then some (.pmpcfg (addr - 0x3A0).toNat)
  else if 0x3B0 ≤ addr ∧ addr ≤ 0x3BF then some (.pmpaddr (addr - 0x3B0).toNat)
  else none

def csrOf (addr : BitVec 64) : Option Csr :=
  match csrTable.lookup addr with
  | some c => some c
  | none => csrRange addr

def counterGate (addr : BitVec 64) : BitVec 64 :=
  if addr = 0xC00 ∨ addr = 0xC80 then 1
  else if addr = 0xC01 ∨ addr = 0xC81 then 2
  else if addr = 0xC02 ∨ addr = 0xC82 then 4
  else 0

/-- The counter CSRs; `none` is `-1`, after which the read goes on to the switch. The performance
counters are read here too. -/
def readCounter (m : Machine D) (addr : BitVec 64) : Option (BitVec 64) :=
  let gate := counterGate addr
  let time := m.w.timer.getD m.rs.mcycle
  if m.rs.priv < kPrivMachine ∧ gate = 0 then none
  else if m.rs.priv < kPrivMachine ∧ m.rs.mcounteren &&& gate = 0 then none
  else if m.rs.priv < kPrivMachine ∧ m.rs.priv = kPrivUser ∧ m.rs.scounteren &&& gate = 0 then
    none
  else if addr = 0xB00 ∨ addr = 0xC00 then some (low m.rs.mcycle)
  else if addr = 0xB80 ∨ addr = 0xC80 then some (low (m.rs.mcycle >>> 32))
  else if addr = 0xB02 ∨ addr = 0xC02 then some (low m.rs.minstret)
  else if addr = 0xB82 ∨ addr = 0xC82 then some (low (m.rs.minstret >>> 32))
  else if addr = 0xC01 then some (low time)
  else if addr = 0xC81 then some (low (time >>> 32))
  else
    match csrRange addr with
    | some (.mhpmcounter k) => some (low (m.rs.mhpmcounter k))
    | some (.mhpmcounterh k) => some (low (m.rs.mhpmcounter k >>> 32))
    | _ => none

def csrRead (m : Machine D) (c : Csr) : Option (BitVec 64) :=
  let s := m.rs
  match c with
  | .fflags => some (s.fflags.setWidth 64)
  | .frm => some (s.frm.setWidth 64)
  | .fcsr => some (s.frm.setWidth 64 <<< 5 ||| s.fflags.setWidth 64)
  | .sstatus =>
    let v := s.mstatus &&& kSstatusRmask
    some (if s.mstatus &&& kMstatusFs = kMstatusFs then v ||| kSstatusSd else v)
  | .sie => some (s.mie &&& kIrqSLevelMask)
  | .stvec => some s.stvec
  | .scounteren => some s.scounteren
  | .senvcfg => some s.senvcfg
  | .senvcfgh => some (low (s.senvcfg >>> 32))
  | .stimecmp => some (low s.stimecmp)
  | .stimecmph => some (low (s.stimecmp >>> 32))
  | .sscratch => some s.sscratch
  | .sepc => some (if s.misa &&& kMisaC ≠ 0 then s.sepc else s.sepc &&& ~~~2)
  | .scause => some s.scause
  | .stval => some s.stval
  | .sip => some (mipAll m &&& kIrqSLevelMask)
  | .satp =>
    if s.priv = kPrivSupervisor ∧ s.mstatus &&& kMstatusTvm ≠ 0 then none else some s.satp
  | .mstatus => some s.mstatus
  | .misa => some s.misa
  | .medeleg => some s.medeleg
  | .mideleg => some s.mideleg
  | .mie => some s.mie
  | .mtvec => some s.mtvec
  | .mcounteren => some s.mcounteren
  | .menvcfg => some s.menvcfg
  | .mstatush | .medelegh => some 0
  | .menvcfgh => some (low (s.menvcfg >>> 32))
  | .mcountinhibit => some s.mcountinhibit
  | .mscratch => some s.mscratch
  | .mepc => some (if s.misa &&& kMisaC ≠ 0 then s.mepc else s.mepc &&& ~~~2)
  | .mcause => some s.mcause
  | .mtval => some s.mtval
  | .mip => some (mipAll m)
  | .scontext => some s.scontext
  | .tselect => some s.tselect
  | .tdata1 => some (s.tdata1 s.tselect.toNat)
  | .tdata2 => some (s.tdata2 s.tselect.toNat)
  | .tdata3 => some (s.tdata3 s.tselect.toNat)
  | .tinfo => some (1#64 <<< 6)
  | .tcontrol => some s.tcontrol
  | .mnstatus => some s.mnstatus
  | .mvendorid | .marchid | .mimpid | .mhartid => some 0
  -- the counters have no case here: `ReadCounter` answers for them
  | .mhpmcounter _ | .mhpmcounterh _ => none
  | .mhpmevent k => some (low (s.mhpmevent k))
  | .pmpcfg k => some ((s.pmpcfg k).setWidth 64)
  | .pmpaddr k => some ((s.pmpaddr k).setWidth 64)

def riscv32CsrRead (m : Machine D) (addr : BitVec 64) : Option (BitVec 64) :=
  if m.rs.priv < csrPriv addr then none
  else
    match readCounter m addr with
    | some v => some v
    | none => (csrOf addr).bind (csrRead m)

def pmpCfg (i : Nat) : BitVec 8 :=
  (s.pmpcfg (i / 4) >>> (8 * (i % 4))).setWidth 8

def writePmpCfg (which : Nat) (val : BitVec 64) : Riscv32State :=
  let byte (b : Nat) : BitVec 32 :=
    (pmpCfgValue ((s.pmpcfg which >>> (8 * b)).setWidth 8)
      ((val >>> (8 * b)).setWidth 8)).setWidth 32
      <<< (8 * b)
  { s with pmpcfg := update s.pmpcfg which (byte 0 ||| byte 1 ||| byte 2 ||| byte 3),
           pmpGen := s.pmpGen + 1 }

/-- The address of entry `i` is immutable: the entry is locked, or it is the lower bound of
a locked TOR entry. -/
def pmpAddrLocked (i : Nat) : Prop :=
  let nextCfg := if i + 1 < kPmpCount then pmpCfg s (i + 1) else 0
  pmpCfg s i &&& kPmpL ≠ 0 ∨ (nextCfg &&& kPmpL ≠ 0 ∧ nextCfg &&& kPmpAMask = kPmpATor)

instance (s : Riscv32State) (i : Nat) : Decidable (pmpAddrLocked s i) :=
  inferInstanceAs (Decidable (_ ∨ _ ∧ _))

def writePmpAddr (i : Nat) (val : BitVec 64) : Riscv32State :=
  if kPmpCount ≤ i then s
  else if pmpAddrLocked s i then s
  else
    { s with pmpaddr := update s.pmpaddr i (val.setWidth 32), pmpGen := s.pmpGen + 1 }

def mergeLow (reg val : BitVec 64) : BitVec 64 := (reg &&& ~~~kXlenMask) ||| low val

def mergeHigh (reg val : BitVec 64) : BitVec 64 := (reg &&& kXlenMask) ||| low val <<< 32

def csrWrite (c : Csr) (val nextPc : BitVec 64) : Option Riscv32State :=
  match c with
  | .fflags => some { s with fflags := (val &&& 0x1f).setWidth 8 }
  | .frm => some { s with frm := (val &&& 7).setWidth 8 }
  | .fcsr =>
    some { s with frm := (val >>> 5 &&& 7).setWidth 8, fflags := (val &&& 0x1f).setWidth 8 }
  | .sstatus =>
    some { s with mstatus := (s.mstatus &&& ~~~kSstatusWmask) ||| (val &&& kSstatusWmask) }
  | .sie => some { s with mie := (s.mie &&& ~~~kIrqSLevelMask) ||| (val &&& kIrqSLevelMask) }
  | .stvec => some { s with stvec := low val &&& ~~~2 }
  | .scounteren => some { s with scounteren := low val }
  | .senvcfg => some { s with senvcfg := val &&& kSenvcfgWmask }
  | .senvcfgh => some s
  | .stimecmp => some { s with stimecmp := mergeLow s.stimecmp val }
  | .stimecmph => some { s with stimecmp := mergeHigh s.stimecmp val }
  | .sscratch => some { s with sscratch := low val }
  | .sepc => some { s with sepc := low val &&& ~~~1 }
  | .scause => some { s with scause := low val }
  | .stval => some { s with stval := low val }
  | .sip => some { s with mip := (s.mip &&& ~~~kIrqSsip) ||| (val &&& kIrqSsip) }
  | .satp =>
    -- both values of the one mode bit are implemented
    if s.priv = kPrivSupervisor ∧ s.mstatus &&& kMstatusTvm ≠ 0 then none
    else some { s with satp := val &&& kSatpWmask }
  | .mstatus =>
    let val := if val &&& kMstatusMppMask = 2#64 <<< 11 then val &&& ~~~kMstatusMppMask else val
    some { s with mstatus := (s.mstatus &&& ~~~kMstatusWmask) ||| (val &&& kMstatusWmask) }
  | .misa =>
    let misa := (val &&& kMisaSupported) ||| kMisaI
    -- clearing C must not misalign the next fetch
    let keepC := s.misa &&& kMisaC ≠ 0 ∧ misa &&& kMisaC = 0 ∧ nextPc % 4 ≠ 0
    some { s with misa := if keepC then misa ||| kMisaC else misa }
  | .medeleg => some { s with medeleg := low val &&& kMedelegWmask }
  | .mideleg => some { s with mideleg := low val &&& kMidelegWmask }
  | .mie => some { s with mie := low val }
  | .mtvec => some { s with mtvec := low val &&& ~~~2 }
  | .mcounteren => some { s with mcounteren := low val }
  | .menvcfg => some { s with menvcfg := val &&& kMenvcfgWmask }
  | .mstatush | .medelegh => some s
  | .menvcfgh =>
    some { s with menvcfg := (s.menvcfg &&& kXlenMask) ||| (low val <<< 32 &&& kMenvcfgWmask) }
  | .mcountinhibit => some { s with mcountinhibit := low val }
  | .mscratch => some { s with mscratch := low val }
  | .mepc => some { s with mepc := low val &&& ~~~1 }
  | .mcause => some { s with mcause := low val }
  | .mtval => some { s with mtval := low val }
  | .mip =>
    let mask := kIrqSsip ||| kIrqStip ||| kIrqSeip
    some { s with mip := (s.mip &&& ~~~mask) ||| (val &&& mask) }
  | .scontext => some { s with scontext := low val }
  | .tselect => some { s with tselect := if val < 2 then val else 1 }
  | .tdata1 => some (riscv32TriggerWriteTdata1 s val)
  | .tdata2 => some { s with tdata2 := update s.tdata2 s.tselect.toNat (low val) }
  | .tdata3 => some (riscv32TriggerWriteTdata3 s val)
  | .tcontrol => some { s with tcontrol := low val &&& (kTcontrolMte ||| kTcontrolMpte) }
  | .mnstatus => some { s with mnstatus := low val }
  | .tinfo | .mvendorid | .marchid | .mimpid | .mhartid => none
  | .mhpmcounter k =>
    some { s with mhpmcounter := update s.mhpmcounter k (mergeLow (s.mhpmcounter k) val) }
  | .mhpmcounterh k =>
    some { s with mhpmcounter := update s.mhpmcounter k (mergeHigh (s.mhpmcounter k) val) }
  | .mhpmevent k => some { s with mhpmevent := update s.mhpmevent k (low val) }
  | .pmpcfg k => some (writePmpCfg s k val)
  | .pmpaddr k => some (writePmpAddr s k val)

def riscv32CsrWrite (addr val nextPc : BitVec 64) : Option Riscv32State :=
  if s.priv < csrPriv addr then none
  else if addr = 0xB00 then
    some { s with mcycle := mergeLow s.mcycle val, counterWritten := .mcycle }
  else if addr = 0xB80 then
    some { s with mcycle := mergeHigh s.mcycle val, counterWritten := .mcycle }
  else if addr = 0xB02 then
    some { s with minstret := mergeLow s.minstret val, counterWritten := .minstret }
  else if addr = 0xB82 then
    some { s with minstret := mergeHigh s.minstret val, counterWritten := .minstret }
  else (csrOf addr).bind fun c => csrWrite s c val nextPc

end Cemu.Rv32
