import Cemu.Riscv64.Trigger

/-!
# riscv64: control and status registers

`csr.c`: trap entry and return, interrupt delivery, and the CSR file. The switch on the
CSR number is `csrOf`; the bodies of its cases follow the source one by one. Both PMP
arrays are indexed by arithmetic on the CSR number.
-/

namespace Cemu.Rv64

open Function

variable {D : Type}

def mipAll (m : Machine D) : BitVec 64 := m.rs.mip ||| m.w.ds.extIrq

def riscvSetExtIrq (w : World D) (bit : BitVec 64) (level : Bool) : World D :=
  { w with ds := { w.ds with
    extIrq := if level then w.ds.extIrq ||| bit else w.ds.extIrq &&& ~~~bit } }

def copyFlag (st src dst : BitVec 64) : BitVec 64 :=
  (st &&& ~~~dst) ||| (if st &&& src ≠ 0 then dst else 0)

def vectorBase (tvec cause : BitVec 64) (isInt : Bool) : BitVec 64 :=
  let base := tvec &&& ~~~3
  if tvec &&& 3 = 1 ∧ isInt then base + 4 * (cause &&& 0xf) else base

variable (s : RiscvState)

def trapToS (cause : BitVec 64) : Bool :=
  let delegSrc := if cause &&& kIntBit ≠ 0 then s.mideleg else s.medeleg
  decide (delegSrc >>> (cause &&& 0xfff).toNat &&& 1 ≠ 0) && decide (s.priv < kPrivMachine)

def riscvTrap (pc : BitVec 64) (s : RiscvState) (cause tval : BitVec 64) :
    BitVec 64 × RiscvState :=
  let isInt := decide (cause &&& kIntBit ≠ 0)
  if trapToS s cause then
    let st := copyFlag s.mstatus kMstatusSie kMstatusSpie &&& ~~~kMstatusSie
    let st := (st &&& ~~~kMstatusSpp) ||| (if s.priv = kPrivSupervisor then kMstatusSpp else 0)
    (vectorBase s.stvec cause isInt,
      { s with sepc := pc, scause := cause, stval := tval, mstatus := st,
               priv := kPrivSupervisor })
  else
    let st := copyFlag s.mstatus kMstatusMie kMstatusMpie &&& ~~~kMstatusMie
    let st := (st &&& ~~~kMstatusMppMask) ||| s.priv.setWidth 64 <<< 11
    (vectorBase s.mtvec cause isInt,
      { s with mepc := pc, mcause := cause, mtval := tval, mstatus := st,
               priv := kPrivMachine })

def riscvSyncTimer (m : Machine D) : Machine D :=
  match m.w.timer with
  | some now =>
    if m.rs.stimecmp ≠ ~~~0 then
      m.setWorld (riscvSetExtIrq m.w kIrqStip (decide (m.rs.stimecmp ≤ now)))
    else m
  | none => m

def kOrder : List Nat := [11, 3, 7, 9, 1, 5]

def takeInterrupt (id : Nat) : Bool :=
  if s.mideleg >>> id &&& 1 ≠ 0 then
    if s.priv = kPrivSupervisor then decide (s.mstatus &&& kMstatusSie ≠ 0)
    else decide (s.priv < kPrivSupervisor)
  else
    if s.priv = kPrivMachine then decide (s.mstatus &&& kMstatusMie ≠ 0)
    else decide (s.priv < kPrivMachine)

def riscvDeliverInterrupt (m : Machine D) : Machine D :=
  let pending := mipAll m &&& m.rs.mie
  match kOrder.find? fun id => decide (pending >>> id &&& 1 ≠ 0) && takeInterrupt m.rs id with
  | some id =>
    let (base, rs) := riscvTrap m.cpu.pc m.rs (kIntBit ||| BitVec.ofNat 64 id) 0
    (m.setRs rs).setPc base
  | none => m

def returnTarget (epc : BitVec 64) : BitVec 64 :=
  let target := epc &&& ~~~1
  if s.misa &&& kMisaC = 0 then target &&& ~~~2 else target

def riscvMret : BitVec 64 × RiscvState :=
  let st := copyFlag s.mstatus kMstatusMpie kMstatusMie ||| kMstatusMpie
  let mpp := (st &&& kMstatusMppMask) >>> 11
  let st := if mpp ≠ kPrivMachine.setWidth 64 then st &&& ~~~kMstatusMprv else st
  (returnTarget s s.mepc, { s with mstatus := st &&& ~~~kMstatusMppMask, priv := mpp.setWidth 8 })

def riscvSret : BitVec 64 × RiscvState :=
  let st := (copyFlag s.mstatus kMstatusSpie kMstatusSie ||| kMstatusSpie) &&& ~~~kMstatusMprv
  (returnTarget s s.sepc,
    { s with mstatus := st &&& ~~~kMstatusSpp,
             priv := if st &&& kMstatusSpp ≠ 0 then kPrivSupervisor else kPrivUser })

/-! ### The CSR file -/

inductive Csr where
  | fflags | frm | fcsr
  | sstatus | sie | stvec | scounteren | senvcfg | stimecmp
  | sscratch | sepc | scause | stval | sip | satp
  | mstatus | misa | medeleg | mideleg | mie | mtvec | mcounteren | menvcfg | mcountinhibit
  | mscratch | mepc | mcause | mtval | mip
  | scontext | tselect | tdata1 | tdata2 | tdata3 | tinfo | tcontrol | mnstatus
  | mvendorid | marchid | mimpid | mhartid
  | mhpmcounter (k : Nat)
  | mhpmevent (k : Nat)
  | pmpcfg (k : Nat)
  | pmpaddr (k : Nat)
  deriving DecidableEq, Repr

def csrTable : List (BitVec 64 × Csr) :=
  [(0x001, .fflags), (0x002, .frm), (0x003, .fcsr),
   (0x100, .sstatus), (0x104, .sie), (0x105, .stvec), (0x106, .scounteren), (0x10A, .senvcfg),
   (0x14D, .stimecmp), (0x140, .sscratch), (0x141, .sepc), (0x142, .scause), (0x143, .stval),
   (0x144, .sip), (0x180, .satp),
   (0x300, .mstatus), (0x301, .misa), (0x302, .medeleg), (0x303, .mideleg), (0x304, .mie),
   (0x305, .mtvec), (0x306, .mcounteren), (0x30A, .menvcfg), (0x320, .mcountinhibit),
   (0x340, .mscratch), (0x341, .mepc), (0x342, .mcause), (0x343, .mtval), (0x344, .mip),
   (0x5A8, .scontext), (0x7A0, .tselect), (0x7A1, .tdata1), (0x7A2, .tdata2), (0x7A3, .tdata3),
   (0x7A4, .tinfo), (0x7A5, .tcontrol), (0x744, .mnstatus),
   (0xF11, .mvendorid), (0xF12, .marchid), (0xF13, .mimpid), (0xF14, .mhartid)]

/-- The `default` branch: the ranges whose CSR number is turned into an array index. -/
def csrRange (addr : BitVec 64) : Option Csr :=
  if 0xB03 ≤ addr ∧ addr ≤ 0xB03 + 15 then some (.mhpmcounter (addr - 0xB03).toNat)
  else if 0x323 ≤ addr ∧ addr ≤ 0x323 + 15 then some (.mhpmevent (addr - 0x323).toNat)
  else if 0x3A0 ≤ addr ∧ addr ≤ 0x3AE ∧ addr &&& 1 = 0 then
    some (.pmpcfg ((addr - 0x3A0) / 2).toNat)
  else if 0x3B0 ≤ addr ∧ addr ≤ 0x3BF then some (.pmpaddr (addr - 0x3B0).toNat)
  else none

def csrOf (addr : BitVec 64) : Option Csr :=
  match csrTable.lookup addr with
  | some c => some c
  | none => csrRange addr

def csrPriv (addr : BitVec 64) : BitVec 8 := (addr >>> 8 &&& 3).setWidth 8

def readCounter (m : Machine D) (addr : BitVec 64) : Option (BitVec 64) :=
  let gate : BitVec 64 :=
    if addr = 0xC00 then 1 else if addr = 0xC01 then 2 else if addr = 0xC02 then 4 else 0
  if m.rs.priv < kPrivMachine ∧ m.rs.mcounteren &&& gate = 0 then none
  else if m.rs.priv < kPrivMachine ∧ m.rs.priv = kPrivUser ∧ m.rs.scounteren &&& gate = 0 then
    none
  else if addr = 0xB00 ∨ addr = 0xC00 then some m.rs.mcycle
  else if addr = 0xB02 ∨ addr = 0xC02 then some m.rs.minstret
  else if addr = 0xC01 then some (m.w.timer.getD m.rs.mcycle)
  else none

/-- `s->pmpcfg[k]`. The array has two words and `pmpaddr` follows it in the struct, so a
larger index reads the address registers. -/
def pmpcfgWord (k : Nat) : BitVec 64 :=
  if k < 2 then s.pmpcfg k else s.pmpaddr (k - 2)

def setPmpcfgWord (k : Nat) (v : BitVec 64) : RiscvState :=
  if k < 2 then { s with pmpcfg := update s.pmpcfg k v }
  else { s with pmpaddr := update s.pmpaddr (k - 2) v }

def csrRead (m : Machine D) (c : Csr) : Option (BitVec 64) :=
  let s := m.rs
  match c with
  | .fflags => some (s.fflags.setWidth 64)
  | .frm => some (s.frm.setWidth 64)
  | .fcsr => some (s.frm.setWidth 64 <<< 5 ||| s.fflags.setWidth 64)
  | .sstatus =>
    let v := s.mstatus &&& kSstatusRmask
    some (if s.mstatus &&& kMstatusFs = kMstatusFs then v ||| 1#64 <<< 63 else v)
  | .sie => some (s.mie &&& kIrqSLevelMask)
  | .stvec => some s.stvec
  | .scounteren => some s.scounteren
  | .senvcfg => some s.senvcfg
  | .stimecmp => some s.stimecmp
  | .sscratch => some s.sscratch
  | .sepc => some (if s.misa &&& kMisaC ≠ 0 then s.sepc else s.sepc &&& ~~~2)
  | .scause => some s.scause
  | .stval => some s.stval
  | .sip => some (mipAll m &&& kIrqSLevelMask)
  | .satp =>
    if s.priv = kPrivSupervisor ∧ s.mstatus &&& kMstatusTvm ≠ 0 then none else some s.satp
  | .mstatus => some s.mstatus
  | .misa => some s.misa
  | .medeleg => some s.medeleg
  | .mideleg => some s.mideleg
  | .mie => some s.mie
  | .mtvec => some s.mtvec
  | .mcounteren => some s.mcounteren
  | .menvcfg => some s.menvcfg
  | .mcountinhibit => some s.mcountinhibit
  | .mscratch => some s.mscratch
  | .mepc => some (if s.misa &&& kMisaC ≠ 0 then s.mepc else s.mepc &&& ~~~2)
  | .mcause => some s.mcause
  | .mtval => some s.mtval
  | .mip => some (mipAll m)
  | .scontext => some s.scontext
  | .tselect => some s.tselect
  | .tdata1 => some (s.tdata1 s.tselect.toNat)
  | .tdata2 => some (s.tdata2 s.tselect.toNat)
  | .tdata3 => some (s.tdata3 s.tselect.toNat)
  | .tinfo => some (1#64 <<< 6)
  | .tcontrol => some s.tcontrol
  | .mnstatus => some s.mnstatus
  | .mvendorid | .marchid | .mimpid | .mhartid => some 0
  | .mhpmcounter k => some (s.mhpmcounter k)
  | .mhpmevent k => some (s.mhpmevent k)
  | .pmpcfg k => some (pmpcfgWord s k)
  | .pmpaddr k => some (s.pmpaddr k)

def riscvCsrRead (m : Machine D) (addr : BitVec 64) : Option (BitVec 64) :=
  if m.rs.priv < csrPriv addr then none
  else
    match readCounter m addr with
    | some v => some v
    | none => (csrOf addr).bind (csrRead m)

def kPmpR : BitVec 8 := 1#8 <<< 0
def kPmpW : BitVec 8 := 1#8 <<< 1
def kPmpX : BitVec 8 := 1#8 <<< 2
def kPmpAMask : BitVec 8 := 3#8 <<< 3
def kPmpATor : BitVec 8 := 1#8 <<< 3
def kPmpANa4 : BitVec 8 := 2#8 <<< 3
def kPmpANapot : BitVec 8 := 3#8 <<< 3
def kPmpL : BitVec 8 := 1#8 <<< 7

/-- The byte a write of `cfg` leaves in an entry that holds `old`: a locked entry stays,
W needs R, and NA4 becomes NAPOT at this granularity. -/
def pmpCfgValue (old cfg : BitVec 8) : BitVec 8 :=
  if old &&& kPmpL ≠ 0 then old
  else
    let cfg := if cfg &&& kPmpR = 0 then cfg &&& ~~~kPmpW else cfg
    if cfg &&& kPmpAMask = kPmpANa4 then (cfg &&& ~~~kPmpAMask) ||| kPmpANapot else cfg

def writePmpCfg (which : Nat) (val : BitVec 64) : RiscvState :=
  let out := ByteMem.pack (fun b =>
    pmpCfgValue (ByteMem.byteOf (pmpcfgWord s which) b) (ByteMem.byteOf val b)) 8
  let s := setPmpcfgWord s which out
  { s with pmpGen := s.pmpGen + 1 }

def pmpCfg (i : Nat) : BitVec 8 := ByteMem.byteOf (s.pmpcfg (i / 8)) (i % 8)

/-- The address of entry `i` is immutable: the entry is locked, or it is the lower bound of
a locked TOR entry. -/
def pmpAddrLocked (i : Nat) : Prop :=
  let nextCfg := if i + 1 < kPmpCount then pmpCfg s (i + 1) else 0
  pmpCfg s i &&& kPmpL ≠ 0 ∨ (nextCfg &&& kPmpL ≠ 0 ∧ nextCfg &&& kPmpAMask = kPmpATor)

instance (s : RiscvState) (i : Nat) : Decidable (pmpAddrLocked s i) :=
  inferInstanceAs (Decidable (_ ∨ _ ∧ _))

def writePmpAddr (i : Nat) (val : BitVec 64) : RiscvState :=
  if kPmpCount ≤ i then s
  else if pmpAddrLocked s i then s
  else
    { s with pmpaddr := update s.pmpaddr i (val &&& (1#64 <<< 54 - 1)),
             pmpGen := s.pmpGen + 1 }

def csrWrite (c : Csr) (val nextPc : BitVec 64) : Option RiscvState :=
  match c with
  | .fflags => some { s with fflags := (val &&& 0x1f).setWidth 8 }
  | .frm => some { s with frm := (val &&& 7).setWidth 8 }
  | .fcsr =>
    some { s with frm := (val >>> 5 &&& 7).setWidth 8, fflags := (val &&& 0x1f).setWidth 8 }
  | .sstatus =>
    some { s with mstatus := (s.mstatus &&& ~~~kSstatusWmask) ||| (val &&& kSstatusWmask) }
  | .sie => some { s with mie := (s.mie &&& ~~~kIrqSLevelMask) ||| (val &&& kIrqSLevelMask) }
  | .stvec => some { s with stvec := val &&& ~~~2 }
  | .scounteren => some { s with scounteren := val }
  | .senvcfg => some { s with senvcfg := val &&& kSenvcfgWmask }
  | .stimecmp => some { s with stimecmp := val }
  | .sscratch => some { s with sscratch := val }
  | .sepc => some { s with sepc := val &&& ~~~1 }
  | .scause => some { s with scause := val }
  | .stval => some { s with stval := val }
  | .sip => some { s with mip := (s.mip &&& ~~~kIrqSsip) ||| (val &&& kIrqSsip) }
  | .satp =>
    let mode := val >>> 60 &&& 0xf
    if s.priv = kPrivSupervisor ∧ s.mstatus &&& kMstatusTvm ≠ 0 then none
    -- an unimplemented mode leaves the register alone
    else if mode ≠ kSatpModeBare ∧ mode ≠ kSatpModeSv39 ∧ mode ≠ kSatpModeSv48 then some s
    else some { s with satp := val &&& kSatpWmask }
  | .mstatus =>
    let val := if val &&& kMstatusMppMask = 2#64 <<< 11 then val &&& ~~~kMstatusMppMask else val
    let st := (s.mstatus &&& ~~~kMstatusWmask) ||| (val &&& kMstatusWmask)
    some { s with mstatus := (st &&& ~~~kMstatusUxlMask) ||| kMstatusUxlValue }
  | .misa =>
    let misa := (val &&& kMisaSupported) ||| kMisaI
    -- clearing C must not misalign the next fetch
    let keepC := s.misa &&& kMisaC ≠ 0 ∧ misa &&& kMisaC = 0 ∧ nextPc % 4 ≠ 0
    some { s with misa := if keepC then misa ||| kMisaC else misa }
  | .medeleg => some { s with medeleg := val &&& kMedelegWmask }
  | .mideleg => some { s with mideleg := val &&& kMidelegWmask }
  | .mie => some { s with mie := val }
  | .mtvec => some { s with mtvec := val &&& ~~~2 }
  | .mcounteren => some { s with mcounteren := val }
  | .menvcfg => some { s with menvcfg := val &&& kMenvcfgWmask }
  | .mcountinhibit => some { s with mcountinhibit := val }
  | .mscratch => some { s with mscratch := val }
  | .mepc => some { s with mepc := val &&& ~~~1 }
  | .mcause => some { s with mcause := val }
  | .mtval => some { s with mtval := val }
  | .mip =>
    let mask := kIrqSsip ||| kIrqStip ||| kIrqSeip
    some { s with mip := (s.mip &&& ~~~mask) ||| (val &&& mask) }
  | .scontext => some { s with scontext := val }
  | .tselect => some { s with tselect := if val < 2 then val else 1 }
  | .tdata1 => some (riscvTriggerWriteTdata1 s val)
  | .tdata2 => some { s with tdata2 := update s.tdata2 s.tselect.toNat val }
  | .tdata3 => some (riscvTriggerWriteTdata3 s val)
  | .tcontrol => some { s with tcontrol := val &&& (kTcontrolMte ||| kTcontrolMpte) }
  | .mnstatus => some { s with mnstatus := val }
  | .tinfo | .mvendorid | .marchid | .mimpid | .mhartid => none
  | .mhpmcounter k => some { s with mhpmcounter := update s.mhpmcounter k val }
  | .mhpmevent k => some { s with mhpmevent := update s.mhpmevent k val }
  | .pmpcfg k => some (writePmpCfg s k val)
  | .pmpaddr k => some (writePmpAddr s k val)

def riscvCsrWrite (addr val nextPc : BitVec 64) : Option RiscvState :=
  if s.priv < csrPriv addr then none
  else if addr = 0xB00 then some { s with mcycle := val, counterWritten := .mcycle }
  else if addr = 0xB02 then some { s with minstret := val, counterWritten := .minstret }
  else (csrOf addr).bind fun c => csrWrite s c val nextPc

theorem riscvCsrWrite_eq_some {s s' : RiscvState} {addr val nextPc : BitVec 64}
    (h : riscvCsrWrite s addr val nextPc = some s') :
    csrPriv addr ≤ s.priv ∧
      (s' = { s with mcycle := val, counterWritten := .mcycle } ∨
       s' = { s with minstret := val, counterWritten := .minstret } ∨
       ∃ c, csrOf addr = some c ∧ csrWrite s c val nextPc = some s') := by
  unfold riscvCsrWrite at h
  split at h
  · cases h
  rename_i hpriv
  refine ⟨BitVec.not_lt.mp hpriv, ?_⟩
  split at h
  · cases h
    exact .inl rfl
  split at h
  · cases h
    exact .inr (.inl rfl)
  · exact .inr (.inr (Option.bind_eq_some_iff.mp h))

theorem riscvCsrRead_eq_some {m : Machine D} {addr v : BitVec 64}
    (h : riscvCsrRead m addr = some v) : csrPriv addr ≤ m.rs.priv := by
  unfold riscvCsrRead at h
  split at h
  · cases h
  · next hpriv => exact BitVec.not_lt.mp hpriv

end Cemu.Rv64
