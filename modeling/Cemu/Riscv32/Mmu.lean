import Cemu.Riscv32.Csr

/-!
# riscv32: translation and physical memory protection

`mmu.c`: the riscv64 walk in Sv32's format, with 4-byte entries, two levels of ten bits and no
canonical-address check. `riscv32Translate` is cut along the same stages as riscv64's.
-/

namespace Cemu.Rv32

open Rv64 (Acc WorldM RiscvTlbEntry raiseTrap raisePaddr accessFaultCause pageFaultCause probe
  busRead busWrite pmpGrants kPmpAMask kPmpATor kPmpANa4 kPmpANapot kPmpL kPmpCount kPrivUser
  kPrivSupervisor kPrivMachine kMstatusMprv kMstatusMppMask kMstatusSum kMstatusMxr kMenvcfgAdue)

def kPteV : BitVec 32 := 1#32 <<< 0
def kPteR : BitVec 32 := 1#32 <<< 1
def kPteW : BitVec 32 := 1#32 <<< 2
def kPteX : BitVec 32 := 1#32 <<< 3
def kPteU : BitVec 32 := 1#32 <<< 4
def kPteA : BitVec 32 := 1#32 <<< 6
def kPteD : BitVec 32 := 1#32 <<< 7

def kTlbWays : Nat := 2

/-! ### PMP -/

variable (s : Riscv32State)

/-- The byte range of entry `i` as base and size; `none` for an inactive or empty one. -/
def pmpRegion (i : Nat) : Option (BitVec 64 × BitVec 64) :=
  let a := pmpCfg s i &&& kPmpAMask
  let addr : BitVec 64 := (s.pmpaddr i).setWidth 64
  if a = kPmpATor then
    let lo : BitVec 64 := if 0 < i then (s.pmpaddr (i - 1) &&& ~~~3).setWidth 64 else 0
    let hi := addr &&& 0xfffffffc
    if hi ≤ lo then none else some (lo <<< 2, (hi - lo) <<< 2)
  else if a = kPmpANa4 then some (addr <<< 2, 4)
  else if a = kPmpANapot then
    let inv : BitVec 32 := ~~~s.pmpaddr i
    if inv = 0 then some (0, kSv32PhysSize)
    else
      let n := Rv64.countTrailing (inv.setWidth 64) 64 0
      some (addr >>> n <<< (n + 2), 1#64 <<< (n + 3))
  else none

def pmpScan (s : Riscv32State) (addr len : BitVec 64) (acc : Acc) (mode : BitVec 8) :
    List Nat → Bool → Bool
  | [], active => !active || decide (mode = kPrivMachine)
  | i :: rest, active =>
    match pmpRegion s i with
    | none => pmpScan s addr len acc mode rest active
    | some (base, size) =>
      if ¬ (addr < base + size ∧ base < addr + len) then pmpScan s addr len acc mode rest true
      -- the first entry that touches the access decides; straddling it is denied
      else if ¬ (base ≤ addr ∧ addr + len ≤ base + size) then false
      else if mode = kPrivMachine ∧ pmpCfg s i &&& kPmpL = 0 then true
      else pmpGrants (pmpCfg s i) acc

def riscv32PmpAllowed (addr : BitVec 64) (len : Nat) (acc : Acc) (mode : BitVec 8) : Bool :=
  pmpScan s addr (BitVec.ofNat 64 len) acc mode (List.range kPmpCount) false

/-! ### The walk -/

variable {D : Type}

def pteRead (pteAddr : BitVec 64) (acc : Acc) : WorldM D (BitVec 32) :=
  if !riscv32PmpAllowed s pteAddr kSv32PteSize .read kPrivSupervisor then
    raisePaddr (accessFaultCause acc) pteAddr pteAddr
  else do
    match ← probe pteAddr kSv32PteSize with
    | none => raisePaddr (accessFaultCause acc) pteAddr pteAddr
    | some _ =>
      let v ← busRead pteAddr kSv32PteSize
      pure (v.setWidth 32)

def effPriv (acc : Acc) : BitVec 8 :=
  if s.mstatus &&& kMstatusMprv ≠ 0 ∧ acc ≠ .ifetch then
    ((s.mstatus &&& kMstatusMppMask) >>> 11).setWidth 8
  else s.priv

def satpMode : BitVec 64 := s.satp >>> 31 &&& 1

def isBare (acc : Acc) : Bool :=
  decide (effPriv s acc = kPrivMachine) || decide (satpMode s = kSatpModeBare)

def pteAddrAt (vaddr : BitVec 64) (level : Nat) (ppnBase : BitVec 64) : BitVec 64 :=
  ppnBase <<< kSv32PageShift +
    (vaddr >>> (kSv32PageShift + kSv32VpnBits * level) &&& kSv32VpnMask) * 4

def pteInvalid (pte : BitVec 32) : Bool :=
  decide (pte &&& kPteV = 0) || (decide (pte &&& kPteR = 0) && decide (pte &&& kPteW ≠ 0))

def pteLeaf (pte : BitVec 32) : Bool := decide (pte &&& (kPteR ||| kPteX) ≠ 0)

def ptePpn (pte : BitVec 32) : BitVec 64 := (pte >>> 10).setWidth 64 &&& kSatpPpnMask

/-- Where the walk ended: the last entry read and the level of the loop variable. -/
structure Walk where
  pteAddr : BitVec 64
  pte : BitVec 32
  level : Int
  deriving DecidableEq, Repr

/-- The loop over the levels below `n`. It leaves at a leaf; running out of levels leaves the
last pointer entry, at level `-1`. -/
def walkFrom (s : Riscv32State) (vaddr : BitVec 64) (acc : Acc) :
    (n : Nat) → (ppnBase pteAddr : BitVec 64) → (pte : BitVec 32) → WorldM D Walk
  | 0, _, pteAddr, pte => pure ⟨pteAddr, pte, -1⟩
  | n + 1, ppnBase, _, _ => do
    let pteAddr := pteAddrAt vaddr n ppnBase
    let pte ← pteRead s pteAddr acc
    if pteInvalid pte then raiseTrap (pageFaultCause acc) vaddr
    else if pteLeaf pte then pure ⟨pteAddr, pte, n⟩
    else walkFrom s vaddr acc n (ptePpn pte) pteAddr pte

def ptePermits (eff : BitVec 8) (acc : Acc) (pte : BitVec 32) : Bool :=
  let userOk := !(decide (eff = kPrivUser) && decide (pte &&& kPteU = 0))
  let sumOk := !(decide (pte &&& kPteU ≠ 0) && decide (eff = kPrivSupervisor) &&
    (decide (s.mstatus &&& kMstatusSum = 0) || decide (acc = .ifetch)))
  userOk && sumOk &&
    match acc with
    | .ifetch => decide (pte &&& kPteX ≠ 0)
    | .read => decide (pte &&& kPteR ≠ 0) ||
        (decide (s.mstatus &&& kMstatusMxr ≠ 0) && decide (pte &&& kPteX ≠ 0))
    | .write | .amo => decide (pte &&& kPteW ≠ 0)

def adUpdate (acc : Acc) (pte : BitVec 32) : Option (BitVec 32) :=
  let isStore := acc = .write ∨ acc = .amo
  if isStore ∧ pte &&& kPteD = 0 ∧ s.menvcfg &&& kMenvcfgAdue = 0 then none
  else
    let new := if isStore ∧ pte &&& kPteD = 0 then pte ||| kPteD else pte
    some (if pte &&& kPteA = 0 then new ||| kPteA else new)

def leafPaddr (vaddr : BitVec 64) (pte : BitVec 32) (level : Int) : Option (BitVec 64) :=
  let ppn := ptePpn pte
  if 0 < level then
    if ppn &&& kSv32VpnMask ≠ 0 then none
    else some ((ppn &&& ~~~kSv32VpnMask) <<< kSv32PageShift ||| (vaddr &&& kSv32SuperpageMask))
  else some (ppn <<< kSv32PageShift ||| (vaddr &&& kSv32OffsetMask))

def writeBack (vaddr : BitVec 64) (acc : Acc) (pteAddr : BitVec 64) (pte new : BitVec 32) :
    WorldM D Unit :=
  if new = pte then pure ()
  else do
    match ← probe pteAddr kSv32PteSize with
    | none => raisePaddr (accessFaultCause acc) vaddr pteAddr
    | some _ => busWrite pteAddr kSv32PteSize (new.setWidth 64)

def satpRoot : BitVec 64 := s.satp &&& kSatpPpnMask

/-- What happens at the end of the walk: permissions, the accessed and dirty bits, and the
physical address. -/
def useLeaf (vaddr : BitVec 64) (acc : Acc) (eff : BitVec 8) (leaf : Walk) : WorldM D (BitVec 64) :=
  if !ptePermits s eff acc leaf.pte then raiseTrap (pageFaultCause acc) vaddr
  else
    match adUpdate s acc leaf.pte with
    | none => raiseTrap (pageFaultCause acc) vaddr
    | some new => do
      writeBack vaddr acc leaf.pteAddr leaf.pte new
      match leafPaddr vaddr new leaf.level with
      | none => raiseTrap (pageFaultCause acc) vaddr
      | some paddr => pure paddr

def walkPage (vaddr : BitVec 64) (acc : Acc) (eff : BitVec 8) : WorldM D (BitVec 64) := do
  let leaf ← walkFrom s vaddr acc kSv32Levels (satpRoot s) 0 0
  useLeaf s vaddr acc eff leaf

/-! ### The translation cache -/

def tlbBase (vpn : BitVec 64) (acc : Acc) : Nat :=
  let set := (vpn ^^^ acc.code * 0x9E3779B97F4A7C15).setWidth 32 &&& 0x1ff
  set.toNat * kTlbWays

/-- The entry was made for this page and class, in the context the machine is in now. -/
def tlbMatches (vaddr : BitVec 64) (acc : Acc) (e : RiscvTlbEntry) : Bool :=
  decide (e.gen = s.tlbGen) && decide (e.vpn = vaddr >>> kSv32PageShift) && decide (e.acc = acc) &&
    decide (e.satp = s.satp) && decide (e.priv = s.priv) && decide (e.eff = effPriv s acc) &&
    decide (e.mstatus = s.mstatus &&& (kMstatusSum ||| kMstatusMxr)) &&
    decide (e.menvcfg = s.menvcfg &&& kMenvcfgAdue) && decide (e.pmpGen = s.pmpGen)

def tlbLookup (vaddr : BitVec 64) (acc : Acc) : Option RiscvTlbEntry :=
  let base := tlbBase (vaddr >>> kSv32PageShift) acc
  if tlbMatches s vaddr acc (s.tlb base) then some (s.tlb base)
  else if tlbMatches s vaddr acc (s.tlb (base + 1)) then some (s.tlb (base + 1))
  else none

def tlbVictim (base : Nat) : Nat :=
  if (s.tlb base).gen ≠ s.tlbGen then base
  else if (s.tlb (base + 1)).gen ≠ s.tlbGen then base + 1
  else base + (s.tlbClock &&& 1).toNat

def tlbEntryFor (vaddr : BitVec 64) (acc : Acc) (paddr : BitVec 64)
    (host : Option HostPtr) : RiscvTlbEntry where
  vpn := vaddr >>> kSv32PageShift
  pbase := paddr &&& ~~~kSv32OffsetMask
  host := host
  gen := s.tlbGen
  satp := s.satp
  mstatus := s.mstatus &&& (kMstatusSum ||| kMstatusMxr)
  menvcfg := s.menvcfg &&& kMenvcfgAdue
  pmpGen := s.pmpGen
  priv := s.priv
  eff := effPriv s acc
  acc := acc

def tlbFill (vaddr : BitVec 64) (acc : Acc) (paddr : BitVec 64)
    (host : Option HostPtr) : Riscv32State :=
  let base := tlbBase (vaddr >>> kSv32PageShift) acc
  let full := (s.tlb base).gen = s.tlbGen ∧ (s.tlb (base + 1)).gen = s.tlbGen
  { s with
    tlb := Function.update s.tlb (tlbVictim s base) (tlbEntryFor s vaddr acc paddr host)
    tlbClock := if full then s.tlbClock + 1 else s.tlbClock }

section

variable (vaddr : BitVec 64) (size : Nat) (acc : Acc)

def translateBare : RvM D (BitVec 64 × Option HostPtr) := do
  let m ← RaiseM.get
  if !riscv32PmpAllowed m.rs vaddr size acc m.rs.priv then
    raisePaddr (accessFaultCause acc) vaddr vaddr
  else pure (vaddr, busRamPage m.w.bus (vaddr &&& ~~~kSv32OffsetMask))

def translateMiss (eff : BitVec 8) : RvM D (BitVec 64 × Option HostPtr) := do
  let paddr ← onWorld fun s => walkPage s vaddr acc eff
  let m ← RaiseM.get
  if !riscv32PmpAllowed m.rs paddr size acc m.rs.priv then
    raisePaddr (accessFaultCause acc) vaddr paddr
  else
    let host := busRamPage m.w.bus (paddr &&& ~~~kSv32OffsetMask)
    RaiseM.modify fun m => m.setRs (tlbFill m.rs vaddr acc paddr host)
    pure (paddr, host)

def translateLow : RvM D (BitVec 64 × Option HostPtr) := do
  let m ← RaiseM.get
  if isBare m.rs acc then translateBare vaddr size acc
  else
    match tlbLookup m.rs vaddr acc with
    | some e => pure (e.pbase ||| (vaddr &&& kSv32OffsetMask), e.host)
    | none => translateMiss vaddr size acc (effPriv m.rs acc)

def riscv32Translate : RvM D (BitVec 64 × Option HostPtr) :=
  translateLow (vaddr &&& kXlenMask) size acc

end

end Cemu.Rv32
