import Cemu.Riscv64.Csr

/-!
# riscv64: translation and physical memory protection

`mmu.c`. `riscvTranslate` is cut along its own stages: the translation cache, the walk,
the permission check, the accessed and dirty bits, the physical address of the leaf, the
final PMP check and the fill. Each stage reads what the source reads at that point.
-/

namespace Cemu.Rv64

def kPteV : BitVec 64 := 1#64 <<< 0
def kPteR : BitVec 64 := 1#64 <<< 1
def kPteW : BitVec 64 := 1#64 <<< 2
def kPteX : BitVec 64 := 1#64 <<< 3
def kPteU : BitVec 64 := 1#64 <<< 4
def kPteA : BitVec 64 := 1#64 <<< 6
def kPteD : BitVec 64 := 1#64 <<< 7
def kPteReserved : BitVec 64 := ~~~(1#64 <<< 54 - 1)

def kTlbWays : Nat := 2

/-! ### PMP -/

/-- `while (!(inv >> n & 1)) n++`; the fuel is the width, enough for every nonzero value. -/
def countTrailing (inv : BitVec 64) : Nat → Nat → Nat
  | 0, n => n
  | fuel + 1, n => if inv >>> n &&& 1 = 0 then countTrailing inv fuel (n + 1) else n

variable (s : RiscvState)

/-- The byte range of entry `i` as base and size; `none` for an inactive or empty one. -/
def pmpRegion (i : Nat) : Option (BitVec 64 × BitVec 64) :=
  let a := pmpCfg s i &&& kPmpAMask
  let addr := s.pmpaddr i
  if a = kPmpATor then
    let lo := if 0 < i then s.pmpaddr (i - 1) &&& ~~~3 else 0
    let hi := addr &&& ~~~3
    if hi ≤ lo then none else some (lo <<< 2, (hi - lo) <<< 2)
  else if a = kPmpANa4 then some (addr <<< 2, 4)
  else if a = kPmpANapot then
    if ~~~addr = 0 then some (0, ~~~0)
    else
      let n := countTrailing (~~~addr) 64 0
      some (addr >>> n <<< (n + 2), 1#64 <<< (n + 3))
  else none

def needR (acc : Acc) : Bool := decide (acc = .read) || decide (acc = .amo)
def needW (acc : Acc) : Bool := decide (acc = .write) || decide (acc = .amo)
def needX (acc : Acc) : Bool := decide (acc = .ifetch)

def pmpGrants (cfg : BitVec 8) (acc : Acc) : Bool :=
  !((needR acc && decide (cfg &&& kPmpR = 0)) || (needW acc && decide (cfg &&& kPmpW = 0)) ||
    (needX acc && decide (cfg &&& kPmpX = 0)))

def pmpScan (s : RiscvState) (addr len : BitVec 64) (acc : Acc) (mode : BitVec 8) :
    List Nat → Bool → Bool
  | [], active => !active || decide (mode = kPrivMachine)
  | i :: rest, active =>
    match pmpRegion s i with
    | none => pmpScan s addr len acc mode rest active
    | some (base, size) =>
      if ¬ (addr < base + size ∧ base < addr + len) then pmpScan s addr len acc mode rest true
      -- the first entry that touches the access decides; straddling it is denied
      else if ¬ (base ≤ addr ∧ addr + len ≤ base + size) then false
      else if mode = kPrivMachine ∧ pmpCfg s i &&& kPmpL = 0 then true
      else pmpGrants (pmpCfg s i) acc

def riscvPmpAllowed (addr : BitVec 64) (len : Nat) (acc : Acc) (mode : BitVec 8) : Bool :=
  pmpScan s addr (BitVec.ofNat 64 len) acc mode (List.range kPmpCount) false

/-! ### Bus accesses inside a step -/

variable {D : Type}

def accessFaultCause : Acc → BitVec 64
  | .ifetch => kExFetchFault
  | .read => kExLoadFault
  | _ => kExStoreFault

def pageFaultCause : Acc → BitVec 64
  | .ifetch => kExFetchPageFault
  | .read => kExLoadPageFault
  | _ => kExStorePageFault

def probe (addr : BitVec 64) (len : Nat) : WorldM D (Option BusRegion) := fun w =>
  .ok (w.busProbe addr len).1 (w.busProbe addr len).2

def busRead (addr : BitVec 64) (size : Nat) : WorldM D (BitVec 64) := fun w =>
  match w.busRead addr size with
  | some (v, w) => .ok v w
  | none => .fatal

def busWrite (addr : BitVec 64) (size : Nat) (val : BitVec 64) : WorldM D Unit := fun w =>
  match w.busWrite addr size val with
  | some w => .ok () w
  | none => .fatal

def pteRead (pteAddr : BitVec 64) (acc : Acc) : WorldM D (BitVec 64) :=
  if !riscvPmpAllowed s pteAddr 8 .read kPrivSupervisor then
    raisePaddr (accessFaultCause acc) pteAddr pteAddr
  else do
    match ← probe pteAddr 8 with
    | none => raisePaddr (accessFaultCause acc) pteAddr pteAddr
    | some _ => busRead pteAddr 8

/-! ### The walk -/

def effPriv (acc : Acc) : BitVec 8 :=
  if s.mstatus &&& kMstatusMprv ≠ 0 ∧ acc ≠ .ifetch then
    ((s.mstatus &&& kMstatusMppMask) >>> 11).setWidth 8
  else s.priv

def satpMode : BitVec 64 := s.satp >>> 60 &&& 0xf

def isBare (acc : Acc) : Bool :=
  decide (effPriv s acc = kPrivMachine) || decide (satpMode s = kSatpModeBare)

def walkLevels : Nat := if satpMode s = kSatpModeSv48 then 4 else 3

def isCanonical (vaddr : BitVec 64) : Bool :=
  if satpMode s = kSatpModeSv48 then decide ((vaddr <<< 16).sshiftRight 16 = vaddr)
  else decide ((vaddr <<< 25).sshiftRight 25 = vaddr)

def pteAddrAt (vaddr : BitVec 64) (level : Nat) (ppnBase : BitVec 64) : BitVec 64 :=
  ppnBase <<< 12 + (vaddr >>> (12 + 9 * level) &&& 0x1ff) * 8

def pteInvalid (pte : BitVec 64) : Bool :=
  decide (pte &&& kPteV = 0) || (decide (pte &&& kPteR = 0) && decide (pte &&& kPteW ≠ 0)) ||
    decide (pte &&& kPteReserved ≠ 0)

def pteLeaf (pte : BitVec 64) : Bool := decide (pte &&& (kPteR ||| kPteX) ≠ 0)

/-- Where the walk ended: the last entry read and the level of the loop variable. -/
structure Walk where
  pteAddr : BitVec 64
  pte : BitVec 64
  level : Int
  deriving DecidableEq, Repr

/-- The loop over the levels below `n`. It leaves at a leaf; running out of levels leaves the
last pointer entry, at level `-1`. -/
def walkFrom (s : RiscvState) (vaddr : BitVec 64) (acc : Acc) :
    (n : Nat) → (ppnBase pteAddr pte : BitVec 64) → WorldM D Walk
  | 0, _, pteAddr, pte => pure ⟨pteAddr, pte, -1⟩
  | n + 1, ppnBase, _, _ => do
    let pteAddr := pteAddrAt vaddr n ppnBase
    let pte ← pteRead s pteAddr acc
    if pteInvalid pte then raiseTrap (pageFaultCause acc) vaddr
    else if pteLeaf pte then pure ⟨pteAddr, pte, n⟩
    else walkFrom s vaddr acc n (pte >>> 10) pteAddr pte

def ptePermits (eff : BitVec 8) (acc : Acc) (pte : BitVec 64) : Bool :=
  let userOk := !(decide (eff = kPrivUser) && decide (pte &&& kPteU = 0))
  let sumOk := !(decide (pte &&& kPteU ≠ 0) && decide (eff = kPrivSupervisor) &&
    (decide (s.mstatus &&& kMstatusSum = 0) || decide (acc = .ifetch)))
  userOk && sumOk &&
    match acc with
    | .ifetch => decide (pte &&& kPteX ≠ 0)
    | .read => decide (pte &&& kPteR ≠ 0) ||
        (decide (s.mstatus &&& kMstatusMxr ≠ 0) && decide (pte &&& kPteX ≠ 0))
    | .write | .amo => decide (pte &&& kPteW ≠ 0)

def adUpdate (acc : Acc) (pte : BitVec 64) : Option (BitVec 64) :=
  let isStore := acc = .write ∨ acc = .amo
  if isStore ∧ pte &&& kPteD = 0 ∧ s.menvcfg &&& kMenvcfgAdue = 0 then none
  else
    let new := if isStore ∧ pte &&& kPteD = 0 then pte ||| kPteD else pte
    some (if pte &&& kPteA = 0 then new ||| kPteA else new)

def leafPaddr (vaddr pte : BitVec 64) (level : Int) : Option (BitVec 64) :=
  let ppn := pte >>> 10
  if 0 < level then
    let low : BitVec 64 := 1#64 <<< (9 * level.toNat) - 1
    if ppn &&& low ≠ 0 then none
    else
      let offMask : BitVec 64 := 1#64 <<< (12 + 9 * level.toNat) - 1
      some ((ppn &&& ~~~low) <<< 12 ||| (vaddr &&& offMask))
  else some (ppn <<< 12 ||| (vaddr &&& 0xfff))

def writeBack (vaddr : BitVec 64) (acc : Acc) (pteAddr pte new : BitVec 64) : WorldM D Unit :=
  if new = pte then pure ()
  else do
    match ← probe pteAddr 8 with
    | none => raisePaddr (accessFaultCause acc) vaddr pteAddr
    | some _ => busWrite pteAddr 8 new

def satpRoot : BitVec 64 := s.satp &&& (1#64 <<< 44 - 1)

/-- What happens at the end of the walk: permissions, the accessed and dirty bits, and the
physical address. -/
def useLeaf (vaddr : BitVec 64) (acc : Acc) (eff : BitVec 8) (leaf : Walk) : WorldM D (BitVec 64) :=
  if !ptePermits s eff acc leaf.pte then raiseTrap (pageFaultCause acc) vaddr
  else
    match adUpdate s acc leaf.pte with
    | none => raiseTrap (pageFaultCause acc) vaddr
    | some new => do
      writeBack vaddr acc leaf.pteAddr leaf.pte new
      match leafPaddr vaddr new leaf.level with
      | none => raiseTrap (pageFaultCause acc) vaddr
      | some paddr => pure paddr

def walkPage (vaddr : BitVec 64) (acc : Acc) (eff : BitVec 8) : WorldM D (BitVec 64) :=
  if !isCanonical s vaddr then raiseTrap (pageFaultCause acc) vaddr
  else do
    let leaf ← walkFrom s vaddr acc (walkLevels s) (satpRoot s) 0 0
    useLeaf s vaddr acc eff leaf

/-! ### The translation cache -/

def tlbBase (vpn : BitVec 64) (acc : Acc) : Nat :=
  let set := (vpn ^^^ acc.code * 0x9E3779B97F4A7C15).setWidth 32 &&& 0xff
  set.toNat * kTlbWays

/-- The entry was made for this page and class, in the context the machine is in now. -/
def tlbMatches (vaddr : BitVec 64) (acc : Acc) (e : RiscvTlbEntry) : Bool :=
  decide (e.gen = s.tlbGen) && decide (e.vpn = vaddr >>> 12) && decide (e.acc = acc) &&
    decide (e.satp = s.satp) && decide (e.priv = s.priv) && decide (e.eff = effPriv s acc) &&
    decide (e.mstatus = s.mstatus &&& (kMstatusSum ||| kMstatusMxr)) &&
    decide (e.menvcfg = s.menvcfg &&& kMenvcfgAdue) && decide (e.pmpGen = s.pmpGen)

def tlbLookup (vaddr : BitVec 64) (acc : Acc) : Option RiscvTlbEntry :=
  let base := tlbBase (vaddr >>> 12) acc
  if tlbMatches s vaddr acc (s.tlb base) then some (s.tlb base)
  else if tlbMatches s vaddr acc (s.tlb (base + 1)) then some (s.tlb (base + 1))
  else none

def tlbVictim (base : Nat) : Nat :=
  if (s.tlb base).gen ≠ s.tlbGen then base
  else if (s.tlb (base + 1)).gen ≠ s.tlbGen then base + 1
  else base + (s.tlbClock &&& 1).toNat

def tlbEntryFor (vaddr : BitVec 64) (acc : Acc) (paddr : BitVec 64)
    (host : Option HostPtr) : RiscvTlbEntry where
  vpn := vaddr >>> 12
  pbase := paddr &&& ~~~0xfff
  host := host
  gen := s.tlbGen
  satp := s.satp
  mstatus := s.mstatus &&& (kMstatusSum ||| kMstatusMxr)
  menvcfg := s.menvcfg &&& kMenvcfgAdue
  pmpGen := s.pmpGen
  priv := s.priv
  eff := effPriv s acc
  acc := acc

def tlbFill (vaddr : BitVec 64) (acc : Acc) (paddr : BitVec 64)
    (host : Option HostPtr) : RiscvState :=
  let base := tlbBase (vaddr >>> 12) acc
  let full := (s.tlb base).gen = s.tlbGen ∧ (s.tlb (base + 1)).gen = s.tlbGen
  { s with
    tlb := Function.update s.tlb (tlbVictim s base) (tlbEntryFor s vaddr acc paddr host)
    tlbClock := if full then s.tlbClock + 1 else s.tlbClock }

section

variable (vaddr : BitVec 64) (size : Nat) (acc : Acc)

def translateBare : RvM D (BitVec 64 × Option HostPtr) := do
  let m ← RaiseM.get
  if !riscvPmpAllowed m.rs vaddr size acc m.rs.priv then
    raisePaddr (accessFaultCause acc) vaddr vaddr
  else pure (vaddr, busRamPage m.w.bus (vaddr &&& ~~~0xfff))

def translateMiss (eff : BitVec 8) : RvM D (BitVec 64 × Option HostPtr) := do
  let paddr ← onWorld fun s => walkPage s vaddr acc eff
  let m ← RaiseM.get
  if !riscvPmpAllowed m.rs paddr size acc m.rs.priv then
    raisePaddr (accessFaultCause acc) vaddr paddr
  else
    let host := busRamPage m.w.bus (paddr &&& ~~~0xfff)
    RaiseM.modify fun m => m.setRs (tlbFill m.rs vaddr acc paddr host)
    pure (paddr, host)

def riscvTranslate : RvM D (BitVec 64 × Option HostPtr) := do
  let m ← RaiseM.get
  if isBare m.rs acc then translateBare vaddr size acc
  else
    match tlbLookup m.rs vaddr acc with
    | some e => pure (e.pbase ||| (vaddr &&& 0xfff), e.host)
    | none => translateMiss vaddr size acc (effPriv m.rs acc)

end

end Cemu.Rv64
