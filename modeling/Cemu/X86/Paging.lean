import Cemu.X86.State

/-!
# x86: from a linear address to the bus

The memory funnel of `exec.c`: the A20 gate, the physical access, the two page walks with their
accessed and dirty bits, the translation cache, and `lin_load` and `lin_store`, which split an
access at a page boundary and translate each side on its own.
-/

namespace Cemu.X86

variable {D : Type}

/-! ### Physical accesses -/

def a20Gate (s : X86State) (addr : BitVec 64) : BitVec 64 :=
  if s.a20 then addr else addr &&& ~~~(1#64 <<< 20)

def openBus (size : Nat) : BitVec 64 :=
  if size = 8 then ~~~0 else 1#64 <<< (size * 8) - 1

/-- The body of `phys_load` after the gate: RAM without another region over it is copied, any
other region is asked. -/
def readPhys (w : World D) (addr : BitVec 64) (size : Nat) : BitVec 64 × World D :=
  match w.busProbe addr size with
  | (none, w) => (openBus size, w)
  | (some r, w) =>
    match r.host, r.overlaps with
    | some host, false => (w.hostLoad (host.add (addr - r.base)) size, w)
    | _, _ => w.opsRead r addr size

def writePhys (w : World D) (addr : BitVec 64) (size : Nat) (v : BitVec 64) : World D :=
  match w.busProbe addr size with
  | (none, w) => w
  | (some r, w) =>
    match r.host, r.overlaps with
    | some host, false => w.hostStore (host.add (addr - r.base)) size v
    | _, _ => w.opsWrite r addr size v

def physLoad (addr : BitVec 64) (size : Nat) : X86M D (BitVec 64) := fun m =>
  let out := readPhys m.w (a20Gate m.s addr) size
  .ok out.1 (m.setWorld out.2)

def physStore (addr : BitVec 64) (size : Nat) (v : BitVec 64) : X86M D Unit :=
  RaiseM.modify fun m => m.setWorld (writePhys m.w (a20Gate m.s addr) size v)

/-! ### The page walks -/

def kPdeP : BitVec 64 := 1
def kPdeRw : BitVec 64 := 2
def kPdeUs : BitVec 64 := 4
def kPdeA : BitVec 64 := 0x20
def kPdeD : BitVec 64 := 0x40
def kPdePs : BitVec 64 := 0x80
def kPdeG : BitVec 64 := 0x100
def kPde4mReserved : BitVec 64 := 0x00200000

def kPfPresent : BitVec 32 := 1
def kPfWrite : BitVec 32 := 2
def kPfUser : BitVec 32 := 4
def kPfRsvd : BitVec 32 := 8
def kPfInstr : BitVec 32 := 0x10

def kTlbWritable : BitVec 32 := 1
def kTlbUser : BitVec 32 := 2
def kTlbNx : BitVec 32 := 4
def kTlbGlobal : BitVec 32 := 8
def kTlbHost : BitVec 32 := 0x10

def kPaeAddrMask : BitVec 64 := 0x000ffffffffff000
def kPae2mMask : BitVec 64 := 0x000fffffffe00000
def kPaeRsvdHi : BitVec 64 := 0x7ff#64 <<< 52
def kNxBit : BitVec 64 := 1#64 <<< 63

structure WalkRes where
  paddr : BitVec 64
  flags : BitVec 32
  linBase : BitVec 32
  pageShift : Nat
  deriving DecidableEq, Repr

def has {n : Nat} (v mask : BitVec n) : Bool := decide (v &&& mask ≠ 0)

def pfFault {α : Type} (lin : BitVec 64) (code : BitVec 32) : X86M D α := do
  modS fun s => { s with cr2 := lin.setWidth 32 }
  raiseVec vecPf (code.setWidth 64)

def pfCode (write user : Bool) : BitVec 32 :=
  (if write then kPfWrite else 0) ||| if user then kPfUser else 0

def pfRsvd {α : Type} (lin : BitVec 64) (code : BitVec 32) : X86M D α :=
  pfFault lin (code ||| kPfPresent ||| kPfRsvd)

def pfNx {α : Type} (lin : BitVec 64) (code : BitVec 32) : X86M D α :=
  pfFault lin (code ||| kPfPresent ||| kPfInstr)

def faultWhen (c : Bool) (fault : X86M D Unit) : X86M D Unit := if c then fault else pure ()

def permRefused (s : X86State) (write user writable userOk : Bool) : Bool :=
  if user then !userOk || (write && !writable)
  else write && has s.cr0 kCr0Wp && !writable

def checkPerm (lin : BitVec 64) (write user writable userOk : Bool) (code : BitVec 32) :
    X86M D Unit := do
  let s ← getS
  faultWhen (permRefused s write user writable userOk) (pfFault lin (code ||| kPfPresent))

def storeChanged (addr : BitVec 64) (size : Nat) (old next : BitVec 64) : X86M D Unit :=
  if next ≠ old then physStore addr size next else pure ()

def marked (entry : BitVec 64) (write : Bool) : BitVec 64 :=
  entry ||| kPdeA ||| if write then kPdeD else 0

def leafFlags (writable userOk nx glob : Bool) : BitVec 32 :=
  (if writable then kTlbWritable else 0) ||| (if userOk then kTlbUser else 0) |||
    (if nx then kTlbNx else 0) ||| if glob then kTlbGlobal else 0

def load32 (addr : BitVec 64) : X86M D (BitVec 64) := do
  let v ← physLoad addr 4
  pure (v &&& 0xffffffff)

def pdeAddr (s : X86State) (lin : BitVec 64) : BitVec 64 :=
  (s.cr3 &&& ~~~0xfff).setWidth 64 ||| lin >>> 20 &&& 0xffc

def pteAddr (pde lin : BitVec 64) : BitVec 64 := pde &&& 0xfffff000#64 ||| lin >>> 10 &&& 0xffc

def walk4m (lin : BitVec 64) (write user : Bool) (pdeAt pde : BitVec 64) : X86M D WalkRes := do
  let code := pfCode write user
  faultWhen (has pde kPde4mReserved) (pfFault lin (code ||| kPfPresent))
  checkPerm lin write user (has pde kPdeRw) (has pde kPdeUs) code
  storeChanged pdeAt 4 pde (marked pde write)
  let frame := pde &&& 0xffe00000#64 ||| (pde &&& 0x001fe000) <<< (32 - 13)
  let s ← getS
  pure {
    paddr := a20Gate s (frame ||| lin &&& 0x3fffff)
    flags := leafFlags (has pde kPdeRw) (has pde kPdeUs) false (has pde kPdeG)
    linBase := lin.setWidth 32 &&& ~~~0x3fffff
    pageShift := 22 }

def walkPte (lin : BitVec 64) (write user : Bool) (pdeAt pde : BitVec 64) : X86M D WalkRes := do
  let code := pfCode write user
  let pteAt := pteAddr pde lin
  let pte ← load32 pteAt
  faultWhen (!has pte kPdeP) (pfFault lin code)
  let writable := has pde kPdeRw && has pte kPdeRw
  let userOk := has pde kPdeUs && has pte kPdeUs
  checkPerm lin write user writable userOk code
  storeChanged pteAt 4 pte (marked pte write)
  storeChanged pdeAt 4 pde (marked pde false)
  let s ← getS
  pure {
    paddr := a20Gate s (pte &&& 0xfffff000 ||| lin &&& 0xfff)
    flags := leafFlags writable userOk false (has pte kPdeG)
    linBase := lin.setWidth 32 &&& ~~~0xfff
    pageShift := 12 }

def walkNonPae (lin : BitVec 64) (write user : Bool) : X86M D WalkRes := do
  let s ← getS
  let pdeAt := pdeAddr s lin
  let pde ← load32 pdeAt
  faultWhen (!has pde kPdeP) (pfFault lin (pfCode write user))
  if has pde kPdePs && has s.cr4 kCr4Pse then walk4m lin write user pdeAt pde
  else walkPte lin write user pdeAt pde

/-- The checks `WalkPae` makes on every present entry, with the NX bits gathered so far. -/
def paeEntryCheck (lin : BitVec 64) (code : BitVec 32) (entry nx : BitVec 64) :
    X86M D Unit := do
  let s ← getS
  faultWhen (has entry kPaeRsvdHi) (pfRsvd lin code)
  faultWhen (decide (nx ≠ 0) && !has s.efer kEferNxe) (pfRsvd lin code)

def pdpteAddr (s : X86State) (lin : BitVec 64) : BitVec 64 :=
  (s.cr3 &&& 0xffffffe0).setWidth 64 + (lin >>> 30 &&& 3) * 8

def paePdeAddr (pdpte lin : BitVec 64) : BitVec 64 :=
  pdpte &&& kPaeAddrMask ||| (lin >>> 21 &&& 0x1ff) * 8

def paePteAddr (pde lin : BitVec 64) : BitVec 64 :=
  pde &&& kPaeAddrMask ||| (lin >>> 12 &&& 0x1ff) * 8

section

variable (lin : BitVec 64) (write user fetch : Bool)

def walk2m (pdpteAt pdpte pdeAt pde nx : BitVec 64) : X86M D WalkRes := do
  let code := pfCode write user
  let writable := has pdpte kPdeRw && has pde kPdeRw
  let userOk := has pdpte kPdeUs && has pde kPdeUs
  faultWhen (has pde 0x1fe000) (pfRsvd lin code)
  checkPerm lin write user writable userOk code
  faultWhen (fetch && decide (nx ≠ 0)) (pfNx lin code)
  storeChanged pdeAt 8 pde (marked pde write)
  storeChanged pdpteAt 8 pdpte (marked pdpte false)
  let s ← getS
  pure {
    paddr := a20Gate s (pde &&& kPae2mMask ||| lin &&& 0x1fffff)
    flags := leafFlags writable userOk (decide (nx ≠ 0)) (has pde kPdeG)
    linBase := lin.setWidth 32 &&& ~~~0x1fffff
    pageShift := 21 }

def walkPaePte (pdpteAt pdpte pdeAt pde nx : BitVec 64) : X86M D WalkRes := do
  let code := pfCode write user
  let pteAt := paePteAddr pde lin
  let pte ← physLoad pteAt 8
  faultWhen (!has pte kPdeP) (pfFault lin code)
  let nx := nx ||| pte &&& kNxBit
  paeEntryCheck lin code pte nx
  let writable := has pdpte kPdeRw && has pde kPdeRw && has pte kPdeRw
  let userOk := has pdpte kPdeUs && has pde kPdeUs && has pte kPdeUs
  checkPerm lin write user writable userOk code
  faultWhen (fetch && decide (nx ≠ 0)) (pfNx lin code)
  storeChanged pteAt 8 pte (marked pte write)
  storeChanged pdeAt 8 pde (marked pde false)
  storeChanged pdpteAt 8 pdpte (marked pdpte false)
  let s ← getS
  pure {
    paddr := a20Gate s (pte &&& kPaeAddrMask ||| lin &&& 0xfff)
    flags := leafFlags writable userOk (decide (nx ≠ 0)) (has pte kPdeG)
    linBase := lin.setWidth 32 &&& ~~~0xfff
    pageShift := 12 }

def walkPae : X86M D WalkRes := do
  let s ← getS
  let code := pfCode write user
  let pdpteAt := pdpteAddr s lin
  let pdpte ← physLoad pdpteAt 8
  faultWhen (!has pdpte kPdeP) (pfFault lin code)
  -- there are no 1 GB pages in 32-bit PAE
  faultWhen (has pdpte kPdePs) (pfRsvd lin code)
  paeEntryCheck lin code pdpte (pdpte &&& kNxBit)
  let pdeAt := paePdeAddr pdpte lin
  let pde ← physLoad pdeAt 8
  faultWhen (!has pde kPdeP) (pfFault lin code)
  let nx := pdpte &&& kNxBit ||| pde &&& kNxBit
  paeEntryCheck lin code pde nx
  if has pde kPdePs then walk2m lin write user fetch pdpteAt pdpte pdeAt pde nx
  else walkPaePte lin write user fetch pdpteAt pdpte pdeAt pde nx

def walkPage : X86M D WalkRes := do
  let s ← getS
  if has s.cr4 kCr4Pae then walkPae lin write user fetch else walkNonPae lin write user

def pageTranslateAs : X86M D (BitVec 64) := do
  let s ← getS
  if !s.pg then pure lin
  else
    let w ← walkPage lin write user fetch
    pure w.paddr

end

/-! ### The translation cache -/

def kTlbSets : BitVec 32 := 4096
def kTlbValid : BitVec 32 := 1#32 <<< 31
def kTlbGenMask : BitVec 32 := 0x3ff

def vpnOf (lin : BitVec 64) : BitVec 32 := (lin >>> 12).setWidth 32

def tlbSet (vpn : BitVec 32) : BitVec 32 := (vpn ^^^ vpn >>> 10) &&& (kTlbSets - 1)

def tlbTag (s : X86State) (vpn : BitVec 32) (write : Bool) : BitVec 32 :=
  kTlbValid ||| vpn <<< 1 ||| s.tlbGen <<< 21 ||| if write then 1 else 0

def tlbSlot (vpn : BitVec 32) (write : Bool) : BitVec 32 :=
  tlbSet vpn * 2 + if write then 1 else 0

def tlbLookup (s : X86State) (lin : BitVec 64) (write : Bool) : Option TlbEntry :=
  let e := s.tlb (tlbSlot (vpnOf lin) write)
  if e.tag = tlbTag s (vpnOf lin) write then some e else none

/-- `TlbCheck` for the faults it can raise, in its order: the code of the first that applies. -/
def tlbRefusal (s : X86State) (e : TlbEntry) (write fetch user : Bool) : Option (BitVec 32) :=
  let code := pfCode write user
  if user && !has e.flags kTlbUser then some (code ||| kPfPresent)
  else if write && (if user then !has e.flags kTlbWritable
      else has s.cr0 kCr0Wp && !has e.flags kTlbWritable) then some (code ||| kPfPresent)
  else if fetch && has e.flags kTlbNx && has s.efer kEferNxe then
    some (code ||| kPfPresent ||| kPfInstr)
  else none

def tlbCheck (e : TlbEntry) (lin : BitVec 64) (write fetch user : Bool) : X86M D Unit := do
  let s ← getS
  match tlbRefusal s e write fetch user with
  | some code => pfFault lin code
  | none => pure ()

def filledEntry (m : Machine D) (lin : BitVec 64) (write : Bool) (w : WalkRes) : TlbEntry :=
  let pbase := w.paddr &&& ~~~0xfff
  let host := if m.gMemSlow then none else busRamPage m.w.bus pbase
  { tag := tlbTag m.s (vpnOf lin) write
    flags := if host.isSome then w.flags ||| kTlbHost else w.flags
    linBase := w.linBase
    pageShift := w.pageShift
    pbase := pbase
    host := host }

def X86State.setTlb (s : X86State) (slot : BitVec 32) (e : TlbEntry) : X86State :=
  { s with tlb := Function.update s.tlb slot e }

def tlbFill (lin : BitVec 64) (write fetch user : Bool) : X86M D TlbEntry := do
  let w ← walkPage lin write user fetch
  let m ← RaiseM.get
  let e := filledEntry m lin write w
  modS fun s => s.setTlb (tlbSlot (vpnOf lin) write) e
  pure e

def tlbFlushAll (s : X86State) : X86State :=
  let gen := (s.tlbGen + 1) &&& kTlbGenMask
  if gen = 0 then { s with tlb := fun _ => .zero, tlbGen := 1, fetchValid := false }
  else { s with tlbGen := gen, fetchValid := false }

def tlbEntry (lin : BitVec 64) (write fetch user : Bool) : X86M D TlbEntry := do
  let s ← getS
  match tlbLookup s lin write with
  | none => tlbFill lin write fetch user
  | some e =>
    tlbCheck e lin write fetch user
    pure e

/-! ### Linear accesses -/

def pageOff (lin : BitVec 64) : BitVec 64 := lin &&& 0xfff

section

variable (lin : BitVec 64) (size : Nat)

def fastLoadOne (user fetch : Bool) : X86M D (BitVec 64) := do
  let e ← tlbEntry lin false fetch user
  match e.host with
  | some host =>
    let m ← RaiseM.get
    pure (m.w.hostLoad (host.add (pageOff lin)) size)
  | none => physLoad (e.pbase + pageOff lin) size

def fastStoreOne (user : Bool) (v : BitVec 64) : X86M D Unit := do
  let e ← tlbEntry lin true false user
  match e.host with
  | some host => RaiseM.modify fun m => m.setWorld (m.w.hostStore (host.add (pageOff lin)) size v)
  | none => physStore (e.pbase + pageOff lin) size v

def slowLoadOne (user fetch : Bool) : X86M D (BitVec 64) := do
  let paddr ← pageTranslateAs lin false user fetch
  physLoad paddr size

def slowStoreOne (user : Bool) (v : BitVec 64) : X86M D Unit := do
  let paddr ← pageTranslateAs lin true user false
  physStore paddr size v

end

/-- The access leaves an alignment check: CR0.AM and EFLAGS.AC are set and it is a data access
of the user at an address that is no multiple of its size. -/
def acRefused (s : X86State) (lin : BitVec 64) (size : Nat) (user fetch : Bool) : Bool :=
  has s.cr0 kCr0Am && !fetch && user && s.ac && (size == 2 || size == 4 || size == 8) &&
    decide (lin &&& (BitVec.ofNat 64 size - 1) ≠ 0)

section

variable (lin : BitVec 64)

def acCheckSlow (size : Nat) (user fetch write : Bool) : X86M D Unit := do
  let s ← getS
  if acRefused s lin size user fetch then
    -- the walk runs first, so that a page fault keeps its priority
    if s.pg then
      let _ ← walkPage lin write user fetch
      raiseVec vecAc 0
    else raiseVec vecAc 0
  else pure ()

def loadOne (size : Nat) (user fetch : Bool) : X86M D (BitVec 64) := do
  let m ← RaiseM.get
  if m.gMemSlow then slowLoadOne lin size user fetch
  else if !m.s.pg then physLoad lin size
  else fastLoadOne lin size user fetch

def storeOne (size : Nat) (user : Bool) (v : BitVec 64) : X86M D Unit := do
  let m ← RaiseM.get
  if m.gMemSlow then slowStoreOne lin size user v
  else if !m.s.pg then physStore lin size v
  else fastStoreOne lin size user v

def crosses (size : Nat) : Bool := decide (0x1000 < (pageOff lin).toNat + size)

def firstPart : Nat := 0x1000 - (pageOff lin).toNat

def linLoad (size : Nat) (user fetch : Bool) : X86M D (BitVec 64) := do
  acCheckSlow lin size user fetch false
  if crosses lin size then
    let n1 := firstPart lin
    let lo ← loadOne lin n1 user fetch
    let hi ← loadOne (lin + BitVec.ofNat 64 n1) (size - n1) user fetch
    pure (lo ||| hi <<< (n1 * 8))
  else loadOne lin size user fetch

def linStore (size : Nat) (user : Bool) (v : BitVec 64) : X86M D Unit := do
  acCheckSlow lin size user false true
  if crosses lin size then
    let n1 := firstPart lin
    storeOne lin n1 user (v &&& (1#64 <<< (n1 * 8) - 1))
    storeOne (lin + BitVec.ofNat 64 n1) (size - n1) user (v >>> (n1 * 8))
  else storeOne lin size user v

end

/-! ### The accessors -/

def X86State.user (s : X86State) : Bool := decide (s.cpl = 3)

section

variable (lin : BitVec 64)

def busLoad (size : Nat) : X86M D (BitVec 64) := do
  let s ← getS
  linLoad lin size s.user false

def busStore (size : Nat) (v : BitVec 64) : X86M D Unit := do
  let s ← getS
  linStore lin size s.user v

def kbusLoad (size : Nat) : X86M D (BitVec 64) := linLoad lin size false false
def kbusStore (size : Nat) (v : BitVec 64) : X86M D Unit :=
  linStore lin size false v

def krd8 : X86M D (BitVec 8) := do
  let v ← kbusLoad lin 1
  pure (v.setWidth 8)

def krd16 : X86M D (BitVec 16) := do
  let v ← kbusLoad lin 2
  pure (v.setWidth 16)

def rd8 : X86M D (BitVec 8) := do
  let v ← busLoad lin 1
  pure (v.setWidth 8)

def rd16 : X86M D (BitVec 16) := do
  let v ← busLoad lin 2
  pure (v.setWidth 16)

def rd32 : X86M D (BitVec 32) := do
  let v ← busLoad lin 4
  pure (v.setWidth 32)

def wr8 (v : BitVec 8) : X86M D Unit := busStore lin 1 (v.setWidth 64)
def wr16 (v : BitVec 16) : X86M D Unit := busStore lin 2 (v.setWidth 64)
def wr32 (v : BitVec 32) : X86M D Unit := busStore lin 4 (v.setWidth 64)
def wr64 (v : BitVec 64) : X86M D Unit := busStore lin 8 v

end

def wrBytes (lin : BitVec 64) : List (BitVec 8) → X86M D Unit
  | [] => pure ()
  | b :: rest => do
    wr8 lin b
    wrBytes (lin + 1) rest

end Cemu.X86
