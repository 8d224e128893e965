import Cemu.Lib.FirstLeast

/-!
# The bus map

The region table of `bus/bus.c`: registering, relocating and removing regions, and the
lookup with its one-entry cache. Addresses and lengths are 64-bit words and every sum
wraps, as in the source; a C `int` length is the word it is converted to.
-/

namespace Cemu

inductive Ops where
  | kRamOps
  | device (id : Nat)
  deriving DecidableEq, Repr

structure HostPtr where
  obj : Nat
  off : BitVec 64
  deriving DecidableEq, Repr

def HostPtr.add (p : HostPtr) (n : BitVec 64) : HostPtr := ⟨p.obj, p.off + n⟩

structure BusRegion where
  base : BitVec 64
  size : BitVec 64
  ops : Ops
  dev : Nat
  overlaps : Bool
  host : Option HostPtr
  deriving DecidableEq, Repr

def BusRegion.stop (r : BusRegion) : BitVec 64 := r.base + r.size

structure Bus where
  regions : List BusRegion
  last : Option Nat
  deriving DecidableEq, Repr

def kBusRegions : Nat := 32

def Bus.empty : Bus := ⟨[], none⟩

def BusRegion.meets (a b : BusRegion) : Bool :=
  decide (a.base < b.stop) && decide (b.base < a.stop)

def meetsOther (regions : List BusRegion) (i : Nat) (a : BusRegion) : Bool :=
  regions.zipIdx.any fun (b, j) => decide (j ≠ i) && a.meets b

def refreshBus (bus : Bus) : Bus where
  regions := bus.regions.mapIdx fun i a => { a with overlaps := meetsOther bus.regions i a }
  last := none

def busAddRegion (bus : Bus) (base size : BitVec 64) (ops : Ops) (dev : Nat) : Option Bus :=
  if kBusRegions ≤ bus.regions.length then none
  else
    let r : BusRegion := ⟨base, size, ops, dev, false, none⟩
    some (refreshBus { bus with regions := bus.regions ++ [r] })

def Bus.setHost (bus : Bus) (i : Nat) (host : HostPtr) : Bus :=
  { bus with regions := bus.regions.modify i fun r => { r with host := some host } }

def busAddRamRegion (bus : Bus) (base size : BitVec 64) (ops : Ops) (dev : Nat)
    (host : HostPtr) : Option Bus :=
  (busAddRegion bus base size ops dev).map fun bus =>
    bus.setHost (bus.regions.length - 1) host

def regionOf (bus : Bus) (ops : Ops) (dev : Nat) : Option Nat :=
  bus.regions.findIdx? fun r => decide (r.ops = ops) && decide (r.dev = dev)

def busRelocateRegion (bus : Bus) (ops : Ops) (dev : Nat) (base size : BitVec 64) : Option Bus :=
  match regionOf bus ops dev with
  | some i =>
    let regions := bus.regions.modify i fun r => { r with base := base, size := size }
    some (refreshBus { bus with regions := regions })
  | none => busAddRegion bus base size ops dev

def busRemoveRegion (bus : Bus) (ops : Ops) (dev : Nat) : Bool × Bus :=
  match regionOf bus ops dev with
  | some i => (true, refreshBus { bus with regions := bus.regions.eraseIdx i })
  | none => (false, bus)

def BusRegion.covers (r : BusRegion) (addr len : BitVec 64) : Bool :=
  decide (r.base ≤ addr) && decide (addr + len ≤ r.stop)

/-- The loop of `FindRegion`: the smallest covering region, the first one on ties. -/
def scanRegions (regions : List BusRegion) (addr len : BitVec 64) : Option (Nat × BusRegion) :=
  firstLeast (fun r => r.covers addr len) (fun r => r.size.toNat) regions

def cachedRegion (bus : Bus) (addr len : BitVec 64) : Option (Nat × BusRegion) := do
  let i ← bus.last
  let r ← bus.regions[i]?
  if !r.overlaps && r.covers addr len then some (i, r) else none

/-- The region of an access, with its index, and the bus with its cache updated. -/
def findRegion (bus : Bus) (addr len : BitVec 64) : Option (Nat × BusRegion) × Bus :=
  -- a range wrapping 2^64 names no access
  if ~~~addr < len then (none, bus)
  else
    match cachedRegion bus addr len with
    | some hit => (some hit, bus)
    | none =>
      match scanRegions bus.regions addr len with
      | some (i, r) => (some (i, r), { bus with last := if r.overlaps then none else some i })
      | none => (none, { bus with last := none })

/-- The page test of `BusRamPage`: no region at an index other than `i` covers a byte of it. -/
def pageClear (regions : List BusRegion) (i : Nat) (addr : BitVec 64) : Bool :=
  regions.zipIdx.all fun (o, j) =>
    decide (j = i) || !(decide (addr < o.stop) && decide (o.base < addr + 0x1000))

def ramPageAt (regions : List BusRegion) (addr : BitVec 64) (i : Nat) (r : BusRegion) :
    Option HostPtr :=
  match r.host with
  | none => none
  | some host =>
    if addr < r.base || r.stop < addr + 0x1000 then none
    else if r.overlaps && !pageClear regions i addr then none
    else some (host.add (addr - r.base))

def ramPageFrom (regions : List BusRegion) (addr : BitVec 64) (i : Nat) :
    List BusRegion → Option HostPtr
  | [] => none
  | r :: rest =>
    match ramPageAt regions addr i r with
    | some host => some host
    | none => ramPageFrom regions addr (i + 1) rest

def busRamPage (bus : Bus) (addr : BitVec 64) : Option HostPtr :=
  if addr &&& 0xfff ≠ 0 then none else ramPageFrom bus.regions addr 0 bus.regions

def busRamRange (bus : Bus) (addr len : BitVec 64) : Option HostPtr :=
  match firstLeast (fun r => r.host.isSome && r.covers addr len) (fun r => r.size.toNat)
      bus.regions with
  | some (_, r) => r.host.map fun host => host.add (addr - r.base)
  | none => none

/-! ### Runs of map operations -/

inductive BusOp where
  | add (base size : BitVec 64) (ops : Ops) (dev : Nat)
  | addRam (base size : BitVec 64) (ops : Ops) (dev : Nat) (host : HostPtr)
  | relocate (ops : Ops) (dev : Nat) (base size : BitVec 64)
  | remove (ops : Ops) (dev : Nat)
  | find (addr len : BitVec 64)

def BusOp.apply (bus : Bus) : BusOp → Option Bus
  | add base size ops dev => busAddRegion bus base size ops dev
  | addRam base size ops dev host => busAddRamRegion bus base size ops dev host
  | relocate ops dev base size => busRelocateRegion bus ops dev base size
  | remove ops dev => some (busRemoveRegion bus ops dev).2
  | find addr len => some (findRegion bus addr len).2

def runBusOps (bus : Bus) : List BusOp → Option Bus
  | [] => some bus
  | op :: ops => (op.apply bus).bind fun bus => runBusOps bus ops

theorem runBusOps_invariant {P : Bus → Prop}
    (hstep : ∀ bus (op : BusOp) bus', P bus → op.apply bus = some bus' → P bus')
    {ops : List BusOp} {bus bus' : Bus} (h : P bus) (hrun : runBusOps bus ops = some bus') :
    P bus' := by
  induction ops generalizing bus with
  | nil =>
    simp only [runBusOps, Option.some.injEq] at hrun
    exact hrun ▸ h
  | cons op ops ih =>
    obtain ⟨mid, hmid, hrest⟩ := Option.bind_eq_some_iff.mp hrun
    exact ih (hstep bus op mid h hmid) hrest

end Cemu
