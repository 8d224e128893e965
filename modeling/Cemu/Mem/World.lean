import Cemu.Bus.Lookup
import Cemu.Lib.ByteMem

/-!
# The machine around the CPU

Everything a CPU reaches through `cpu->bus`: the region table, the RAM devices with their
host memory, and the other devices. A device is known by its `DeviceOps` only, and these
act on the device side of the machine: the devices' own state, the interrupt lines they
drive through `set_irq` and the halt request. A register write may also start a transfer
into guest RAM.
-/

namespace Cemu

structure RamDevice where
  base : BitVec 64
  size : BitVec 64
  deriving DecidableEq, Repr

/-- What a device callback can change: the devices, `ext_irq` and `cpu->halted`. -/
structure DevState (D : Type) where
  dev : D
  extIrq : BitVec 64
  halted : Bool

structure DeviceOps (D : Type) where
  read : Nat → BitVec 64 → Nat → DevState D → BitVec 64 × DevState D
  write : Nat → BitVec 64 → Nat → BitVec 64 → DevState D → (Nat → ByteMem) →
    DevState D × (Nat → ByteMem)
  /-- The one register that starts a transfer, the queue notify of virtio, is four bytes wide
  and ignores writes of any other size. -/
  dma : ∀ dev addr size val ds mem, size ≠ 4 → (write dev addr size val ds mem).2 = mem

structure World (D : Type) where
  bus : Bus
  /-- The table came out of the map operations. -/
  busWf : BusWf bus
  ram : Nat → RamDevice
  /-- The bytes of each host object. -/
  mem : Nat → ByteMem
  ops : Nat → DeviceOps D
  ds : DevState D
  /-- `cpu->timer_read(cpu->timer_dev)`, when the board has a timer. -/
  timer : Option (BitVec 64)
  /-- `DebugOn(kDbgMem)`. -/
  dbgMem : Bool

namespace World

variable {D : Type}

section

variable (w : World D)

def hostLoad (p : HostPtr) (size : Nat) : BitVec 64 :=
  (w.mem p.obj).load p.off size

def hostStore (p : HostPtr) (size : Nat) (val : BitVec 64) : World D :=
  { w with mem := Function.update w.mem p.obj ((w.mem p.obj).store p.off size val) }

def ramRead (dev : Nat) (addr : BitVec 64) (size : Nat) : BitVec 64 :=
  w.hostLoad ⟨dev, addr - (w.ram dev).base⟩ size

def ramWrite (dev : Nat) (addr : BitVec 64) (size : Nat) (val : BitVec 64) : World D :=
  w.hostStore ⟨dev, addr - (w.ram dev).base⟩ size val

def opsRead (r : BusRegion) (addr : BitVec 64) (size : Nat) : BitVec 64 × World D :=
  match r.ops with
  | .kRamOps => (w.ramRead r.dev addr size, w)
  | .device k =>
    let (v, ds) := (w.ops k).read r.dev addr size w.ds
    (v, { w with ds := ds })

def opsWrite (r : BusRegion) (addr : BitVec 64) (size : Nat) (val : BitVec 64) : World D :=
  match r.ops with
  | .kRamOps => w.ramWrite r.dev addr size val
  | .device k =>
    let (ds, mem) := (w.ops k).write r.dev addr size val w.ds w.mem
    { w with ds := ds, mem := mem }

def find (addr : BitVec 64) (len : Nat) : Option BusRegion × World D :=
  let hit := findRegion w.bus addr (BitVec.ofNat 64 len)
  (hit.1.map Prod.snd, { w with bus := hit.2, busWf := w.busWf.find _ _ })

def busProbe (addr : BitVec 64) (len : Nat) : Option BusRegion × World D :=
  w.find addr len

def busRead (addr : BitVec 64) (size : Nat) : Option (BitVec 64 × World D) :=
  match w.find addr size with
  | (some r, w) => some (w.opsRead r addr size)
  | (none, _) => none

def busWrite (addr : BitVec 64) (size : Nat) (val : BitVec 64) : Option (World D) :=
  match w.find addr size with
  | (some r, w) => some (w.opsWrite r addr size val)
  | (none, _) => none

end

/-! ### What each access leaves alone -/

structure SameBoard (w w' : World D) : Prop where
  regions : w'.bus.regions = w.bus.regions
  ram : w'.ram = w.ram
  ops : w'.ops = w.ops
  timer : w'.timer = w.timer
  dbgMem : w'.dbgMem = w.dbgMem

/-- The same board and memory: what a read leaves, since a device may answer it. -/
structure SameMem (w w' : World D) : Prop extends SameBoard w w' where
  mem : w'.mem = w.mem

structure SameButCache (w w' : World D) : Prop extends SameMem w w' where
  ds : w'.ds = w.ds

theorem SameBoard.refl (w : World D) : SameBoard w w := ⟨rfl, rfl, rfl, rfl, rfl⟩

variable {u v w w' : World D}

theorem SameBoard.trans (h : SameBoard u v) (h' : SameBoard v w) : SameBoard u w :=
  ⟨h'.regions.trans h.regions, h'.ram.trans h.ram, h'.ops.trans h.ops,
    h'.timer.trans h.timer, h'.dbgMem.trans h.dbgMem⟩

theorem SameMem.refl (w : World D) : SameMem w w := ⟨.refl w, rfl⟩

theorem SameMem.symm (h : SameMem w w') : SameMem w' w :=
  ⟨⟨h.regions.symm, h.ram.symm, h.ops.symm, h.timer.symm, h.dbgMem.symm⟩, h.mem.symm⟩

theorem SameMem.trans (h : SameMem u v) (h' : SameMem v w) : SameMem u w :=
  ⟨h.toSameBoard.trans h'.toSameBoard, h'.mem.trans h.mem⟩

def regionAt (w : World D) (addr : BitVec 64) (len : Nat) : Option BusRegion :=
  if ~~~addr < BitVec.ofNat 64 len then none
  else (scanRegions w.bus.regions addr (BitVec.ofNat 64 len)).map Prod.snd

theorem find_fst (w : World D) (addr : BitVec 64) {len : Nat} (hlen : BitVec.ofNat 64 len ≠ 0) :
    (w.find addr len).1 = w.regionAt addr len := by
  rw [find, regionAt, w.busWf.findRegion_eq hlen]
  split <;> rfl

theorem find_sameButCache (w : World D) (addr : BitVec 64) (len : Nat) :
    SameButCache w (w.find addr len).2 :=
  ⟨⟨⟨findRegion_regions _ _ _, rfl, rfl, rfl, rfl⟩, rfl⟩, rfl⟩

theorem SameBoard.regionAt (h : SameBoard w w') (addr : BitVec 64) (len : Nat) :
    w'.regionAt addr len = w.regionAt addr len := by
  rw [World.regionAt, World.regionAt, h.regions]

theorem SameBoard.ramPage (h : SameBoard w w') (addr : BitVec 64) :
    busRamPage w'.bus addr = busRamPage w.bus addr := by
  rw [busRamPage, busRamPage, h.regions]

theorem SameMem.ramRead (h : SameMem w w') (dev : Nat) (addr : BitVec 64) (size : Nat) :
    w'.ramRead dev addr size = w.ramRead dev addr size := by
  rw [World.ramRead, World.ramRead, hostLoad, hostLoad, h.ram, h.mem]

theorem opsRead_sameMem (w : World D) (r : BusRegion) (addr : BitVec 64) (size : Nat) :
    SameMem w (w.opsRead r addr size).2 := by
  unfold opsRead
  split
  · exact .refl w
  · exact ⟨⟨rfl, rfl, rfl, rfl, rfl⟩, rfl⟩

theorem opsWrite_sameBoard (w : World D) (r : BusRegion) (addr : BitVec 64) (size : Nat)
    (val : BitVec 64) : SameBoard w (w.opsWrite r addr size val) := by
  unfold opsWrite
  split <;> exact ⟨rfl, rfl, rfl, rfl, rfl⟩

section

variable {size : Nat} (hsize : BitVec.ofNat 64 size ≠ 0)

include hsize

theorem busRead_eq_some {addr v : BitVec 64} (h : w.busRead addr size = some (v, w')) :
    SameMem w w' ∧ ∃ r, w.regionAt addr size = some r ∧
      (r.ops = .kRamOps → v = w.ramRead r.dev addr size) := by
  unfold busRead at h
  split at h
  · next r w1 hfind =>
    have hfst := w.find_fst addr hsize
    have hsame := w.find_sameButCache addr size
    simp only [hfind] at hfst hsame
    obtain ⟨rfl, rfl⟩ := Prod.mk.inj (Option.some.inj h)
    refine ⟨hsame.toSameMem.trans (opsRead_sameMem ..), r, hfst.symm, fun hops => ?_⟩
    simp only [hops]
    exact hsame.toSameMem.ramRead ..
  · cases h

theorem busRead_of_ram {addr : BitVec 64} {r : BusRegion} (hr : w.regionAt addr size = some r)
    (hops : r.ops = .kRamOps) :
    w.busRead addr size = some (w.ramRead r.dev addr size, (w.find addr size).2) := by
  have hfst := (w.find_fst addr hsize).trans hr
  have hsame := w.find_sameButCache addr size
  rw [busRead, ← hsame.toSameMem.ramRead]
  generalize w.find addr size = found at hfst
  obtain ⟨region, w1⟩ := found
  obtain rfl : region = some r := hfst
  simp only [opsRead, hops]

/-- A write that succeeds was decoded to a region; RAM takes it, and a device write of
another size than four leaves memory alone. -/
theorem busWrite_eq_some {addr val : BitVec 64} (h : w.busWrite addr size val = some w') :
    SameBoard w w' ∧ ∃ r, w.regionAt addr size = some r ∧
      (r.ops = .kRamOps → w'.mem = (w.ramWrite r.dev addr size val).mem) ∧
      (r.ops ≠ .kRamOps → size ≠ 4 → w'.mem = w.mem) := by
  unfold busWrite at h
  split at h
  · next r w1 hfind =>
    have hfst := w.find_fst addr hsize
    have hsame := w.find_sameButCache addr size
    simp only [hfind] at hfst hsame
    cases h
    refine ⟨hsame.toSameBoard.trans (opsWrite_sameBoard ..), r, hfst.symm, ?_, ?_⟩
    · intro hops
      simp only [opsWrite, hops, ramWrite, hostStore, hsame.ram, hsame.mem]
    · intro hops hfour
      cases hk : r.ops with
      | kRamOps => exact absurd hk hops
      | device k =>
        simp only [opsWrite, hk]
        exact ((w1.ops k).dma _ _ _ _ _ _ hfour).trans hsame.mem
  · cases h

end

/-- A device that answers reads and ignores writes. -/
def readOnlyOps (read : Nat → BitVec 64 → Nat → DevState D → BitVec 64 × DevState D) :
    DeviceOps D :=
  ⟨read, fun _ _ _ _ ds mem => (ds, mem), fun _ _ _ _ _ _ _ => rfl⟩

def ramOnly (bus : Bus) (busWf : BusWf bus) (base : BitVec 64) (mem : ByteMem) : World Unit where
  bus := bus
  busWf := busWf
  ram := fun _ => ⟨base, 0⟩
  mem := fun _ => mem
  ops := fun _ => readOnlyOps fun _ _ _ ds => (0, ds)
  ds := ⟨(), 0, false⟩
  timer := none
  dbgMem := false

def unmapped : World Unit := ramOnly Bus.empty BusWf.empty 0 fun _ => 0

def dram (mem : ByteMem) : World Unit :=
  ramOnly ⟨[⟨0x80000000, 0x10000, .kRamOps, 0, false, some ⟨0, 0⟩⟩], none⟩
    (BusWf.run (show runBusOps Bus.empty [.addRam 0x80000000 0x10000 .kRamOps 0 ⟨0, 0⟩] = _ by
      decide)) 0x80000000 mem

end World

end Cemu
