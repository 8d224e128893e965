import Cemu.Mem.World

/-!
# The x86 memory map

The calls `X86BoardCreate` makes on the memory bus, and the ones the display card makes when
firmware programs its BARs or the machine is reset. The board registers an open bus over the
whole 32-bit space before anything else. No later call names that region, so it is in every map
the board can have, and a byte below 4 GiB always decodes to some region.
-/

namespace Cemu.X86

open List

def kUnclaimedMemOps : Ops := .device 0
def kRomOps : Ops := .device 1
def kRomAliasOps : Ops := .device 2
def kLapicOps : Ops := .device 3
def kIoapicOps : Ops := .device 4
def kVgaMemOps : Ops := .device 5
def kVgaLfbOps : Ops := .device 6
def kVgaBar2Ops : Ops := .device 7

def kAddressSpace : BitVec 64 := 0x100000000
def kMinRamSize : BitVec 64 := 0x100000
def kRamLimit : BitVec 64 := 0xfee00000
def kRomBase : BitVec 64 := 0xc0000
def kRomSize : BitVec 64 := 0x40000
def kRomAliasBase : BitVec 64 := 0xfffc0000
def kApertureBase : BitVec 64 := 0xa0000
def kApertureSize : BitVec 64 := 0x20000
def kVgaVramSize : BitVec 32 := 0x1000000
def kVgaBar2Size : BitVec 32 := 0x1000

/-- The devices of the memory bus, by number. The RAM device is 0, and so is the null device of
the open bus. -/
def kBoardDev : Nat := 1
def kLapicDev : Nat := 2
def kIoapicDev : Nat := 3
def kVgaDev : Nat := 4

def x86MemOps (ramSize : BitVec 64) (bios : Bool) : List BusOp :=
  [.add 0 kAddressSpace kUnclaimedMemOps 0, .addRam 0 ramSize .kRamOps 0 ⟨0, 0⟩] ++
    (if bios then [.add kRomBase kRomSize kRomOps kBoardDev,
      .add kRomAliasBase kRomSize kRomAliasOps kBoardDev] else []) ++
    [.add 0xfee00000 0x1000 kLapicOps kLapicDev, .add 0xfec00000 0x1000 kIoapicOps kIoapicDev,
      .add kApertureBase kApertureSize kVgaMemOps kVgaDev]

def x86MemMap (ramSize : BitVec 64) (bios : Bool) : Option Bus :=
  if ramSize < kMinRamSize ∨ kRamLimit < ramSize then none
  else runBusOps Bus.empty (x86MemOps ramSize bios)

def removeRegions (ops : Ops) : Nat → Bus → Bus
  | 0, bus => bus
  | fuel + 1, bus =>
    match busRemoveRegion bus ops kVgaDev with
    | (true, bus') => removeRegions ops fuel bus'
    | (false, bus') => bus'

/-- `VgaBarWritten` and `VgaBar2Written`: the old window comes off, and an address other than 0
gets a new one. -/
def barWritten (ops : Ops) (size : BitVec 32) (config : BitVec 32) (bus : Bus) : Option Bus :=
  let base := config &&& ~~~(size - 1)
  let bus₁ := removeRegions ops bus.regions.length bus
  if base = 0 then some bus₁
  else busAddRegion bus₁ (base.setWidth 64) (size.setWidth 64) ops kVgaDev

inductive MapEvent where
  | bar0 (config : BitVec 32)
  | bar2 (config : BitVec 32)
  | vgaPciDetach
  | find (addr len : BitVec 64)

def mapStep (bus : Bus) : MapEvent → Option Bus
  | .bar0 config => barWritten kVgaLfbOps kVgaVramSize config bus
  | .bar2 config => barWritten kVgaBar2Ops kVgaBar2Size config bus
  | .vgaPciDetach =>
    let bus₁ := removeRegions kVgaLfbOps bus.regions.length bus
    some (removeRegions kVgaBar2Ops bus₁.regions.length bus₁)
  | .find addr len => some (findRegion bus addr len).2

/-! ## The open bus stays -/

def OpenBus (bus : Bus) : Prop :=
  ∃ r ∈ bus.regions, r.base = 0 ∧ r.size = kAddressSpace ∧ r.ops = kUnclaimedMemOps

variable {bus bus' : Bus} {ops : Ops}

section

variable (h : OpenBus bus)
include h

theorem OpenBus.of_subset
    (hsub : ∀ r ∈ bus.regions, r.ops = kUnclaimedMemOps →
      ∃ r' ∈ bus'.regions, r'.range = r.range ∧ r'.ops = r.ops)
    :
    OpenBus bus' := by
  obtain ⟨r, hr, hbase, hsize, hops⟩ := h
  obtain ⟨r', hr', hrange, hops'⟩ := hsub r hr hops
  simp only [BusRegion.range, Prod.mk.injEq] at hrange
  exact ⟨r', hr', hrange.1.trans hbase, hrange.2.trans hsize, hops'.trans hops⟩

theorem OpenBus.refresh : OpenBus (refreshBus bus) := by
  refine h.of_subset fun r hr _ => ?_
  obtain ⟨i, hi, rfl⟩ := getElem_of_mem hr
  refine ⟨_, mem_mapIdx.mpr ⟨i, hi, rfl⟩, rfl, rfl⟩

theorem OpenBus.addRegion {base size : BitVec 64} {dev : Nat}
    (hadd : busAddRegion bus base size ops dev = some bus') : OpenBus bus' := by
  unfold busAddRegion at hadd
  split at hadd
  · cases hadd
  · cases hadd
    apply OpenBus.refresh
    exact h.of_subset fun r hr _ => ⟨r, mem_append_left _ hr, rfl, rfl⟩

theorem OpenBus.setHost (i : Nat) (host : HostPtr) : OpenBus (bus.setHost i host) := by
  refine h.of_subset fun r hr _ => ?_
  obtain ⟨j, hj, rfl⟩ := getElem_of_mem hr
  have hj' : j < (bus.setHost i host).regions.length := by simpa [Bus.setHost] using hj
  refine ⟨_, getElem_mem hj', ?_, ?_⟩ <;>
    · simp only [Bus.setHost, getElem_modify]
      split <;> rfl

theorem OpenBus.remove (hops : ops ≠ kUnclaimedMemOps) (dev : Nat) :
    OpenBus (busRemoveRegion bus ops dev).2 := by
  unfold busRemoveRegion
  split
  · rename_i i hi
    apply OpenBus.refresh
    refine h.of_subset fun r hr hopen => ⟨r, ?_, rfl, rfl⟩
    obtain ⟨j, hj, rfl⟩ := getElem_of_mem hr
    refine mem_eraseIdx_iff_getElem.mpr ⟨j, hj, ?_, rfl⟩
    rintro rfl
    have hfound := (findIdx?_eq_some_iff_getElem.mp hi).2.1
    simp only [Bool.and_eq_true, decide_eq_true_eq] at hfound
    exact hops (hfound.1.symm.trans hopen)
  · exact h

end

theorem OpenBus.removeRegions (hops : ops ≠ kUnclaimedMemOps) {fuel : Nat} (h : OpenBus bus) :
    OpenBus (removeRegions ops fuel bus) := by
  induction fuel generalizing bus with
  | zero => exact h
  | succ fuel ih =>
    have hrem := h.remove hops kVgaDev
    rw [X86.removeRegions]
    generalize busRemoveRegion bus ops kVgaDev = out at hrem
    obtain ⟨found, bus'⟩ := out
    cases found
    · exact hrem
    · exact ih hrem

theorem OpenBus.barWritten {size config : BitVec 32} (hops : ops ≠ kUnclaimedMemOps)
    (h : OpenBus bus) (hstep : barWritten ops size config bus = some bus') : OpenBus bus' := by
  unfold X86.barWritten at hstep
  dsimp only at hstep
  split at hstep
  · cases hstep
    exact h.removeRegions hops
  · exact (h.removeRegions hops).addRegion hstep

theorem OpenBus.mapStep {e : MapEvent} (h : OpenBus bus) (hstep : mapStep bus e = some bus') :
    OpenBus bus' := by
  cases e with
  | bar0 config => exact h.barWritten (by decide) hstep
  | bar2 config => exact h.barWritten (by decide) hstep
  | vgaPciDetach =>
    cases hstep
    exact (h.removeRegions (by decide)).removeRegions (by decide)
  | find addr len =>
    cases hstep
    obtain ⟨r, hr, hrest⟩ := h
    exact ⟨r, by rwa [findRegion_regions], hrest⟩

theorem OpenBus.runAdds {ops : List BusOp} (h : OpenBus bus)
    (hadds : ∀ op ∈ ops, (∃ base size o dev, op = .add base size o dev) ∨
      ∃ base size o dev host, op = .addRam base size o dev host)
    (hrun : runBusOps bus ops = some bus') : OpenBus bus' := by
  induction ops generalizing bus with
  | nil =>
    cases hrun
    exact h
  | cons op ops ih =>
    obtain ⟨mid, hmid, hrest⟩ := Option.bind_eq_some_iff.mp hrun
    refine ih ?_ (fun op hop => hadds op (mem_cons_of_mem _ hop)) hrest
    rcases hadds op mem_cons_self with ⟨base, size, o, dev, rfl⟩ | ⟨base, size, o, dev, host, rfl⟩
    · exact h.addRegion hmid
    · obtain ⟨bus1, hadd, rfl⟩ := Option.map_eq_some_iff.mp hmid
      exact (h.addRegion hadd).setHost _ _

theorem openBus_x86MemMap {ramSize : BitVec 64} {bios : Bool}
    (h : x86MemMap ramSize bios = some bus) : OpenBus bus := by
  unfold x86MemMap at h
  split at h
  · cases h
  obtain ⟨bus1, hfirst, hrest⟩ := Option.bind_eq_some_iff.mp h
  have hopen : OpenBus bus1 := by
    cases hfirst
    exact ⟨_, mem_singleton.mpr rfl, rfl, rfl, rfl⟩
  refine hopen.runAdds ?_ hrest
  cases bios <;> simp

theorem busWf_x86MemMap {ramSize : BitVec 64} {bios : Bool}
    (h : x86MemMap ramSize bios = some bus) :
    BusWf bus := by
  unfold x86MemMap at h
  split at h
  · cases h
  · exact .run h

def ramBoard (ramSize : BitVec 64) (bios : Bool) (h : (x86MemMap ramSize bios).isSome)
    (mem : ByteMem) : World Unit :=
  World.ramOnly ((x86MemMap ramSize bios).get h) (busWf_x86MemMap (Option.some_get h).symm) 0 mem

/-- The maps a board can have: a new board's, after any of the calls of its life. -/
def X86Map (bus : Bus) : Prop :=
  ∃ (ramSize : BitVec 64) (bios : Bool) (events : List MapEvent) (bus₀ : Bus),
    x86MemMap ramSize bios = some bus₀ ∧ events.foldlM mapStep bus₀ = some bus

theorem x86MemMap_oneMeg : (x86MemMap 0x100000 false).isSome := by decide +kernel

theorem x86Map_ramBoard (ramSize : BitVec 64) (bios : Bool) (h : (x86MemMap ramSize bios).isSome)
    (mem : ByteMem) : X86Map (ramBoard ramSize bios h mem).bus :=
  ⟨ramSize, bios, [], _, (Option.some_get h).symm, rfl⟩

theorem X86Map.openBus (h : X86Map bus) : OpenBus bus := by
  obtain ⟨ramSize, bios, events, bus0, hnew, hrun⟩ := h
  have hopen := openBus_x86MemMap hnew
  clear hnew
  induction events generalizing bus0 with
  | nil =>
    cases hrun
    exact hopen
  | cons e events ih =>
    obtain ⟨bus1, hstep, hrest⟩ := Option.bind_eq_some_iff.mp hrun
    exact ih bus1 hrest (hopen.mapStep hstep)

/-! ## A byte below 4 GiB is claimed -/

section

variable {D : Type} {w : World D}

section

variable (h : OpenBus w.bus) (addr : BitVec 32)

include h

theorem OpenBus.regionAt :
    ∃ r, w.regionAt (addr.setWidth 64) 1 = some r := by
  obtain ⟨r, hr, hbase, hsize, -⟩ := h
  have haddr : (addr.setWidth 64).toNat = addr.toNat := by
    rw [BitVec.toNat_setWidth]
    exact Nat.mod_eq_of_lt (by have := addr.isLt; omega)
  have hcovers : r.covers (addr.setWidth 64) (.ofNat 64 1) = true := by
    rw [BusRegion.covers_eq_true, BusRegion.stop, hsize, kAddressSpace]
    constructor <;> bv_omega
  rw [World.regionAt, if_neg (by generalize addr.setWidth 64 = a at haddr; bv_omega)]
  cases hscan : scanRegions w.bus.regions (addr.setWidth 64) (.ofNat 64 1) with
  | some hit => exact ⟨hit.2, rfl⟩
  | none =>
    have hnone := (firstLeast_eq_iff _ _).mp hscan r hr
    rw [hcovers] at hnone
    cases hnone

theorem OpenBus.busRead :
    ∃ v w', w.busRead (addr.setWidth 64) 1 = some (v, w') := by
  obtain ⟨r, hr⟩ := h.regionAt addr
  have hfst := (w.find_fst (addr.setWidth 64) (show BitVec.ofNat 64 1 ≠ 0 by decide)).trans hr
  unfold World.busRead
  generalize w.find (addr.setWidth 64) 1 = found at hfst
  obtain ⟨region, w1⟩ := found
  obtain rfl : region = some r := hfst
  exact ⟨_, _, rfl⟩

theorem OpenBus.busWrite (val : BitVec 64) :
    ∃ w', w.busWrite (addr.setWidth 64) 1 val = some w' := by
  obtain ⟨r, hr⟩ := h.regionAt addr
  have hfst := (w.find_fst (addr.setWidth 64) (show BitVec.ofNat 64 1 ≠ 0 by decide)).trans hr
  unfold World.busWrite
  generalize w.find (addr.setWidth 64) 1 = found at hfst
  obtain ⟨region, w1⟩ := found
  obtain rfl : region = some r := hfst
  exact ⟨_, rfl⟩

end

theorem OpenBus.sameBoard {w' : World D} (h : OpenBus w.bus) (hsame : World.SameBoard w w') :
    OpenBus w'.bus := by
  obtain ⟨r, hr, hrest⟩ := h
  exact ⟨r, by rwa [hsame.regions], hrest⟩

end

end Cemu.X86
