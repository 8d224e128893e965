import Cemu.X86.Frame

/-!
# x86: a board with one device

A memory map of one device that answers every read by a function of the address and ignores
writes. Whatever the processor does on such a board, the next read is answered the same way.
-/

namespace Cemu.X86

open BitVec

variable {D : Type}

def oneDevice : BusRegion := ⟨0, 0x200000000, .device 0, 0, false, none⟩

/-- The board whose device answers with `f`. -/
def answeringWorld (f : BitVec 64 → BitVec 64) : World Unit where
  bus := ⟨[oneDevice], none⟩
  busWf := BusWf.run (show runBusOps Bus.empty [.add 0 0x200000000 (.device 0) 0] = _ by decide)
  ram := fun _ => ⟨0, 0⟩
  mem := fun _ _ => 0
  ops := fun _ => World.readOnlyOps fun _ addr _ ds => (f addr, ds)
  ds := ⟨(), 0, false⟩
  timer := none
  dbgMem := false

/-- Every read of the board is answered by `f`. -/
structure Answers (f : BitVec 64 → BitVec 64) (w : World D) : Prop where
  regions : w.bus.regions = [oneDevice]
  read : ∀ dev addr size ds, ((w.ops 0).read dev addr size ds).1 = f addr

theorem answers_answeringWorld (f : BitVec 64 → BitVec 64) : Answers f (answeringWorld f) :=
  ⟨rfl, fun _ _ _ _ => rfl⟩

namespace Answers

variable {f : BitVec 64 → BitVec 64} {w w' : World D} {addr : BitVec 64} {n : Nat}

theorem of_sameBoard (h : Answers f w) (hsame : World.SameBoard w w') : Answers f w' :=
  ⟨hsame.regions.trans h.regions, by rw [hsame.ops]; exact h.read⟩

theorem probe (h : Answers f w) (hn : 0 < n) (haddr : addr.toNat + n ≤ 0x200000000) :
    (w.busProbe addr n).1 = some oneDevice := by
  have hlen : BitVec.ofNat 64 n ≠ 0 := by
    intro hzero
    have hnat : n % 2 ^ 64 = 0 := by
      rw [← toNat_ofNat, hzero]
      rfl
    omega
  have hcovers : oneDevice.covers addr (.ofNat 64 n) = true := by
    rw [BusRegion.covers, Bool.and_eq_true, decide_eq_true_eq, decide_eq_true_eq]
    refine ⟨Nat.zero_le _, ?_⟩
    show (addr.toNat + n % 2 ^ 64) % 2 ^ 64 ≤ 0x200000000
    omega
  have hscan : scanRegions [oneDevice] addr (.ofNat 64 n) = some (0, oneDevice) := by
    rw [scanRegions, firstLeast, leastFrom, leastFrom, leastStep, if_pos hcovers]
  rw [World.busProbe, World.find_fst _ _ hlen, World.regionAt, if_neg, h.regions, hscan]
  · rfl
  · rw [lt_def, toNat_not, toNat_ofNat]
    omega

theorem readPhys (h : Answers f w) (hn : 0 < n) (haddr : addr.toNat + n ≤ 0x200000000) :
    (readPhys w addr n).1 = f addr := by
  have hprobe := h.probe hn haddr
  have hsame := (w.find_sameButCache addr n).toSameBoard
  unfold X86.readPhys
  unfold World.busProbe at hprobe ⊢
  generalize w.find addr n = found at hprobe hsame
  obtain ⟨region, w1⟩ := found
  obtain rfl : region = some oneDevice := hprobe
  exact (h.of_sameBoard hsame).read ..

end Answers

theorem toNat_a20Gate (s : X86State) (addr : BitVec 64) : (a20Gate s addr).toNat ≤ addr.toNat := by
  unfold a20Gate
  split
  · exact le_rfl
  · exact Nat.and_le_left

theorem physLoad_answers {f : BitVec 64 → BitVec 64} {m : Machine D} (h : Answers f m.w)
    {addr : BitVec 64} {n : Nat} (hn : 0 < n) (haddr : addr.toNat + n ≤ 0x200000000) :
    ∃ w, physLoad addr n m = .ok (f (a20Gate m.s addr)) (m.setWorld w) ∧ Answers f w := by
  have hgate := toNat_a20Gate m.s addr
  refine ⟨(readPhys m.w (a20Gate m.s addr) n).2, ?_,
    h.of_sameBoard (readPhys_sameMem ..).toSameBoard⟩
  show Outcome.ok (readPhys m.w (a20Gate m.s addr) n).1 _ = _
  rw [h.readPhys hn (by omega)]

/-! ### One device on the ports -/

def onePort : BusRegion := ⟨0, 0x20000, .device 0, 0, false, none⟩

theorem onePort_wf : BusWf ⟨[onePort], none⟩ :=
  BusWf.run (show runBusOps Bus.empty [.add 0 0x20000 (.device 0) 0] = _ by decide)

variable {m : Machine D} {size : Nat}

section

variable (hio : m.io.regions = [onePort]) (port : BitVec 16) (hpos : 0 < size) (hsize : size ≤ 4)

include hio hpos hsize

theorem portFind_onePort :
    portFind m port size = (some onePort, (portFind m port size).2) := by
  have haddr : (port.setWidth 64).toNat = port.toNat := toNat_setWidth_of_le (by decide)
  have hlen : BitVec.ofNat 64 size ≠ 0 := by
    intro hzero
    have hnat : size % 2 ^ 64 = 0 := by
      rw [← toNat_ofNat, hzero]
      rfl
    omega
  have hcovers : onePort.covers (port.setWidth 64) (.ofNat 64 size) = true := by
    rw [BusRegion.covers, Bool.and_eq_true, decide_eq_true_eq, decide_eq_true_eq]
    refine ⟨Nat.zero_le _, ?_⟩
    show (port.toNat + size % 2 ^ 64) % 2 ^ 64 ≤ 0x20000
    omega
  have hscan : scanRegions [onePort] (port.setWidth 64) (.ofNat 64 size) = some (0, onePort) := by
    rw [scanRegions, firstLeast, leastFrom, leastFrom, leastStep, if_pos hcovers]
  have hfind : (portFind m port size).1 = some onePort := by
    show ((findRegion m.io (port.setWidth 64) (.ofNat 64 size)).1.map Prod.snd) = _
    rw [m.ioWf.findRegion_eq hlen, if_neg, hio, hscan]
    · rfl
    · rw [lt_def, toNat_not, toNat_ofNat]
      omega
  rw [← hfind]

/-- A port read is recorded; the processor and the map stay as they are. -/
theorem portRead_onePort :
    ∃ v m', portRead port size m = .ok v m' ∧ m'.portReads = ⟨port, size⟩ :: m.portReads ∧
      m'.s = m.s ∧ m'.gMemSlow = m.gMemSlow ∧ World.SameBoard m.w m'.w ∧
      m'.io.regions = m.io.regions ∧ m'.ports = m.ports := by
  unfold portRead
  rw [portFind_onePort hio port hpos hsize]
  exact ⟨_, _, rfl, rfl, rfl, rfl, ⟨rfl, rfl, rfl, rfl, rfl⟩, findRegion_regions .., rfl⟩

end

end Cemu.X86
