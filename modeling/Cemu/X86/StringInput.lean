import Cemu.X86.String
import Cemu.X86.TornStores

/-!
# x86: what a faulting INS has consumed

INS reads the port before it walks to the destination, so a page fault on the destination comes
when the device has already given its datum. Every other fault of the iteration comes before the
port read.
-/

namespace Cemu.X86

open RaiseM BitVec

variable {D : Type}

variable {m m' : Machine D} {size : Nat} {e : TrapRec}

/-- The port gives the datum `v`: the I/O permission check grants the access, a device answers. -/
def PortGives (port : BitVec 16) (size : Nat) (m : Machine D) (v : BitVec 32) (t : Machine D) :
    Prop :=
  ∃ t0 t1, ioAllowed port size m = .ok true t0 ∧ portRead port size t0 = .ok v t1 ∧
    ioBpHit port t1 = .ok () t

section PortGives

variable {port : BitVec 16} {v : BitVec 32} {t : Machine D}

theorem PortGives.portReads (h : PortGives port size m v t) :
    t.portReads = ⟨port, size⟩ :: m.portReads := by
  obtain ⟨t0, t1, hallowed, hport, hhit⟩ := h
  cases hhit
  rw [← (MemFrame.ioAllowed.of_ok hallowed).portReads]
  unfold portRead at hport
  split at hport
  · cases hport
  rename_i r m1 hfind
  have hm1 : m1 = (portFind t0 port size).2 := by rw [hfind]
  cases hport
  rw [hm1]
  rfl

end PortGives

/-! ### The store of the datum -/

variable {wide : Bool}

end Cemu.X86
