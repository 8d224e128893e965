import Cemu.Riscv32.TableWalk
import Cemu.Riscv64.SpecWalk
import Cemu.Riscv64.TableWalk

/-!
# What a page fault leaves behind

Both walkers write the accessed and dirty bits back before they check the alignment of a superpage,
so a misaligned superpage faults with its entry already changed. It is the only page fault that
leaves a trace.
-/

namespace Cemu

open World

def IsPageFault (cause : BitVec 64) : Prop :=
  cause = Rv64.kExFetchPageFault ∨ cause = Rv64.kExLoadPageFault ∨ cause = Rv64.kExStorePageFault

instance (cause : BitVec 64) : Decidable (IsPageFault cause) :=
  inferInstanceAs (Decidable (_ ∨ _ ∨ _))

theorem pageFaultCause_isPageFault (acc : Rv64.Acc) : IsPageFault (Rv64.pageFaultCause acc) := by
  cases acc <;> decide

theorem accessFaultCause_not_isPageFault (acc : Rv64.Acc) :
    ¬ IsPageFault (Rv64.accessFaultCause acc) := by
  cases acc <;> decide

variable {D : Type}

namespace Riscv.Walker

variable {n : Nat} {W : Walker n} {w w' : World D} {t : Rv64.TrapRec}

/-- Memory after a page fault: as it was, or with the entry stored that the walk has spoiled. -/
theorem run_pageFault (h : W.run w = .raise t w') (hfault : IsPageFault t.cause) :
    w'.mem = w.mem ∨ ∃ a pte new level w₁ r, W.Spoiled w a pte new level w₁ ∧
      w.regionAt a W.size = some r ∧ w'.mem = w₁.storedMem r a W.size (new.setWidth 64) ∧
      SameMem w w₁ := by
  obtain ⟨a, -, -, rfl⟩ | ⟨-, hsame⟩ | ⟨-, a, pte, new, level, w₁, hspoil, -⟩ := run_raise h
  · exact absurd hfault (accessFaultCause_not_isPageFault W.acc)
  · exact .inl hsame.mem
  · obtain ⟨r, w₂, hr, hrun, hmem, hsame, -⟩ := hspoil.run
    cases hrun.symm.trans h
    exact .inr ⟨a, pte, new, level, w₁, r, hspoil, hr, hmem, hsame⟩

section

variable {σ : Type} {bare : Bool} {hit : Option (BitVec 64 × Option HostPtr)}
  {allowed : BitVec 64 → Bool} {host : World D → BitVec 64 → Option HostPtr}
  {setWorld : World D → σ} {fill : World D → BitVec 64 → σ} {m m' : σ}

theorem translate_pageFault (h : W.translate bare hit allowed host setWorld fill m w = .raise t m')
    (hfault : IsPageFault t.cause) :
    bare = false ∧ hit = none ∧ ∃ w', m' = setWorld w' ∧ (w'.mem = w.mem ∨
      ∃ a pte new level w₁ r, W.Spoiled w a pte new level w₁ ∧ w.regionAt a W.size = some r ∧
        w'.mem = w₁.storedMem r a W.size (new.setWidth 64) ∧ SameMem w w₁) := by
  obtain ⟨p, rfl⟩ | ⟨hbare, hmiss, w', hrun, rfl⟩ := W.translate_raise h
  · exact absurd hfault (accessFaultCause_not_isPageFault W.acc)
  · exact ⟨hbare, hmiss, w', rfl, run_pageFault hrun hfault⟩

end

end Riscv.Walker

namespace Rv64

/-- A translation that page-faults leaves memory, and the control state with the TLB in it, as they
were. -/
def FaultInert (m : Machine D) (vaddr : BitVec 64) (size : Nat) (acc : Acc) : Prop :=
  ∀ t m', riscvTranslate vaddr size acc m = .raise t m' → IsPageFault t.cause →
    m'.w.mem = m.w.mem ∧ m'.rs = m.rs

/-- The address is walked, to a misaligned superpage in RAM whose A or D bit the access sets. -/
def SpoilsEntry (m : Machine D) (vaddr : BitVec 64) (acc : Acc) : Prop :=
  isBare m.rs acc = false ∧ tlbLookup m.rs vaddr acc = none ∧
    ∃ a pte new level w r, (walker m.rs vaddr acc).Spoiled m.w a pte new level w ∧
      m.w.regionAt a 8 = some r ∧ r.ops = .kRamOps

theorem faultInert_iff (m : Machine D) (vaddr : BitVec 64) (size : Nat) (acc : Acc) :
    FaultInert m vaddr size acc ↔ ¬ SpoilsEntry m vaddr acc := by
  constructor
  · rintro hinert ⟨hbare, hmiss, a, pte, new, level, w, r, hspoil, hr, hops⟩
    obtain ⟨r', w', hr', hrun, -, -, hmoved⟩ := hspoil.run
    cases hr.symm.trans hr'
    have hraise : riscvTranslate vaddr size acc m =
        .raise (walker m.rs vaddr acc).pageFault (m.setWorld w') := by
      rw [riscvTranslate_eq, hbare, hmiss]
      exact (walker m.rs vaddr acc).translate_of_run hrun
    exact hmoved hops (hinert _ _ hraise (pageFaultCause_isPageFault acc)).1
  · intro h t m' hraise hfault
    rw [riscvTranslate_eq] at hraise
    obtain ⟨hbare, hmiss, w', rfl, hmem⟩ := Riscv.Walker.translate_pageFault hraise hfault
    refine ⟨?_, rfl⟩
    obtain hmem | ⟨a, pte, new, level, w₁, r, hspoil, hr, hmem, hsame⟩ := hmem
    · exact hmem
    by_cases hops : r.ops = .kRamOps
    · exact absurd ⟨hbare, Option.map_eq_none_iff.mp hmiss, a, pte, new, level, w₁, r, hspoil, hr,
        hops⟩ h
    -- a device takes the eight bytes without touching memory
    · exact (hmem.trans (storedMem_device hops (show 8 ≠ 4 by decide))).trans hsame.mem

end Rv64

namespace Rv32

open Rv64 (Acc)

/-- A translation that page-faults leaves memory, and the control state with the TLB in it, as they
were. -/
def FaultInert (m : Machine D) (vaddr : BitVec 64) (size : Nat) (acc : Acc) : Prop :=
  ∀ t m', riscv32Translate vaddr size acc m = .raise t m' → IsPageFault t.cause →
    m'.w.mem = m.w.mem ∧ m'.rs = m.rs

/-- The address is walked, to a misaligned superpage whose A or D bit the access sets, and the entry
lies in RAM or in a device register whose write moves memory. -/
def SpoilsEntry (m : Machine D) (vaddr : BitVec 64) (acc : Acc) : Prop :=
  isBare m.rs acc = false ∧ tlbLookup m.rs (low vaddr) acc = none ∧
    ∃ a pte new level w r, (walker m.rs (low vaddr) acc).Spoiled m.w a pte new level w ∧
      m.w.regionAt a kSv32PteSize = some r ∧
      (r.ops = .kRamOps ∨ ∃ k, r.ops = .device k ∧
        ((w.ops k).write r.dev a kSv32PteSize (new.setWidth 64) w.ds w.mem).2 ≠ m.w.mem)

theorem faultInert_iff (m : Machine D) (vaddr : BitVec 64) (size : Nat) (acc : Acc) :
    FaultInert m vaddr size acc ↔ ¬ SpoilsEntry m vaddr acc := by
  constructor
  · rintro hinert ⟨hbare, hmiss, a, pte, new, level, w, r, hspoil, hr, hops⟩
    obtain ⟨r', w', hr', hrun, hmem, -, hmoved⟩ := hspoil.run
    cases hr.symm.trans hr'
    have hraise : riscv32Translate vaddr size acc m =
        .raise (walker m.rs (low vaddr) acc).pageFault (m.setWorld w') := by
      rw [riscv32Translate_eq, hbare, hmiss]
      exact (walker m.rs (low vaddr) acc).translate_of_run hrun
    have hsame := (hinert _ _ hraise (pageFaultCause_isPageFault acc)).1
    obtain hops | ⟨k, hops, hne⟩ := hops
    · exact hmoved hops hsame
    · rw [storedMem, hops] at hmem
      exact hne (hmem.symm.trans hsame)
  · intro h t m' hraise hfault
    rw [riscv32Translate_eq] at hraise
    obtain ⟨hbare, hmiss, w', rfl, hmem⟩ := Riscv.Walker.translate_pageFault hraise hfault
    refine ⟨?_, rfl⟩
    obtain hmem | ⟨a, pte, new, level, w₁, r, hspoil, hr, hmem, -⟩ := hmem
    · exact hmem
    by_contra hne
    refine h ⟨hbare, Option.map_eq_none_iff.mp hmiss, a, pte, new, level, w₁, r, hspoil, hr, ?_⟩
    cases hops : r.ops with
    | kRamOps => exact .inl rfl
    | device k =>
      rw [storedMem, hops] at hmem
      exact .inr ⟨k, rfl, fun heq => hne (hmem.trans heq)⟩

end Rv32

/-- On both machines a page fault leaves memory and TLB as they were unless the walk spoils an
entry. -/
theorem translate_faultInert_iff :
    (∀ (m : Rv64.Machine D) (vaddr : BitVec 64) (size : Nat) (acc : Rv64.Acc),
      Rv64.FaultInert m vaddr size acc ↔ ¬ Rv64.SpoilsEntry m vaddr acc) ∧
    (∀ (m : Rv32.Machine D) (vaddr : BitVec 64) (size : Nat) (acc : Rv64.Acc),
      Rv32.FaultInert m vaddr size acc ↔ ¬ Rv32.SpoilsEntry m vaddr acc) :=
  ⟨Rv64.faultInert_iff, Rv32.faultInert_iff⟩

/-- The root table maps the first superpage of both machines to the odd page `0x80001`, readable and
not yet accessed. -/
def oddSuperpage : BitVec 64 := 0x80001 <<< 10 ||| 0x3

def Rv64.oddMachine : Rv64.Machine Unit :=
  (Machine.init (World.dram (ByteMem.store (fun _ => 0) 0 8 oddSuperpage)) 0x80000000).setRs
    pagedState

def Rv32.oddMachine : Rv32.Machine Unit :=
  (Machine.init (World.dram (ByteMem.store (fun _ => 0) 0 4 oddSuperpage)) 0x80000000).setRs
    { riscv32Init with priv := Rv64.kPrivSupervisor, satp := 0x80080000 }

/-- A load from the odd superpage faults and leaves the entry's A bit set. -/
theorem oddMachine_fault_sets_accessed :
    ¬ Rv64.FaultInert Rv64.oddMachine 0 1 .read ∧ ¬ Rv32.FaultInert Rv32.oddMachine 0 1 .read := by
  constructor
  · intro h
    have hmem := (h ⟨Rv64.kExLoadPageFault, 0, none⟩ _ rfl (by decide)).1
    exact absurd (congrFun (congrFun hmem 0) 0) (by decide +kernel)
  · intro h
    have hmem := (h ⟨Rv64.kExLoadPageFault, 0, none⟩ _ rfl (by decide)).1
    exact absurd (congrFun (congrFun hmem 0) 0) (by decide +kernel)

end Cemu
