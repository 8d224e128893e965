import Cemu.Riscv32.ExecC
import Cemu.Riscv64.Step

/-!
# riscv32: the step protocol

`riscv32_step` of `step.c`. The instruction runs on the bank `x`, which is loaded from the committed
registers before the fetch and committed only when the instruction retires: a trap drops its
register writes. The program counter is a 32-bit address behind every step.
-/

namespace Cemu.Rv32

open RaiseM

open Rv64 (FpBackend TrapRec Insn raiseTrap gdbTrapSignal kExFetchMisaligned kMcountinhibitIr
  kMcountinhibitCy)

variable {D : Type}

def cOn (s : Riscv32State) : Bool := decide (s.misa >>> 2 &&& 1 ≠ 0)

def fetch : RvM D Insn := do
  let m ← RaiseM.get
  let pc := m.cpu.pc
  if cOn m.rs ∧ pc &&& 3 = 0 then
    -- one aligned word covers both cases
    let v ← riscv32MemLoad pc 4 .ifetch
    let inst : BitVec 32 := v.setWidth 32
    if inst &&& 3 ≠ 3 then pure (.compressed (inst.setWidth 16)) else pure (.full inst)
  else
    let v ← riscv32MemLoad pc 2 .ifetch
    let half : BitVec 16 := v.setWidth 16
    if cOn m.rs ∧ half &&& 3 ≠ 3 then pure (.compressed half)
    else
      let v ← riscv32MemLoad (pc + 2) 2 .ifetch
      let high : BitVec 16 := v.setWidth 16
      pure (.full (half.setWidth 32 ||| high.setWidth 32 <<< 16))

def execute (fp : FpBackend) : Insn → RvM D (BitVec 64)
  | .compressed i => riscv32ExecC i
  | .full i => riscv32ExecInst fp i

def fetchChecked : RvM D Insn := do
  let m ← RaiseM.get
  let pc := m.cpu.pc
  if pc &&& 1 ≠ 0 then raiseTrap kExFetchMisaligned pc
  else if !cOn m.rs ∧ pc % 4 ≠ 0 then raiseTrap kExFetchMisaligned pc
  else
    let insn ← fetch
    riscv32TriggerCheck .execute pc
    pure insn

def commit (fp : FpBackend) (insn : Insn) : RvM D Unit := do
  setX 0 0
  let pc ← execute fp insn
  RaiseM.modify fun m => (m.setPc (low pc)).storeRegs

def stepInsn (fp : FpBackend) : RvM D Unit := do
  let insn ← fetchChecked
  commit fp insn

def landingPad (t : TrapRec) (m : Machine D) : Machine D :=
  let (base, rs) := riscv32Trap m.cpu.pc m.rs t.cause t.tval
  (m.setRs { rs with trapSeq := rs.trapSeq + 1, trapSignal := gdbTrapSignal t.cause }).setPc
    (low base)

def countStep (m : Machine D) : Machine D :=
  let s := m.rs
  let ir := s.mcountinhibit &&& kMcountinhibitIr = 0 ∧ s.counterWritten ≠ .minstret
  let cy := s.mcountinhibit &&& kMcountinhibitCy = 0 ∧ s.counterWritten ≠ .mcycle
  m.setRs { s with minstret := if ir then s.minstret + 1 else s.minstret,
                   mcycle := if cy then s.mcycle + 1 else s.mcycle,
                   counterWritten := .none }

def runInsn (fp : FpBackend) (m : Machine D) : Option (Machine D) :=
  match stepInsn fp m.loadRegs with
  | .ok _ m' => some m'
  | .raise t m' => some (landingPad t m')
  | .fatal => none

def atBoundary (m : Machine D) : Bool :=
  m.cpu.wait || decide (m.cpu.instCount &&& 0x3ff = 0)

/-- What a step does before the fetch. The Boolean is false when it returns there: the CPU
sleeps on, or a device asked to halt. -/
def stepPrologue (m : Machine D) : Bool × Machine D :=
  -- a stale high half must not leak into fetch arithmetic
  let m := m.setPc (low m.cpu.pc)
  let boundary := atBoundary m
  let m := if boundary then riscv32SyncTimer m else m
  if m.cpu.wait ∧ mipAll m &&& m.rs.mie = 0 then (false, m)
  else
    let m := if m.cpu.wait then m.setWait false else m
    if boundary then
      let m := riscv32DeliverInterrupt m
      (!m.w.ds.halted, m)
    else (true, m)

def riscv32Step (fp : FpBackend) (m : Machine D) : Option (Machine D) :=
  match stepPrologue m with
  | (false, m) => some m
  | (true, m) => (runInsn fp m).map countStep

/-! ### The program counter -/

/-- The program counter is a 32-bit address. -/
def LowPc (m : Machine D) : Prop := low m.cpu.pc = m.cpu.pc

section Pc

variable {fp : FpBackend} {m m' : Machine D}

theorem lowPc_setPc (m : Machine D) (pc : BitVec 64) : LowPc (m.setPc (low pc)) := by
  show low (low pc) = low pc
  rw [low, low, BitVec.and_assoc, BitVec.and_self]

theorem LowPc.syncTimer (h : LowPc m) : LowPc (riscv32SyncTimer m) := by
  unfold riscv32SyncTimer
  split
  · split <;> exact h
  · exact h

theorem LowPc.deliverInterrupt (h : LowPc m) : LowPc (riscv32DeliverInterrupt m) := by
  unfold riscv32DeliverInterrupt
  dsimp only
  split
  · exact lowPc_setPc ..
  · exact h

theorem stepPrologue_lowPc (m : Machine D) : LowPc (stepPrologue m).2 := by
  have hsync : LowPc (if atBoundary (m.setPc (low m.cpu.pc)) then
      riscv32SyncTimer (m.setPc (low m.cpu.pc)) else m.setPc (low m.cpu.pc)) := by
    split
    · exact (lowPc_setPc ..).syncTimer
    · exact lowPc_setPc ..
  have hawake {n : Machine D} (hn : LowPc n) :
      LowPc (if n.cpu.wait then n.setWait false else n) := by
    split <;> exact hn
  unfold stepPrologue
  dsimp only
  generalize (if atBoundary (m.setPc (low m.cpu.pc)) then _ else _ : Machine D) = n at hsync ⊢
  split
  · exact hsync
  · split
    · exact (hawake hsync).deliverInterrupt
    · exact hawake hsync

theorem runInsn_lowPc (h : runInsn fp m = some m') : LowPc m' := by
  unfold runInsn at h
  cases hrun : stepInsn fp m.loadRegs with
  | ok u t =>
    rw [hrun] at h
    cases h
    obtain ⟨insn, m1, -, hcommit⟩ := bind_eq_ok hrun
    obtain ⟨_, m2, -, hcommit⟩ := bind_eq_ok hcommit
    obtain ⟨pc, m3, -, hcommit⟩ := bind_eq_ok hcommit
    cases hcommit
    exact lowPc_setPc m3 pc
  | raise t n =>
    rw [hrun] at h
    cases h
    exact lowPc_setPc ..
  | fatal =>
    rw [hrun] at h
    cases h

/-- Whatever a step does, the program counter it leaves is a 32-bit address. -/
theorem riscv32Step_lowPc (h : riscv32Step fp m = some m') : LowPc m' := by
  have hpro := stepPrologue_lowPc m
  unfold riscv32Step at h
  generalize stepPrologue m = p at h hpro
  obtain ⟨_ | _, m1⟩ := p
  · cases h
    exact hpro
  · obtain ⟨t, hrun, rfl⟩ := Option.map_eq_some_iff.mp h
    have hlow := runInsn_lowPc hrun
    exact hlow

end Pc

end Cemu.Rv32
