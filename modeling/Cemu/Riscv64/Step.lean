import Cemu.Riscv64.ExecC

/-!
# riscv64: the step protocol

`riscv_step` of `step.c`: sample the interrupt lines at a batch boundary, fetch, check the
execute triggers, execute, commit the pc. A raise anywhere in between lands on the trap
consumer with the state the instruction had reached.
-/

namespace Cemu.Rv64

variable {D : Type}

def gdbTrapSignal (cause : BitVec 64) : BitVec 8 :=
  if cause = kExIllegal then 4
  else if cause = kExBreakpoint ∨ cause = kExUserEcall ∨ cause = kExSupervisorEcall ∨
      cause = kExMachineEcall then 5
  else 11

inductive Insn where
  | compressed (i : BitVec 16)
  | full (i : BitVec 32)

def cOn (s : RiscvState) : Bool := decide (s.misa >>> 2 &&& 1 ≠ 0)

def fetch : RvM D Insn := do
  let m ← RaiseM.get
  let pc := m.cpu.pc
  if cOn m.rs ∧ pc &&& 3 = 0 then
    -- one aligned word covers both cases
    let v ← riscvMemLoad pc 4 .ifetch
    let inst : BitVec 32 := v.setWidth 32
    if inst &&& 3 ≠ 3 then pure (.compressed (inst.setWidth 16)) else pure (.full inst)
  else
    let v ← riscvMemLoad pc 2 .ifetch
    let half : BitVec 16 := v.setWidth 16
    if cOn m.rs ∧ half &&& 3 ≠ 3 then pure (.compressed half)
    else
      let v ← riscvMemLoad (pc + 2) 2 .ifetch
      let high : BitVec 16 := v.setWidth 16
      pure (.full (half.setWidth 32 ||| high.setWidth 32 <<< 16))

def execute (fp : FpBackend) : Insn → RvM D (BitVec 64)
  | .compressed i => riscvExecC i
  | .full i => riscvExecInst fp i

def fetchChecked : RvM D Insn := do
  let m ← RaiseM.get
  let pc := m.cpu.pc
  if pc &&& 1 ≠ 0 then raiseTrap kExFetchMisaligned pc
  else if !cOn m.rs ∧ pc % 4 ≠ 0 then raiseTrap kExFetchMisaligned pc
  else
    let insn ← fetch
    riscvTriggerCheck .execute pc
    pure insn

def commit (fp : FpBackend) (insn : Insn) : RvM D Unit := do
  setX 0 0
  let pc ← execute fp insn
  RaiseM.modify fun m => m.setPc pc

def stepInsn (fp : FpBackend) : RvM D Unit := do
  let insn ← fetchChecked
  commit fp insn

def landingPad (t : TrapRec) (m : Machine D) : Machine D :=
  let (base, rs) := riscvTrap m.cpu.pc m.rs t.cause t.tval
  (m.setRs { rs with trapSeq := rs.trapSeq + 1, trapSignal := gdbTrapSignal t.cause }).setPc base

def countStep (m : Machine D) : Machine D :=
  let s := m.rs
  let ir := s.mcountinhibit &&& kMcountinhibitIr = 0 ∧ s.counterWritten ≠ .minstret
  let cy := s.mcountinhibit &&& kMcountinhibitCy = 0 ∧ s.counterWritten ≠ .mcycle
  m.setRs { s with minstret := if ir then s.minstret + 1 else s.minstret,
                   mcycle := if cy then s.mcycle + 1 else s.mcycle,
                   counterWritten := .none }

def runInsn (fp : FpBackend) (m : Machine D) : Option (Machine D) :=
  match stepInsn fp m with
  | .ok _ m' => some m'
  | .raise t m' => some (landingPad t m')
  | .fatal => none

def atBoundary (m : Machine D) : Bool :=
  m.cpu.wait || decide (m.cpu.instCount &&& 0x3ff = 0)

/-- What a step does before the fetch. The Boolean is false when it returns there: the CPU
sleeps on, or a device asked to halt. -/
def stepPrologue (m : Machine D) : Bool × Machine D :=
  let boundary := atBoundary m
  let m := if boundary then riscvSyncTimer m else m
  if m.cpu.wait ∧ mipAll m &&& m.rs.mie = 0 then (false, m)
  else
    let m := if m.cpu.wait then m.setWait false else m
    if boundary then
      let m := riscvDeliverInterrupt m
      (!m.w.ds.halted, m)
    else (true, m)

def riscvStep (fp : FpBackend) (m : Machine D) : Option (Machine D) :=
  match stepPrologue m with
  | (false, m) => some m
  | (true, m) => (runInsn fp m).map countStep

/-! ### Runs -/

/-- The machine after `k` steps, as long as none stops the process. -/
def runOf (fp : FpBackend) (m : Machine D) : Nat → Machine D
  | 0 => m
  | k + 1 => (riscvStep fp (runOf fp m k)).getD m

theorem runOf_succ {fp : FpBackend} {m : Machine D} {k : Nat}
    (h : (riscvStep fp (runOf fp m k)).isSome = true) :
    riscvStep fp (runOf fp m k) = some (runOf fp m (k + 1)) := by
  obtain ⟨m', hm'⟩ := Option.isSome_iff_exists.mp h
  rw [runOf, hm']
  rfl

/-- Reset at the start of a DRAM that holds the instruction `i` and zeros. -/
def oneInsn (i : BitVec 64) : Machine Unit :=
  Machine.init (World.dram (ByteMem.store (fun _ => 0) 0 4 i)) 0x80000000

end Cemu.Rv64
