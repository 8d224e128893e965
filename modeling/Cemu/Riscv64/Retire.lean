import Cemu.Riscv64.Atomic
import Cemu.Riscv64.MipWires

/-!
# riscv64: the retirement counter

`riscv_step` counts after its landing pad, so a step that ends in a trap is counted like one whose
instruction retired. A write of minstret suppresses the count of the writing instruction. The main
result follows minstret along a run.
-/

namespace Cemu.Rv64

open RaiseM Relation

variable {D : Type}

/-! ### Steps, by how they end -/

inductive StepEnd where
  /-- No fetch: the CPU sleeps, or a device asked to halt. -/
  | asleep
  | retired
  /-- A synchronous exception was delivered. -/
  | trapped
  deriving DecidableEq, Repr

def stepEnd (fp : FpBackend) (m : Machine D) : Option StepEnd :=
  match stepPrologue m with
  | (false, _) => some .asleep
  | (true, m₁) =>
    match stepInsn fp m₁ with
    | .ok _ _ => some .retired
    | .raise _ _ => some .trapped
    | .fatal => none

def minstretWrite (m : Machine D) : Insn → Option (BitVec 64)
  | .compressed _ => none
  | .full i =>
    if isCsrInst i = true ∧ bits i 20 12 = 0xB02 ∧ ¬ m.rs.priv < csrPriv 0xB02 then
      csrWriteValue (f3 i) m.rs.minstret (csrSource m i)
    else none

/-- The value the instruction of a step from `m` writes to minstret, if it writes it. -/
def minstretWritten (m : Machine D) : Option (BitVec 64) :=
  match stepPrologue m with
  | (false, _) => none
  | (true, m₁) =>
    match fetchChecked m₁ with
    | .ok insn m₂ => minstretWrite (m₂.setX 0 0) insn
    | _ => none

/-! ### What moves the counter -/

def retireRegs (m : Machine D) : BitVec 64 × CounterWritten := (m.rs.minstret, m.rs.counterWritten)

theorem riscvTrap_retire (pc : BitVec 64) (s : RiscvState) (cause tval : BitVec 64) :
    (riscvTrap pc s cause tval).2.minstret = s.minstret ∧
      (riscvTrap pc s cause tval).2.counterWritten = s.counterWritten := by
  unfold riscvTrap
  cases trapToS s cause <;> exact ⟨rfl, rfl⟩

theorem riscvDeliverInterrupt_retire (m : Machine D) :
    retireRegs (riscvDeliverInterrupt m) = retireRegs m := by
  unfold riscvDeliverInterrupt
  simp only
  split
  · exact Prod.ext_iff.mpr (riscvTrap_retire _ _ _ _)
  · rfl

theorem stepPrologue_retire (m : Machine D) : retireRegs (stepPrologue m).2 = retireRegs m := by
  have htimer : retireRegs (if atBoundary m then riscvSyncTimer m else m) = retireRegs m := by
    split
    · rw [retireRegs, riscvSyncTimer_rs]
      rfl
    · rfl
  have hwake (m : Machine D) : retireRegs (if m.cpu.wait then m.setWait false else m) =
      retireRegs m := by
    split <;> rfl
  simp only [stepPrologue]
  generalize (if atBoundary m then riscvSyncTimer m else m) = m₁ at htimer ⊢
  split
  · exact htimer
  split
  · exact (riscvDeliverInterrupt_retire _).trans ((hwake m₁).trans htimer)
  · exact (hwake m₁).trans htimer

variable {m m' : Machine D} {s s' : RiscvState} {val nextPc n v : BitVec 64} {i : BitVec 32}

theorem PlainMove.retire (h : PlainMove m m') : retireRegs m' = retireRegs m := by
  cases h with
  | still h =>
    cases h with
    | translate vaddr size acc h =>
      obtain ⟨-, hsame, -⟩ := riscvTranslate_frame h
      rw [retireRegs, hsame]
      rfl
    | _ => rfl
  | outside h => rw [retireRegs, h, retireRegs]
  | _ => rfl

theorem retire_of_plain (h : ReflTransGen PlainMove m m') : retireRegs m' = retireRegs m := by
  induction h with
  | refl => rfl
  | tail _ hmove ih => exact hmove.retire.trans ih

theorem retire_of_still {k : Slack} (h : ReflTransGen (StillMove k) m m') :
    retireRegs m' = retireRegs m :=
  retire_of_plain (.mono (fun _ _ => StillMove.plain) _ _ h)

theorem riscvCsrWrite_other {addr : BitVec 64} (haddr : addr ≠ 0xB02)
    (h : riscvCsrWrite s addr val nextPc = some s') :
    s'.minstret = s.minstret ∧ (s.counterWritten ≠ .minstret → s'.counterWritten ≠ .minstret) := by
  unfold riscvCsrWrite at h
  split at h
  · cases h
  split at h
  · cases h
    exact ⟨rfl, fun _ => by simp⟩
  · obtain ⟨c, -, hc⟩ := Option.bind_eq_some_iff.mp h
    obtain ⟨hret, hmark⟩ := (csrWrite_kept hc).2
    exact ⟨hret, fun hne => by rwa [hmark]⟩

/-! ### One instruction -/

structure Unwritten (m m' : Machine D) : Prop where
  minstret : m'.rs.minstret = m.rs.minstret
  mark : m'.rs.counterWritten ≠ .minstret

theorem Unwritten.of_same (hmark : m.rs.counterWritten ≠ .minstret)
    (h : retireRegs m' = retireRegs m) : Unwritten m m' := by
  obtain ⟨hret, hw⟩ := Prod.ext_iff.mp h
  exact ⟨hret, fun hc => hmark (hw.symm.trans hc)⟩

theorem riscvCsrRead_minstret (hpriv : ¬ m.rs.priv < csrPriv 0xB02) :
    riscvCsrRead m 0xB02 = some m.rs.minstret := by
  have hmode : ¬ m.rs.priv < kPrivMachine := hpriv
  rw [riscvCsrRead, if_neg hpriv]
  simp [readCounter, hmode]

theorem riscvCsrWrite_minstret (hpriv : ¬ s.priv < csrPriv 0xB02) (v nextPc : BitVec 64) :
    riscvCsrWrite s 0xB02 v nextPc =
      some { s with minstret := v, counterWritten := .minstret } := by
  rw [riscvCsrWrite, if_neg hpriv]
  rfl

theorem csrOp_writes (hw : minstretWrite m (.full i) = some v) :
    ∃ m', csrOp n i m = .ok () m' ∧ retireRegs m' = (v, .minstret) := by
  rw [minstretWrite] at hw
  split at hw
  · next hc =>
    obtain ⟨-, haddr, hpriv⟩ := hc
    refine ⟨(m.setRs { m.rs with minstret := v, counterWritten := .minstret }).setX (rd i)
      m.rs.minstret, ?_, rfl⟩
    unfold csrSource at hw
    rw [csrOp, bind_apply, get_apply, Outcome.bind_ok, haddr, riscvCsrRead_minstret hpriv]
    simp only [hw, riscvCsrWrite_minstret hpriv]
    rfl
  · cases hw

theorem csrOp_unwritten {u : Unit} (hcsr : isCsrInst i = true)
    (hmark : m.rs.counterWritten ≠ .minstret) (hw : minstretWrite m (.full i) = none)
    (h : csrOp n i m = .ok u m') : Unwritten m m' := by
  have hstate := csrOp_apply n i m
  rw [h] at hstate
  have hm' := Option.some.inj hstate
  have hself : Unwritten m m := .of_same hmark rfl
  split at hm'
  · rwa [hm']
  rename_i old hread
  split at hm'
  · rw [hm']
    exact ⟨hself.minstret, hself.mark⟩
  rename_i v hv
  split at hm'
  · rwa [hm']
  rename_i hwrite
  have haddr : bits i 20 12 ≠ 0xB02 := by
    intro haddr
    have hpriv : ¬ m.rs.priv < csrPriv 0xB02 := by
      intro hlow
      rw [haddr, riscvCsrRead, if_pos hlow] at hread
      cases hread
    rw [haddr, riscvCsrRead_minstret hpriv] at hread
    cases hread
    rw [minstretWrite, if_pos ⟨hcsr, haddr, hpriv⟩, hv] at hw
    cases hw
  obtain ⟨hret, hother⟩ := riscvCsrWrite_other haddr hwrite
  rw [hm']
  exact ⟨hret, hother hmark⟩

theorem execute_csr (fp : FpBackend) (hcsr : isCsrInst i = true) :
    execute (D := D) fp (.full i) = thenFall 4 (csrOp 4 i) :=
  riscvExecInstAt_csr fp 4 hcsr

theorem execute_writes (fp : FpBackend) {insn : Insn} (hw : minstretWrite m insn = some v) :
    ∃ pc m', execute fp insn m = .ok pc m' ∧ retireRegs m' = (v, .minstret) := by
  cases insn with
  | compressed i => cases hw
  | full i =>
    have hcsr : isCsrInst i = true := by
      rw [minstretWrite] at hw
      split at hw
      · next hc => exact hc.1
      · cases hw
    obtain ⟨m', hop, hret⟩ := csrOp_writes hw
    rw [execute_csr fp hcsr, thenFall, bind_apply, hop]
    exact ⟨_, m', rfl, hret⟩

theorem execute_unwritten {fp : FpBackend} {insn : Insn} {pc : BitVec 64}
    (hmark : m.rs.counterWritten ≠ .minstret) (hw : minstretWrite m insn = none)
    (h : execute fp insn m = .ok pc m') : Unwritten m m' := by
  cases hcsr : insn.isCsr with
  | false => exact .of_same hmark (retire_of_plain ((execute_plain fp hcsr).of_ok h))
  | true =>
    cases insn with
    | compressed i => cases hcsr
    | full i =>
      rw [execute_csr fp hcsr] at h
      obtain ⟨u, m₁, hop, h⟩ := bind_eq_ok h
      cases h
      exact csrOp_unwritten hcsr hmark hw hop

section

variable {fp : FpBackend} {m m₁ : Machine D} {insn : Insn} (hf : fetchChecked m = .ok insn m₁)

include hf

theorem stepInsn_fetched :
    stepInsn fp m = (execute fp insn (m₁.setX 0 0)).bind fun pc m2 => .ok () (m2.setPc pc) := by
  rw [stepInsn, bind_apply, hf]
  rfl

theorem stepInsn_writes {v : BitVec 64} (hw : minstretWrite (m₁.setX 0 0) insn = some v) :
    ∃ m', stepInsn fp m = .ok () m' ∧ retireRegs m' = (v, .minstret) := by
  obtain ⟨pc, m', hx, hret⟩ := execute_writes fp hw
  rw [stepInsn_fetched hf, hx]
  exact ⟨m'.setPc pc, rfl, hret⟩

theorem stepInsn_unwritten {m' : Machine D} {u : Unit} (hmark : m.rs.counterWritten ≠ .minstret)
    (hw : minstretWrite (m₁.setX 0 0) insn = none) (h : stepInsn fp m = .ok u m') :
    Unwritten m m' := by
  have hfetch := retire_of_still ((fetchChecked_still insn.slack).of_ok hf)
  obtain ⟨hret, hmark1⟩ := Unwritten.of_same hmark hfetch
  rw [stepInsn_fetched hf] at h
  obtain ⟨pc, m2, hx, h⟩ := Outcome.bind_eq_ok h
  cases h
  have hun := execute_unwritten (m := m₁.setX 0 0) hmark1 hw hx
  exact ⟨hun.minstret.trans hret, hun.mark⟩

end

theorem runInsn_unwritten {fp : FpBackend} {m m' : Machine D}
    (hmark : m.rs.counterWritten ≠ .minstret)
    (hw : ∀ insn m₁, fetchChecked m = .ok insn m₁ → minstretWrite (m₁.setX 0 0) insn = none)
    (h : runInsn fp m = some m') : Unwritten m m' := by
  unfold runInsn at h
  split at h
  · next hok =>
    cases h
    obtain ⟨insn, m₁, hf, -⟩ := bind_eq_ok hok
    exact stepInsn_unwritten hf hmark (hw insn m₁ hf) hok
  · next t m₁ hraise =>
    cases h
    obtain ⟨k, -, hstill⟩ := stepInsn_raise hraise
    refine .of_same hmark (.trans ?_ (retire_of_still hstill))
    exact Prod.ext_iff.mpr (riscvTrap_retire _ _ _ _)
  · cases h

/-! ### One step -/

def IrClear (m : Machine D) : Prop := m.rs.mcountinhibit &&& kMcountinhibitIr = 0

section

variable {fp : FpBackend} {m m' : Machine D} (h : riscvStep fp m = some m')

include h

theorem riscvStep_unmarked (hmark : m.rs.counterWritten = .none) :
    m'.rs.counterWritten = .none := by
  have hpro := stepPrologue_retire m
  unfold riscvStep at h
  split at h
  · next hp =>
    cases h
    rw [hp] at hpro
    exact (Prod.ext_iff.mp hpro).2.trans hmark
  · obtain ⟨m2, -, rfl⟩ := Option.map_eq_some_iff.mp h
    rfl

theorem riscvStep_writes {v : BitVec 64} (hw : minstretWritten m = some v) :
    m'.rs.minstret = v := by
  unfold minstretWritten at hw
  split at hw
  · cases hw
  rename_i m₁ hp
  split at hw
  · next insn m2 hf =>
    obtain ⟨m3, hok, hret⟩ : ∃ m3, stepInsn fp _ = .ok () m3 ∧ _ := stepInsn_writes hf hw
    simp only [riscvStep, hp, runInsn, hok, Option.map_some, Option.some.injEq] at h
    have hv : m3.rs.minstret = v := congrArg Prod.fst hret
    have hmark : m3.rs.counterWritten = .minstret := congrArg Prod.snd hret
    rw [← h, ← hv]
    simp [countStep, hmark]
  · cases hw

theorem riscvStep_counts (hmark : m.rs.counterWritten = .none) (hw : minstretWritten m = none)
    (hir : IrClear m') :
    ∃ e, stepEnd fp m = some e ∧
      m'.rs.minstret = if e = .asleep then m.rs.minstret else m.rs.minstret + 1 := by
  unfold riscvStep at h
  unfold stepEnd
  unfold minstretWritten at hw
  cases hp : stepPrologue m with
  | mk go m₁ =>
    have hsame : retireRegs m₁ = retireRegs m := by
      rw [← stepPrologue_retire m, hp]
    rw [hp] at h hw
    have hpro : Unwritten m m₁ := .of_same (by rw [hmark]; simp) hsame
    cases go with
    | false =>
      cases h
      exact ⟨.asleep, rfl, hpro.minstret⟩
    | true =>
      obtain ⟨m2, hrun, rfl⟩ := Option.map_eq_some_iff.mp h
      have hun : Unwritten m₁ m2 := by
        refine runInsn_unwritten hpro.mark (fun insn m3 hf => ?_) hrun
        simpa only [hf] using hw
      have hone : (countStep m2).rs.minstret = m.rs.minstret + 1 := by
        have hir2 : m2.rs.mcountinhibit &&& kMcountinhibitIr = 0 := hir
        rw [← hpro.minstret, ← hun.minstret]
        simp [countStep, hir2, hun.mark]
      cases hs : stepInsn fp m₁ with
      | fatal => simp [runInsn, hs] at hrun
      | ok u m3 => exact ⟨.retired, by simp only [hs], hone⟩
      | raise t m3 => exact ⟨.trapped, by simp only [hs], hone⟩

end

/-! ### Whole runs -/

section

variable (fp : FpBackend) (ms : Nat → Machine D) (n : Nat)

def retiredIn : Nat :=
  (List.range n).countP fun k => decide (stepEnd fp (ms k) = some .retired)

theorem retiredIn_succ : retiredIn fp ms (n + 1) =
      retiredIn fp ms n + if stepEnd fp (ms n) = some .retired then 1 else 0 := by
  simp [retiredIn, List.range_succ]

/-- Along a run without a write of minstret and with IR clear, minstret is the number of retired
instructions at every point exactly if no step ended in a trap. A step that writes minstret leaves
what it wrote. -/
theorem minstret_counts_iff (hstart : (ms 0).rs.counterWritten = .none)
    (hrun : ∀ k < n, riscvStep fp (ms k) = some (ms (k + 1))) :
    ((∀ k < n, minstretWritten (ms k) = none) → (∀ k ≤ n, IrClear (ms k)) →
      ((∀ k ≤ n, (ms k).rs.minstret =
          (ms 0).rs.minstret + BitVec.ofNat 64 (retiredIn fp ms k)) ↔
        ∀ k < n, stepEnd fp (ms k) ≠ some .trapped)) ∧
    (∀ k < n, ∀ v, minstretWritten (ms k) = some v → (ms (k + 1)).rs.minstret = v) := by
  have hunmarked : ∀ k ≤ n, (ms k).rs.counterWritten = .none := by
    intro k
    induction k with
    | zero => exact fun _ => hstart
    | succ k ih => exact fun hk => riscvStep_unmarked (hrun k hk) (ih (by omega))
  refine ⟨fun hquiet hir => ?_, fun k hk v hw => riscvStep_writes (hrun k hk) hw⟩
  have hstep (k : Nat) hk := riscvStep_counts (hrun k hk) (hunmarked k (by omega))
    (hquiet k hk) (hir (k + 1) hk)
  constructor
  · intro hcount k hk htrap
    obtain ⟨e, he, hnext⟩ := hstep k hk
    have hafter := hcount (k + 1) hk
    rw [retiredIn_succ, htrap] at hafter
    rw [htrap] at he
    cases he
    simp only [reduceCtorEq, if_false, Option.some.injEq, Nat.add_zero, ← hcount k (by omega)]
      at hnext hafter
    bv_omega
  · intro hno k
    induction k with
    | zero => intro _; simp [retiredIn]
    | succ k ih =>
      intro hk
      obtain ⟨e, he, hnext⟩ := hstep k hk
      have hne := hno k hk
      rw [he] at hne
      rw [hnext, retiredIn_succ, he, ih (by omega)]
      cases e with
      | asleep => simp
      | retired => simp [BitVec.ofNat_add, BitVec.add_assoc]
      | trapped => exact absurd rfl hne

end

/-- Reset at the start of a DRAM full of `addi x0, x0, 0`. -/
def nops : Machine Unit :=
  Machine.init (World.dram fun a => if a &&& 3 = 0 then 0x13 else 0) 0x80000000

/-- Three steps through it count as three. -/
theorem minstret_counts_nops : (runOf .idle nops 3).rs.minstret = 3 ∧
    retiredIn .idle (runOf .idle nops) 3 = 3 := by
  have hrun : ∀ k < 3, (riscvStep .idle (runOf .idle nops k)).isSome = true := by decide +kernel
  have hend : ∀ k < 3, stepEnd .idle (runOf .idle nops k) = some .retired := by decide +kernel
  have hquiet : ∀ k < 3, minstretWritten (runOf .idle nops k) = none := by decide +kernel
  have hir : ∀ k ≤ 3, IrClear (runOf .idle nops k) := by
    unfold IrClear
    decide +kernel
  have hthree : retiredIn .idle (runOf .idle nops) 3 = 3 := by decide +kernel
  have hiff := (minstret_counts_iff .idle (runOf .idle nops) 3 rfl
    fun k hk => runOf_succ (hrun k hk)).1 hquiet hir
  have hcount := hiff.mpr (fun k hk => by rw [hend k hk]; decide) 3 le_rfl
  rw [hthree] at hcount
  exact ⟨hcount, hthree⟩

/-- An `ecall` is counted, although it does not retire. -/
theorem minstret_counts_ecall :
    stepEnd .idle (oneInsn 0x73) = some .trapped ∧ minstretWritten (oneInsn 0x73) = none ∧
      ∃ m', riscvStep .idle (oneInsn 0x73) = some m' ∧ IrClear m' ∧ m'.rs.minstret = 1 :=
  ⟨rfl, rfl, _, rfl, rfl, rfl⟩

end Cemu.Rv64
