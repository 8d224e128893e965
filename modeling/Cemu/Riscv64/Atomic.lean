import Cemu.Riscv64.Moves

/-!
# riscv64: a faulting instruction leaves no partial state

What survives an instruction that leaves a step through the landing pad. Everything the
program can name is as it was before the instruction, and the trap is taken from there.
The cycle counter runs on. An FP instruction may have marked `mstatus.FS` dirty before it
raised, and `cbo.zero` may have stored a part of its block.
-/

namespace Cemu.Rv64

open RaiseM Relation

variable {D : Type}

structure Kept (k : Slack) (m m' : Machine D) : Prop where
  gpr : ∀ r, r ≠ 0 → m'.cpu.gpr r = m.cpu.gpr r
  fpr : m'.cpu.fpr = m.cpu.fpr
  pc : m'.cpu.pc = m.cpu.pc
  rs : m'.rs = { m.rs with
    tlb := m'.rs.tlb, tlbClock := m'.rs.tlbClock, mstatus := m'.rs.mstatus }
  mstatus : m'.rs.mstatus = m.rs.mstatus ∨
    (k.fs = true ∧ m'.rs.mstatus = m.rs.mstatus ||| kMstatusFs)
  mem : k.stores = true ∨ ReflTransGen (Walked m.rs) m.w m'.w

theorem Kept.refl (k : Slack) (m : Machine D) : Kept k m m :=
  ⟨fun _ _ => rfl, rfl, rfl, rfl, .inl rfl, .inr .refl⟩

variable {k : Slack} {m m' : Machine D}

theorem Kept.samePmp (h : Kept k m m') : SamePmp m.rs m'.rs := by
  rw [h.rs]
  exact ⟨rfl, rfl⟩

theorem Kept.satp (h : Kept k m m') : m'.rs.satp = m.rs.satp := by
  rw [h.rs]

theorem Kept.trans {m1 m2 : Machine D} (h : Kept k m m1) (h' : Kept k m1 m2) : Kept k m m2 where
  gpr r hr := (h'.gpr r hr).trans (h.gpr r hr)
  fpr := h'.fpr.trans h.fpr
  pc := h'.pc.trans h.pc
  rs := by
    have hrs := h'.rs
    rw [h.rs] at hrs
    exact hrs
  mstatus := by
    rcases h.mstatus with h1 | ⟨hk, h1⟩ <;> rcases h'.mstatus with h2 | ⟨hk', h2⟩
    · exact .inl (h2.trans h1)
    · exact .inr ⟨hk', by rw [h2, h1]⟩
    · exact .inr ⟨hk, by rw [h2, h1]⟩
    · exact .inr ⟨hk, by rw [h2, h1, BitVec.or_assoc, BitVec.or_self]⟩
  mem := by
    rcases h.mem with hk | hw
    · exact .inl hk
    rcases h'.mem with hk | hw'
    · exact .inl hk
    -- the second run walks the same tables
    · exact .inr (hw.trans (.mono (fun _ _ => .congr h.samePmp h.satp) _ _ hw'))

theorem Kept.setWorld {w : World D} (h : k.stores = true ∨ Walked m.rs m.w w) :
    Kept k m (m.setWorld w) :=
  ⟨fun _ _ => rfl, rfl, rfl, rfl, .inl rfl, h.imp_right .single⟩

theorem StillMove.kept (h : StillMove k m m') : Kept k m m' := by
  cases h with
  | translate vaddr size acc h =>
    obtain ⟨hcpu, hrs, hw⟩ := riscvTranslate_frame h
    have hstatus : m'.rs.mstatus = m.rs.mstatus := by rw [hrs]
    refine ⟨fun r _ => by rw [hcpu], by rw [hcpu], by rw [hcpu], ?_, .inl hstatus,
      .inr (.single hw)⟩
    rw [hstatus]
    exact hrs
  | probe addr len =>
    exact .setWorld (.inr (.of_sameMem (m.w.find_sameButCache addr len).toSameMem))
  | read hsize h => exact .setWorld (.inr (.of_sameMem (World.busRead_eq_some hsize h).1))
  | zero =>
    refine ⟨fun r hr => ?_, rfl, rfl, rfl, .inl rfl, .inr .refl⟩
    exact Function.update_of_ne hr _ _
  | fs hk h => exact ⟨fun _ _ => rfl, rfl, rfl, rfl, .inr ⟨hk, rfl⟩, .inr .refl⟩
  | store w hk => exact .setWorld (.inl hk)

theorem Kept.of_run (h : ReflTransGen (StillMove k) m m') : Kept k m m' := by
  induction h with
  | refl => exact .refl k m
  | tail _ hstep ih => exact ih.trans hstep.kept

/-! ### The landing pad -/

theorem trapStatus_or_fs {src dst clear : BitVec 64} (hsrc : kMstatusFs &&& ~~~src = kMstatusFs)
    (hdst : kMstatusFs &&& ~~~dst = kMstatusFs) (hclear : kMstatusFs &&& ~~~clear = kMstatusFs)
    (st set : BitVec 64) :
    (copyFlag (st ||| kMstatusFs) src dst &&& ~~~src &&& ~~~clear ||| set)
      = (copyFlag st src dst &&& ~~~src &&& ~~~clear ||| set) ||| kMstatusFs := by
  have hflag : (st ||| kMstatusFs) &&& src = st &&& src := by
    have hzero : kMstatusFs &&& src = 0 := by
      rw [← hsrc, BitVec.and_assoc, BitVec.and_comm (~~~src), BitVec.and_not_self]
      exact BitVec.and_zero
    rw [BitVec.and_or_distrib_right, hzero]
    exact BitVec.or_zero
  have hor : ∀ a b : BitVec 64, a ||| kMstatusFs ||| b = a ||| b ||| kMstatusFs := by
    intro a b
    rw [BitVec.or_assoc, BitVec.or_comm kMstatusFs, BitVec.or_assoc]
  have hand : ∀ a mask : BitVec 64, kMstatusFs &&& ~~~mask = kMstatusFs →
      (a ||| kMstatusFs) &&& ~~~mask = (a &&& ~~~mask) ||| kMstatusFs := by
    intro a mask hmask
    rw [BitVec.and_or_distrib_right, hmask]
  rw [copyFlag, hflag, hand _ dst hdst, hor, ← copyFlag, hand _ src hsrc, hand _ clear hclear, hor]

/-- Trap entry from a state that differs in the cache and in a set FS ends in a state that
differs in the same. -/
theorem riscvTrap_kept {s s' : RiscvState}
    (hrs : s' = { s with tlb := s'.tlb, tlbClock := s'.tlbClock, mstatus := s'.mstatus })
    (pc cause tval : BitVec 64) :
    (riscvTrap pc s' cause tval).1 = (riscvTrap pc s cause tval).1 ∧
    (riscvTrap pc s' cause tval).2 = { (riscvTrap pc s cause tval).2 with
      tlb := s'.tlb, tlbClock := s'.tlbClock,
      mstatus := (riscvTrap pc s' cause tval).2.mstatus } ∧
    (s'.mstatus = s.mstatus →
      (riscvTrap pc s' cause tval).2.mstatus = (riscvTrap pc s cause tval).2.mstatus) ∧
    (s'.mstatus = s.mstatus ||| kMstatusFs →
      (riscvTrap pc s' cause tval).2.mstatus =
        (riscvTrap pc s cause tval).2.mstatus ||| kMstatusFs) := by
  have hto : trapToS s' cause = trapToS s cause := by
    rw [hrs]
    rfl
  have hpriv : s'.priv = s.priv := by rw [hrs]
  unfold riscvTrap
  rw [hto]
  cases trapToS s cause with
  | true =>
    refine ⟨by rw [hrs]; rfl, by rw [hrs]; rfl, fun hst => ?_, fun hst => ?_⟩
    · simp only [if_true, hst, hpriv]
    · simp only [if_true, hst, hpriv]
      exact trapStatus_or_fs (by decide) (by decide) (by decide) _ _
  | false =>
    refine ⟨by rw [hrs]; rfl, by rw [hrs]; rfl, fun hst => ?_, fun hst => ?_⟩
    · simp only [Bool.false_eq_true, if_false, hst, hpriv]
    · simp only [Bool.false_eq_true, if_false, hst, hpriv]
      exact trapStatus_or_fs (by decide) (by decide) (by decide) _ _

theorem riscvTrap_counters (pc : BitVec 64) (s : RiscvState) (cause tval : BitVec 64) :
    let s' := (riscvTrap pc s cause tval).2
    s'.mcycle = s.mcycle ∧ s'.mcountinhibit = s.mcountinhibit ∧
      s'.counterWritten = s.counterWritten ∧ s'.trapSeq = s.trapSeq := by
  unfold riscvTrap
  cases trapToS s cause <;> exact ⟨rfl, rfl, rfl, rfl⟩

structure FaultAtomic (m : Machine D) (t : TrapRec) (m' : Machine D) : Prop where
  gpr : ∀ r, r ≠ 0 → m'.cpu.gpr r = m.cpu.gpr r
  fpr : m'.cpu.fpr = m.cpu.fpr
  pc : m'.cpu.pc = (riscvTrap m.cpu.pc m.rs t.cause t.tval).1
  /-- Every control register: as trap entry leaves it, with the cycle counter one further. -/
  rs : m'.rs = { (riscvTrap m.cpu.pc m.rs t.cause t.tval).2 with
    mcycle := if m.rs.mcountinhibit &&& kMcountinhibitCy = 0 ∧ m.rs.counterWritten ≠ .mcycle
      then m.rs.mcycle + 1 else m.rs.mcycle
    counterWritten := .none
    trapSeq := m.rs.trapSeq + 1
    trapSignal := gdbTrapSignal t.cause
    -- not promised here: the retirement counter; the cache is no architectural state
    minstret := m'.rs.minstret
    tlb := m'.rs.tlb
    tlbClock := m'.rs.tlbClock
    mstatus := m'.rs.mstatus }
  mstatus : m'.rs.mstatus = (riscvTrap m.cpu.pc m.rs t.cause t.tval).2.mstatus ∨
    ((∃ insn m₁, fetchChecked m = .ok insn m₁ ∧ insn.slack.fs = true) ∧
      m'.rs.mstatus = (riscvTrap m.cpu.pc m.rs t.cause t.tval).2.mstatus ||| kMstatusFs)
  mem : (∃ insn m₁, fetchChecked m = .ok insn m₁ ∧ insn.slack.stores = true) ∨
    ReflTransGen (Walked m.rs) m.w m'.w

theorem FetchSlack.fs (h : FetchSlack m k) (hk : k.fs = true) :
    ∃ insn m1, fetchChecked m = .ok insn m1 ∧ insn.slack.fs = true := by
  rcases h with rfl | ⟨insn, m1, hf, rfl⟩
  · cases hk
  · exact ⟨insn, m1, hf, hk⟩

theorem FetchSlack.stores (h : FetchSlack m k) (hk : k.stores = true) :
    ∃ insn m1, fetchChecked m = .ok insn m1 ∧ insn.slack.stores = true := by
  rcases h with rfl | ⟨insn, m1, hf, rfl⟩
  · cases hk
  · exact ⟨insn, m1, hf, hk⟩

theorem Kept.landing (hslack : FetchSlack m k) (h : Kept k m m') (t : TrapRec) :
    FaultAtomic m t (countStep (landingPad t m')) := by
  obtain ⟨hbase, hrs, hsame, hdirty⟩ := riscvTrap_kept h.rs m.cpu.pc t.cause t.tval
  obtain ⟨hcycle, hinhibit, hwritten, hseq⟩ := riscvTrap_counters m.cpu.pc m.rs t.cause t.tval
  have hstatus := h.mstatus.imp hsame fun ⟨hk, hfs⟩ => And.intro (hslack.fs hk) (hdirty hfs)
  have hmem := h.mem.imp_left hslack.stores
  simp only [landingPad, h.pc]
  refine ⟨h.gpr, h.fpr, hbase, ?_, hstatus, hmem⟩
  -- the trap entered from `m'` is the one entered from `m`, up to cache and status
  generalize riscvTrap m.cpu.pc m'.rs t.cause t.tval = x at hrs ⊢
  obtain ⟨base, s'⟩ := x
  generalize s'.mstatus = st at hrs
  subst hrs
  simp only [countStep, Machine.setPc, Machine.setRs, hcycle, hinhibit, hwritten, hseq]

/-- A step whose instruction raises takes the trap from the state before the instruction. -/
theorem riscvStep_fault_atomic (fp : FpBackend) {m m₁ m₂ : Machine D} {t : TrapRec}
    (hpro : stepPrologue m = (true, m₁)) (hraise : stepInsn fp m₁ = .raise t m₂) :
    ∃ m₃, riscvStep fp m = some m₃ ∧ FaultAtomic m₁ t m₃ := by
  obtain ⟨k, hslack, hrun⟩ := stepInsn_raise hraise
  refine ⟨countStep (landingPad t m₂), ?_, (Kept.of_run hrun).landing hslack t⟩
  rw [riscvStep, hpro]
  simp only [runInsn, hraise, Option.map_some]

/-- A load from address 0, where nothing is mapped. -/
theorem riscvStep_fault_atomic_load : ∃ m₂ m₃,
    stepInsn .idle (oneInsn 0x3283) = .raise ⟨kExLoadFault, 0, some 0⟩ m₂ ∧
      riscvStep .idle (oneInsn 0x3283) = some m₃ ∧
      FaultAtomic (oneInsn 0x3283) ⟨kExLoadFault, 0, some 0⟩ m₃ := by
  obtain ⟨m₂, hraise⟩ : ∃ m₂, stepInsn .idle (oneInsn 0x3283) =
      .raise ⟨kExLoadFault, 0, some 0⟩ m₂ := ⟨_, rfl⟩
  obtain ⟨m₃, hstep, hatomic⟩ := riscvStep_fault_atomic .idle
    (show stepPrologue (oneInsn 0x3283) = (true, oneInsn 0x3283) from rfl) hraise
  exact ⟨m₂, m₃, hraise, hstep, hatomic⟩

def bareMachine : Machine Unit := Machine.init World.unmapped 0

/-- Trap entry does not write the cycle counter, and a faulting step moves it. -/
theorem riscvStep_fault_moves_mcycle :
    stepPrologue bareMachine = (true, bareMachine) ∧
    stepInsn .idle bareMachine = .raise ⟨kExFetchFault, 0, some 0⟩ bareMachine ∧
    (riscvTrap 0 bareMachine.rs kExFetchFault 0).2.mcycle = bareMachine.rs.mcycle ∧
    (riscvStep .idle bareMachine).map (fun m => m.rs.mcycle) = some 1 ∧
    bareMachine.rs.mcycle = 0 :=
  ⟨rfl, rfl, rfl, rfl, rfl⟩

end Cemu.Rv64
