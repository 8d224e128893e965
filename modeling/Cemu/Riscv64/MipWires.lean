import Cemu.Riscv64.Step

/-!
# riscv64: read-modify-write of the interrupt-pending bits

A CSR read of mip or sip returns the software bits together with the device lines, and a set or
clear instruction writes back what it read. The main result says when such an instruction leaves
the software bits outside its source mask alone.
-/

namespace Cemu.Rv64

open BitVec

variable {D : Type}

/-- The source mask of a set or clear instruction: the register or the five-bit immediate. -/
def csrSource (m : Machine D) (i : BitVec 32) : BitVec 64 :=
  if 5 ≤ f3 i then (rs1 i).setWidth 64 else m.cpu.gpr (rs1 i)

def mipWritable (csr : BitVec 64) : BitVec 64 :=
  if csr = 0x344 then kIrqSsip ||| kIrqStip ||| kIrqSeip else kIrqSsip

structure IsMipRmw (i : BitVec 32) : Prop where
  system : opcode i = 0x73
  setOrClear : f3 i = 2 ∨ f3 i = 3 ∨ f3 i = 6 ∨ f3 i = 7
  csr : bits i 20 12 = 0x344 ∨ bits i 20 12 = 0x144

variable {src csr : BitVec 64}

/-- A merged word agrees with the old one outside the source mask exactly when the lines read along
with it add nothing there. -/
theorem merge_keeps_iff {mip ext w v : BitVec 64}
    (hv : v &&& w &&& ~~~src = (mip ||| ext) &&& w &&& ~~~src) :
    ((mip &&& ~~~w) ||| (v &&& w)) &&& ~~~src = mip &&& ~~~src ↔
      ext &&& w &&& ~~~src &&& ~~~mip = 0#64 := by
  have hbit (x y : BitVec 64) : x = y ↔ ∀ k, x.getLsbD k = y.getLsbD k :=
    ⟨fun h _ => h ▸ rfl, fun h => eq_of_getLsbD_eq fun k _ => h k⟩
  have hv' := (hbit _ _).mp hv
  rw [hbit, hbit]
  refine forall_congr' fun k => ?_
  have hk := hv' k
  simp only [getLsbD_and, getLsbD_or, getLsbD_not, getLsbD_zero]
    at hk ⊢
  grind

theorem csrWriteValue_outside {f : BitVec 3} (hf : f = 2 ∨ f = 3 ∨ f = 6 ∨ f = 7) (old : BitVec 64)
    (hsrc : src ≠ 0) : ∃ v, csrWriteValue f old src = some v ∧ v &&& ~~~src = old &&& ~~~src := by
  have hset : (old ||| src) &&& ~~~src = old &&& ~~~src := by
    ext k hk
    simp only [getElem_and, getElem_not]
    grind
  have hclear : old &&& ~~~src &&& ~~~src = old &&& ~~~src := by
    rw [BitVec.and_assoc, BitVec.and_self]
  obtain rfl | rfl | rfl | rfl := hf
  · exact ⟨_, by rw [csrWriteValue]; exact if_pos hsrc, hset⟩
  · exact ⟨_, by rw [csrWriteValue]; exact if_pos hsrc, hclear⟩
  · exact ⟨_, by rw [csrWriteValue]; exact if_pos hsrc, hset⟩
  · exact ⟨_, by rw [csrWriteValue]; exact if_pos hsrc, hclear⟩

theorem readCounter_mip (m : Machine D) (h : csr = 0x344 ∨ csr = 0x144) :
    readCounter m csr = none := by
  obtain rfl | rfl := h <;> simp [readCounter]

theorem riscvCsrRead_mip {m : Machine D} (h : csr = 0x344 ∨ csr = 0x144)
    (hpriv : ¬m.rs.priv < csrPriv csr) :
    ∃ old, riscvCsrRead m csr = some old ∧
      old &&& mipWritable csr = mipAll m &&& mipWritable csr := by
  rw [riscvCsrRead, if_neg hpriv, readCounter_mip m h]
  obtain rfl | rfl := h
  · exact ⟨mipAll m, rfl, rfl⟩
  · refine ⟨mipAll m &&& kIrqSLevelMask, rfl, ?_⟩
    rw [BitVec.and_assoc]
    rfl

theorem riscvCsrWrite_mip {s : RiscvState} (h : csr = 0x344 ∨ csr = 0x144)
    (hpriv : ¬s.priv < csrPriv csr) (v nextPc : BitVec 64) :
    riscvCsrWrite s csr v nextPc =
      some { s with mip := (s.mip &&& ~~~mipWritable csr) ||| (v &&& mipWritable csr) } := by
  rw [riscvCsrWrite, if_neg hpriv]
  obtain rfl | rfl := h <;> rfl

theorem thenFall_state? (n : BitVec 64) (c : RvM D Unit) (m : Machine D) :
    (thenFall n c m).state? = (c m).state? := by
  rw [thenFall, RaiseM.bind_apply]
  cases c m <;> rfl

theorem csrOp_apply (n : BitVec 64) (i : BitVec 32) (m : Machine D) :
    (csrOp n i m).state? = some (match riscvCsrRead m (bits i 20 12) with
      | none => m
      | some old =>
        match csrWriteValue (f3 i) old (csrSource m i) with
        | none => m.setX (rd i) old
        | some v =>
          match riscvCsrWrite m.rs (bits i 20 12) v (m.cpu.pc + n) with
          | none => m
          | some rs => (m.setRs rs).setX (rd i) old) := by
  unfold csrSource
  rw [csrOp, RaiseM.bind_apply, RaiseM.get_apply, Outcome.bind_ok]
  cases riscvCsrRead m (bits i 20 12) with
  | none => rfl
  | some old =>
    simp only
    generalize (if 5 ≤ f3 i then (rs1 i).setWidth 64 else m.cpu.gpr (rs1 i)) = src
    cases csrWriteValue (f3 i) old src with
    | none => rfl
    | some v =>
      simp only
      cases riscvCsrWrite m.rs (bits i 20 12) v (m.cpu.pc + n) <;> rfl

theorem exec_csr (fp : FpBackend) {i : BitVec 32} (h : IsMipRmw i) :
    riscvExecInst (D := D) fp i = thenFall 4 (csrOp 4 i) := by
  have hzero : f3 i ≠ 0 := by
    rcases h.setOrClear with hf | hf | hf | hf <;> simp [hf]
  have hfour : f3 i ≠ 4 := by
    rcases h.setOrClear with hf | hf | hf | hf <;> simp [hf]
  rw [riscvExecInst, riscvExecInstAt, h.system]
  exact (if_neg hzero).trans (if_pos hfour)

/-- A set or clear instruction on mip or sip leaves the software bits outside its source mask alone
exactly when no device line that software could hold is high there without its software bit. -/
theorem mip_rmw_iff (fp : FpBackend) (m : Machine D) (i : BitVec 32) (h : IsMipRmw i) :
    ∃ m', (riscvExecInst fp i m).state? = some m' ∧
      (m'.rs.mip &&& ~~~csrSource m i = m.rs.mip &&& ~~~csrSource m i ↔
        (csrSource m i ≠ 0 → csrPriv (bits i 20 12) ≤ m.rs.priv →
          m.w.ds.extIrq &&& mipWritable (bits i 20 12) &&& ~~~csrSource m i &&&
            ~~~m.rs.mip = 0)) := by
  refine ⟨_, by rw [exec_csr fp h, thenFall_state?, csrOp_apply], ?_⟩
  by_cases hpriv : m.rs.priv < csrPriv (bits i 20 12)
  · -- the read is refused
    have hread : riscvCsrRead m (bits i 20 12) = none := by
      rw [riscvCsrRead, if_pos hpriv]
    rw [hread]
    exact iff_of_true rfl fun _ hle => absurd hpriv (BitVec.not_lt.mpr hle)
  · obtain ⟨old, hread, hold⟩ := riscvCsrRead_mip h.csr hpriv
    rw [hread]
    by_cases hsrc : csrSource m i = 0
    · -- nothing to set or clear, nothing written
      have hnone : csrWriteValue (f3 i) old (csrSource m i) = none := by
        rw [hsrc]
        rcases h.setOrClear with hf | hf | hf | hf <;> rw [hf] <;> rfl
      simp only [hnone]
      exact iff_of_true rfl fun hne => absurd hsrc hne
    · obtain ⟨v, hval, hout⟩ := csrWriteValue_outside h.setOrClear old hsrc
      simp only [hval, riscvCsrWrite_mip h.csr hpriv]
      have hv : v &&& mipWritable (bits i 20 12) &&& ~~~csrSource m i =
          (m.rs.mip ||| m.w.ds.extIrq) &&& mipWritable (bits i 20 12) &&& ~~~csrSource m i := by
        have hswap (x y z : BitVec 64) : x &&& y &&& z = x &&& z &&& y := by
          rw [BitVec.and_assoc, BitVec.and_comm y, ← BitVec.and_assoc]
        rw [hswap, hout, hswap, hold]
        rfl
      refine (merge_keeps_iff hv).trans ⟨fun hz _ _ => hz, fun hz => hz hsrc ?_⟩
      exact BitVec.not_lt.mp hpriv

/-- The reset machine with `x5 = 2` and the external-interrupt line of S mode as given. -/
def lineMachine (seip : Bool) : Machine Unit :=
  (Machine.init (riscvSetExtIrq World.unmapped kIrqSeip seip) 0).setX 5 kIrqSsip

/-- csrrs x0, mip, x5 with the line low. -/
theorem mip_rmw_quiet_line :
    IsMipRmw 0x3442A073 ∧
      ∃ m', (riscvExecInst .idle 0x3442A073 (lineMachine false)).state? = some m' ∧
      m'.rs.mip &&& ~~~kIrqSsip = (lineMachine false).rs.mip &&& ~~~kIrqSsip := by
  have h : IsMipRmw 0x3442A073 := ⟨by decide, by decide, by decide⟩
  obtain ⟨m', hrun, hiff⟩ := mip_rmw_iff .idle (lineMachine false) 0x3442A073 h
  exact ⟨h, m', hrun, hiff.mpr fun _ _ => by decide⟩

/-- The same instruction with the line high: SEIP is now held by software. -/
theorem mip_rmw_latches_line :
    (lineMachine true).rs.mip = 0 ∧ csrSource (lineMachine true) 0x3442A073 = kIrqSsip ∧
      ∃ m', (riscvExecInst .idle 0x3442A073 (lineMachine true)).state? = some m' ∧
        m'.rs.mip = kIrqSsip ||| kIrqSeip :=
  ⟨rfl, rfl, _, rfl, by decide⟩

end Cemu.Rv64
