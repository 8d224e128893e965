import Cemu.Riscv.Format
import Cemu.Riscv64.Atomic
import Cemu.Riscv64.WideAccess

/-!
# riscv64: the causes an atomic raises

`amo_op` runs a read-modify-write as a load of class `acc_read` followed by a store, and checks
the alignment of every form, LR included, with the store's cause. So the class `acc_amo`, whose
read side is to fault as a store, never reaches the walker.
-/

namespace Cemu.Rv64

open World RaiseM Outcome

variable {D : Type}

/-! ### The causes of the memory pipeline -/

def IsFault (acc : Acc) (t : TrapRec) : Prop :=
  t.cause = accessFaultCause acc ∨ t.cause = pageFaultCause acc

theorem pteRead_raises (s : RiscvState) (pteAddr : BitVec 64) (acc : Acc) :
    Raises (IsFault acc) (pteRead s pteAddr acc : WorldM D _) := by
  unfold pteRead
  split
  · exact .raise (.inl rfl)
  refine .bind (fun w t w' h => by cases h) fun r => ?_
  split
  · exact .raise (.inl rfl)
  · intro w t w' h
    rw [busRead] at h
    split at h <;> cases h

theorem walkFrom_raises (s : RiscvState) (vaddr : BitVec 64) (acc : Acc) (n : Nat)
    (ppnBase pteAddr pte : BitVec 64) :
    Raises (IsFault acc) (walkFrom s vaddr acc n ppnBase pteAddr pte : WorldM D _) := by
  induction n generalizing ppnBase pteAddr pte with
  | zero => exact .pure _
  | succ n ih =>
    refine (pteRead_raises s _ acc).bind fun pte => ?_
    split
    · exact .raise (.inr rfl)
    split
    · exact .pure _
    · exact ih _ _ _

section

variable (vaddr : BitVec 64)

theorem writeBack_raises (acc : Acc) (pteAddr pte new : BitVec 64) :
    Raises (IsFault acc) (writeBack vaddr acc pteAddr pte new : WorldM D _) := by
  unfold writeBack
  split
  · exact .pure _
  refine .bind (fun w t w' h => by cases h) fun r => ?_
  split
  · exact .raise (.inl rfl)
  · intro w t w' h
    rw [busWrite] at h
    split at h <;> cases h

theorem walkPage_raises (s : RiscvState) (vaddr : BitVec 64) (acc : Acc) (eff : BitVec 8) :
    Raises (IsFault acc) (walkPage s vaddr acc eff : WorldM D _) := by
  unfold walkPage
  split
  · exact .raise (.inr rfl)
  refine (walkFrom_raises s vaddr acc _ _ _ _).bind fun leaf => ?_
  unfold useLeaf
  split
  · exact .raise (.inr rfl)
  split
  · exact .raise (.inr rfl)
  refine (writeBack_raises vaddr acc _ _ _).bind fun _ => ?_
  split
  · exact .raise (.inr rfl)
  · exact .pure _

theorem riscvTranslate_raises (size : Nat) (acc : Acc) :
    Raises (IsFault acc) (riscvTranslate vaddr size acc : RvM D _) := by
  intro m t m' h
  rw [riscvTranslate_apply] at h
  split at h
  · rw [translateBare_apply] at h
    split at h <;> cases h
    exact .inl rfl
  split at h
  · cases h
  rw [translateMiss_apply] at h
  cases hwalk : walkPage m.rs vaddr acc (effPriv m.rs acc) m.w with
  | ok paddr w =>
    rw [hwalk] at h
    simp only at h
    split at h <;> cases h
    exact .inl rfl
  | raise t' w =>
    rw [hwalk] at h
    cases h
    exact walkPage_raises m.rs vaddr acc _ _ _ _ hwalk
  | fatal =>
    rw [hwalk] at h
    cases h

theorem riscvTriggerCheck_raises (op : TrigOp) (addr : BitVec 64) :
    Raises (fun t => t.cause = kExBreakpoint) (riscvTriggerCheck op addr : RvM D Unit) := by
  refine Raises.get.bind fun m => ?_
  split
  · unfold fire
    split
    · exact .fatal
    · exact .raise rfl
  · exact .pure _

theorem onWorld_raises {α : Type} {P : TrapRec → Prop} {c : RiscvState → WorldM D α}
    (h : ∀ s, Raises P (c s)) : Raises P (onWorld c) := by
  intro m t m' hm
  rw [onWorld_apply] at hm
  cases hc : c m.rs m.w with
  | ok a w => rw [hc] at hm; cases hm
  | raise t' w =>
    rw [hc] at hm
    cases hm
    exact h m.rs m.w t w hc
  | fatal => rw [hc] at hm; cases hm

theorem storeVia_raises (size : Nat) (val paddr : BitVec 64) :
    Raises (IsFault .write) (storeVia vaddr size val paddr : WorldM D Unit) := by
  refine .bind (fun w t w' h => by cases h) fun r => ?_
  split
  · exact .raise (.inl rfl)
  · intro w t w' h
    rw [busWrite] at h
    split at h <;> cases h

theorem riscvMemStore_raises (size : Nat) (val : BitVec 64) :
    Raises (fun t => t.cause = kExBreakpoint ∨ IsFault .write t)
      (riscvMemStore vaddr size val : RvM D Unit) := by
  refine ((riscvTriggerCheck_raises .store vaddr).mono fun _ => .inl).bind fun _ => ?_
  refine ((riscvTranslate_raises vaddr size .write).mono fun _ => .inr).bind fun a => ?_
  have hbus : Raises (fun t => t.cause = kExBreakpoint ∨ IsFault .write t)
      (onWorld fun _ => storeVia vaddr size val a.1 : RvM D Unit) :=
    onWorld_raises fun _ => (storeVia_raises vaddr size val a.1).mono fun _ => .inr
  refine Raises.get.bind fun m => ?_
  split
  · split
    · exact .modify _
    · exact hbus
  · exact hbus

end

/-- A load of class read at `vaddr` would fault: translation refuses it, or nothing answers at
the physical address. -/
def LoadFaults (m : Machine D) (vaddr : BitVec 64) (size : Nat) : Prop :=
  match riscvTranslate vaddr size .read m with
  | .ok (paddr, host) _ => directPtr m.w host = none ∧ m.w.regionAt paddr size = none
  | .raise _ _ => True
  | .fatal => False

theorem riscvMemLoad_fired {vaddr : BitVec 64} {size : Nat} {m m' : Machine D} {t : TrapRec}
    {t1 : BitVec 64} (htrig : firedTrigger m.rs .load vaddr = some t1)
    (h : riscvMemLoad vaddr size .read m = .raise t m') : t.cause = kExBreakpoint := by
  have hcheck : riscvTriggerCheck .load vaddr m = fire t1 vaddr m := by
    simp [riscvTriggerCheck, htrig]
  have hload : riscvMemLoad vaddr size .read m = (fire t1 vaddr m).bind fun _ m1 =>
      (riscvTranslate vaddr size .read m1).bind fun a m2 => loadAt vaddr size .read a.1 a.2 m2 := by
    rw [← hcheck]
    rfl
  rw [hload, fire] at h
  split at h <;> cases h
  rfl

section

variable {vaddr : BitVec 64} {size : Nat} {m : Machine D}
  (htrig : firedTrigger m.rs .load vaddr = none)

include htrig

theorem riscvMemLoad_unfired :
    riscvMemLoad vaddr size .read m = (riscvTranslate vaddr size .read m).bind fun a m1 =>
        loadAt vaddr size .read a.1 a.2 m1 := by
  have hcheck : riscvTriggerCheck .load vaddr m = .ok () m := by
    simp [riscvTriggerCheck, htrig]
  show (riscvTriggerCheck .load vaddr m).bind _ = _
  rw [hcheck]
  rfl

variable (hpage : OnPage vaddr size) (hsize : BitVec.ofNat 64 size ≠ 0)

include hpage hsize

theorem riscvMemLoad_faults (h : LoadFaults m vaddr size) :
    ∃ t m', riscvMemLoad vaddr size .read m = .raise t m' ∧ IsFault .read t := by
  rw [riscvMemLoad_unfired htrig]
  rw [LoadFaults] at h
  cases htr : riscvTranslate vaddr size .read m with
  | fatal => rw [htr] at h; exact h.elim
  | raise t m' => exact ⟨t, m', rfl, riscvTranslate_raises vaddr size .read m t m' htr⟩
  | ok a m1 =>
    rw [htr] at h
    obtain ⟨-, -, hwalked⟩ := riscvTranslate_frame (by rw [htr]; rfl)
    have hboard := hwalked.toSameBoard
    have hdirect : directPtr m1.w a.2 = none := by
      rw [directPtr, hboard.dbgMem]
      exact h.1
    have hnone : m1.w.regionAt a.1 size = none := (hboard.regionAt a.1 size).trans h.2
    rw [bind_ok, loadAt_apply hpage, hdirect]
    simp only [onWorld_apply, loadVia_none hsize hnone]
    exact ⟨_, _, rfl, .inl rfl⟩

theorem loadFaults_of_raise {m' : Machine D} {t : TrapRec}
    (h : riscvMemLoad vaddr size .read m = .raise t m') : LoadFaults m vaddr size := by
  rw [riscvMemLoad_unfired htrig] at h
  rw [LoadFaults]
  cases htr : riscvTranslate vaddr size .read m with
  | fatal => rw [htr] at h; cases h
  | raise t m' => trivial
  | ok a m1 =>
    obtain ⟨-, -, hwalked⟩ := riscvTranslate_frame (by rw [htr]; rfl)
    have hboard := hwalked.toSameBoard
    rw [htr, bind_ok, loadAt_apply hpage] at h
    cases hdirect : directPtr m1.w a.2 with
    | some p => rw [hdirect] at h; cases h
    | none =>
      refine ⟨by rwa [directPtr, hboard.dbgMem] at hdirect, ?_⟩
      rw [hdirect] at h
      simp only [onWorld_apply] at h
      cases hvia : loadVia vaddr size .read a.1 m1.w with
      | raise t1 w1 =>
        exact (hboard.regionAt a.1 size).symm.trans (regionAt_of_loadVia hsize hvia)
      | ok v w1 => rw [hvia] at h; cases h
      | fatal => rw [hvia] at h; cases h

end

/-! ### The atomics -/

structure IsAtomic (i : BitVec 32) (op5 : BitVec 5) : Prop where
  opcode : opcode i = 0x2f#7
  width : f3 i = 2 ∨ f3 i = 3
  op : i.extractLsb' 27 5 = op5

def amoDouble (i : BitVec 32) : Bool := decide (f3 i = 3)

def amoAddr (m : Machine D) (i : BitVec 32) : BitVec 64 := m.cpu.gpr (rs1 i)

def amoWidth (i : BitVec 32) : Nat := accessWidth (amoDouble i)

def AmoAligned (m : Machine D) (i : BitVec 32) : Prop :=
  amoAddr m i % BitVec.ofNat 64 (amoWidth i) = 0

instance (m : Machine D) (i : BitVec 32) : Decidable (AmoAligned m i) :=
  inferInstanceAs (Decidable (_ = _))

def amoRest (i : BitVec 32) (addr old : BitVec 64) : RvM D (BitVec 64) := thenFall 4 do
  let val ← getX (rs2 i)
  riscvMemStore addr (amoWidth i) (amoStored (amoDouble i) (i.extractLsb' 27 5) old val)
  setX (rd i) (amoOld (amoDouble i) old)

section

variable {i : BitVec 32} {op5 : BitVec 5}

theorem exec_atomic (fp : FpBackend) (h : IsAtomic i op5) :
    riscvExecInst (D := D) fp i = thenFall 4 (amoOp i (amoDouble i)) := by
  simp only [riscvExecInst, riscvExecInstAt, h.opcode, byWidth, amoDouble]
  obtain hw | hw := h.width <;> simp [hw]

variable {m : Machine D}

theorem exec_atomic_misaligned (fp : FpBackend) (h : IsAtomic i op5) (halign : ¬ AmoAligned m i) :
    riscvExecInst fp i m = .raise ⟨kExStoreMisaligned, amoAddr m i, none⟩ m := by
  have hne : m.cpu.gpr (rs1 i) % .ofNat 64 (accessWidth (amoDouble i)) ≠ 0 := halign
  rw [exec_atomic fp h]
  simp only [thenFall, amoOp, getX, bind_apply, get_apply, bind_ok, pure_apply, if_pos hne]
  rfl

theorem exec_amo (fp : FpBackend) (h : IsAtomic i op5) (hamo : isAmoOp op5 = true)
    (halign : AmoAligned m i) :
    riscvExecInst fp i m = (riscvMemLoad (amoAddr m i) (amoWidth i) .read m).bind fun old m1 =>
        amoRest i (amoAddr m i) old m1 := by
  have hz : m.cpu.gpr (rs1 i) % .ofNat 64 (accessWidth (amoDouble i)) = 0 := halign
  have hlr : op5 ≠ 0x02 := by rintro rfl; cases hamo
  have hsc : op5 ≠ 0x03 := by rintro rfl; cases hamo
  rw [exec_atomic fp h]
  simp only [thenFall, amoOp, getX, bind_apply, get_apply, bind_ok, pure_apply, hz,
    h.op, hlr, hsc, hamo, ne_eq, not_true_eq_false, if_false, if_true, amoAddr, amoWidth]
  cases riscvMemLoad (m.cpu.gpr (rs1 i)) (accessWidth (amoDouble i)) .read m with
  | ok old m1 => simp [amoRest, thenFall, getX, amoWidth, h.op]
  | raise t m1 => rfl
  | fatal => rfl

theorem amoRest_raises (i : BitVec 32) (addr old : BitVec 64) :
    Raises (fun t => t.cause = kExBreakpoint ∨ IsFault .write t)
      (amoRest i addr old : RvM D (BitVec 64)) := by
  refine .bind (.bind ?_ fun val => ?_) fun _ => ?_
  · exact Raises.get.bind fun _ => .pure _
  · exact (riscvMemStore_raises addr _ _).bind fun _ => .modify _
  · exact .bind (Raises.get.bind fun _ => .pure _) fun _ => .pure _

theorem onPage_of_aligned (halign : AmoAligned m i) : OnPage (amoAddr m i) (amoWidth i) := by
  have hoff : (amoAddr m i &&& 0xfff).toNat = (amoAddr m i).toNat % 4096 := pageOff_toNat _
  have hw : amoWidth i = 4 ∨ amoWidth i = 8 := by
    cases hd : amoDouble i <;> simp [amoWidth, accessWidth]
  have hmod : (amoAddr m i).toNat % amoWidth i = 0 := by
    have hsmall : amoWidth i < 2 ^ 64 := by omega
    have h := congrArg BitVec.toNat halign
    rwa [BitVec.toNat_umod, BitVec.toNat_ofNat, Nat.mod_eq_of_lt hsmall] at h
  rw [OnPage]
  obtain hw | hw := hw <;> rw [hw] at hmod ⊢ <;> omega

end

/-! ### The fault classes -/

/-- Leaving breakpoints aside, what the instruction raises is a store's access or page fault. -/
def FaultsAsStore (fp : FpBackend) (i : BitVec 32) (m : Machine D) : Prop :=
  ∀ t m', riscvExecInst fp i m = .raise t m' → t.cause ≠ kExBreakpoint →
    t.cause = kExStoreFault ∨ t.cause = kExStorePageFault

theorem faultsAsStore_iff (fp : FpBackend) {i : BitVec 32} {op5 : BitVec 5}
    (h : IsAtomic i op5) (hamo : isAmoOp op5 = true) {m : Machine D} (halign : AmoAligned m i) :
    FaultsAsStore fp i m ↔
      (firedTrigger m.rs .load (amoAddr m i) = none →
        ¬ LoadFaults m (amoAddr m i) (amoWidth i)) := by
  have hsize : BitVec.ofNat 64 (amoWidth i) ≠ 0 := by
    cases hw : amoDouble i <;> simp [amoWidth, hw, accessWidth]
  rw [FaultsAsStore, exec_amo fp h hamo halign]
  constructor
  · intro hstore htrig hfault
    obtain ⟨t, m', hload, hcause⟩ :=
      riscvMemLoad_faults htrig (onPage_of_aligned halign) hsize hfault
    have hstore := hstore t m' (by rw [hload]; rfl)
    obtain hc | hc := hcause <;> rw [hc] at hstore <;> revert hstore <;> decide
  · intro hquiet t m' hexec hbreak
    cases hload : riscvMemLoad (amoAddr m i) (amoWidth i) .read m with
    | fatal => rw [hload] at hexec; cases hexec
    | ok old m1 =>
      rw [hload] at hexec
      exact (amoRest_raises i _ old m1 t m' hexec).resolve_left hbreak
    | raise t₁ m1 =>
      rw [hload] at hexec
      cases hexec
      cases htrig : firedTrigger m.rs .load (amoAddr m i) with
      | some t1 => exact absurd (riscvMemLoad_fired htrig hload) hbreak
      | none =>
        exact absurd (loadFaults_of_raise htrig (onPage_of_aligned halign) hsize hload)
          (hquiet htrig)

def LrMisaligned (fp : FpBackend) (i : BitVec 32) (m : Machine D) : Prop :=
  ∃ t m', riscvExecInst fp i m = .raise t m' ∧ t.cause = kExLoadMisaligned

/-- Store and AMO causes for the atomics exactly where the load they begin with goes through; a
load cause for LR exactly where the question does not arise. -/
theorem amo_fault_class_iff (fp : FpBackend) (i : BitVec 32) (op5 : BitVec 5)
    (h : IsAtomic i op5) (m : Machine D) :
    ((isAmoOp op5 = true → AmoAligned m i → FaultsAsStore fp i m) ∧
      (op5 = 0x02 → ¬ AmoAligned m i → LrMisaligned fp i m)) ↔
    ((isAmoOp op5 = true → AmoAligned m i → firedTrigger m.rs .load (amoAddr m i) = none →
        ¬ LoadFaults m (amoAddr m i) (amoWidth i)) ∧
      (op5 = 0x02 → AmoAligned m i)) := by
  refine and_congr ?_ ?_
  · exact forall_congr' fun hamo => forall_congr' fun halign => faultsAsStore_iff fp h hamo halign
  · refine forall_congr' fun _ => ⟨fun hlr => ?_, fun halign hmis => absurd halign hmis⟩
    by_contra hmis
    obtain ⟨t, m', hexec, hcause⟩ := hlr hmis
    rw [exec_atomic_misaligned fp h hmis] at hexec
    cases hexec
    exact absurd hcause (by decide : kExStoreMisaligned ≠ kExLoadMisaligned)

def amoaddW : BitVec 32 := Riscv.encR 0 0 5 2 0 0x2f

def lrW : BitVec 32 := Riscv.encR 0x08 0 5 2 0 0x2f

theorem amo_fault_class_ram :
    FaultsAsStore .idle amoaddW (countingMachine.setX 5 0x80000000) :=
  have hram : ¬ LoadFaults (countingMachine.setX 5 0x80000000) 0x80000000 4 := by
    rintro ⟨hdirect, -⟩
    exact absurd hdirect (by decide +kernel)
  ((amo_fault_class_iff .idle amoaddW 0x00 ⟨rfl, .inl rfl, rfl⟩
    (countingMachine.setX 5 0x80000000)).2
      ⟨fun _ _ _ => hram, fun h => absurd h (by decide)⟩).1 rfl (by decide)

/-- Reset state, nothing at address zero: the AMO reports a load access fault. And an LR at
address one reports a misaligned store. -/
theorem amo_faults_as_load :
    (riscvExecInst .idle amoaddW bareMachine).result = some (.error ⟨kExLoadFault, 0, some 0⟩) ∧
    (riscvExecInst .idle lrW (bareMachine.setX 5 1)).result =
      some (.error ⟨kExStoreMisaligned, 1, none⟩) :=
  ⟨rfl, rfl⟩

end Cemu.Rv64
