import Cemu.Riscv64.CompressedSame
import Cemu.Riscv64.WideAccess

/-!
# riscv64: when a compressed instruction has the effect of its expansion

c.fldsp and c.fsdsp neither look at `mstatus.FS` nor dirty it, and skip register f0. A machine with
nothing on its bus tells both differences apart; the other encodings are covered by
`sameEffect_of_no_fpStack`.
-/

namespace Cemu.Rv64

open Cemu.Riscv RaiseM World

variable {D : Type}

/-! ## The gate with FS dirty -/

def fsOf (s : RiscvState) : BitVec 2 := s.mstatus.extractLsb' 13 2

theorem mstatus_dirty {s : RiscvState} (h : fsOf s = 3#2) :
    s.mstatus ||| kMstatusFs = s.mstatus := by
  have hbits : ∀ k < 64, kMstatusFs.getLsbD k = (decide (k = 13) || decide (k = 14)) := by decide
  have h0 := congrArg (·.getLsbD 0) h
  have h1 := congrArg (·.getLsbD 1) h
  simp [fsOf] at h0 h1
  grind

theorem mstatus_on {s : RiscvState} (h : fsOf s = 3#2) : ¬s.mstatus &&& kMstatusFs = 0 := by
  intro hz
  have habs : (s.mstatus ||| kMstatusFs) &&& kMstatusFs = 0 := by rw [mstatus_dirty h, hz]
  have hself : (s.mstatus ||| kMstatusFs) &&& kMstatusFs = kMstatusFs := by
    grind
  rw [hself] at habs
  exact absurd habs (by decide)

theorem fpEnter_dirty {m : Machine D} (h : fsOf m.rs = 3#2) (v : BitVec 64) :
    fpEnter v m = .ok () m := by
  rw [fpEnter_apply, if_neg (mstatus_on h), dirtyFs, mstatus_dirty h]
  rfl

variable {i : BitVec 16} {w : BitVec 32} {r : BitVec 5}

section

variable (fp : FpBackend) (h : expand .rv64 i = some w) (hr : fpStackReg i = some r)

include h hr

theorem fpStack_bodies :
    ∃ body : RvM D Unit, (body = cLoadF r 2 (cimmLdsp i) ∨ body = cStoreF r 2 (cimmSdsp i)) ∧
      riscvExecC i = thenFall 2 (if r = 0 then pure () else body) ∧
      riscvExecInstAt fp 2 w = thenFall 2 (do fpEnter (w.setWidth 64); body) := by
  unfold fpStackReg at hr
  split at hr
  · next hq =>
    cases hr
    have hw : expand .rv64 i = some (fld (crd i) 2 (uimmLdsp i)) := by
      have hf : i.extractLsb' 13 3 = 1#3 := hq.2
      simp only [expand, expand2, hq.1, hf]
      rfl
    cases hw.symm.trans h
    refine ⟨_, .inl rfl, ?_, ?_⟩
    · have hf : cf3 i = 1#3 := hq.2
      simp only [riscvExecC, hq.1, quadrant2, hf]
      rfl
    · rw [exec_fld, (cimm_unsigned i).2.2.2.1]
  · split at hr
    · next hq =>
      cases hr
      have hw : expand .rv64 i = some (fsd (crs2 i) 2 (uimmSdsp i)) := by
        have hf : i.extractLsb' 13 3 = 5#3 := hq.2
        simp only [expand, expand2, hq.1, hf]
        rfl
      cases hw.symm.trans h
      refine ⟨_, .inr rfl, ?_, ?_⟩
      · have hf : cf3 i = 5#3 := hq.2
        simp only [riscvExecC, hq.1, quadrant2, hf]
        rfl
      · rw [exec_fsd, (cimm_unsigned i).2.2.2.2.2.1]
    · cases hr

theorem sameEffect_of_dirty {m : Machine D} (hr0 : r ≠ 0)
    (hfs : fsOf m.rs = 3#2) : SameEffect fp i w m := by
  obtain ⟨body, -, hc, hw⟩ := fpStack_bodies fp h hr
  rw [SameEffect, hc, hw, if_neg hr0]
  refine thenFall_same (.of_apply ?_)
  rw [bind_apply, fpEnter_dirty hfs]
  rfl

end

/-! ## A machine that tells the two apart -/

def initWith (mstatus : BitVec 64) : RiscvState := { riscvInit with mstatus := mstatus }

def emptyMachine (fs : BitVec 2) : Machine Unit :=
  (Machine.init unmapped 0).setRs (initWith (fs.setWidth 64 <<< 13))

theorem rs_of_sameButX0 {m m' : Machine D} (h : SameButX0 m m') : m.rs = m'.rs :=
  congrArg (fun m => m.rs) h

theorem unmapped_find (a : BitVec 64) (len : Nat) :
    unmapped.find a len = (none, .unmapped) := by
  have hregion : findRegion .empty a (.ofNat 64 len) = (none, .empty) := by
    unfold findRegion
    split <;> rfl
  simp [find, unmapped, ramOnly, hregion]

section

variable (fs : BitVec 2)

theorem emptyMachine_w : (emptyMachine fs).w = .unmapped := rfl

theorem unmapped_hostOf (a : BitVec 64) : hostOf .unmapped a = none := by
  unfold hostOf busRamPage
  split <;> rfl

theorem emptyMachine_translate (a : BitVec 64) (acc : Acc) :
    riscvTranslate a 8 acc (emptyMachine fs) = .ok (a, none) (emptyMachine fs) := by
  have hsatp : (emptyMachine fs).rs.satp = 0 := rfl
  have hbare : isBare (emptyMachine fs).rs acc := by
    have hmode : satpMode (emptyMachine fs).rs = kSatpModeBare := by
      rw [satpMode, hsatp]
      decide
    simp [isBare, hmode]
  have hsame : SamePmp riscvInit (emptyMachine fs).rs := ⟨rfl, rfl⟩
  have hpmp : riscvPmpAllowed (emptyMachine fs).rs a 8 acc (emptyMachine fs).rs.priv = true := by
    rw [hsame.pmpAllowed]
    rfl
  rw [riscvTranslate_apply, if_pos hbare, translateBare_apply, if_pos hpmp,
    emptyMachine_w, unmapped_hostOf]

theorem emptyMachine_quiet : NoTrigger (emptyMachine fs).rs := by
  intro i hi
  change riscvInit.tdata1 i &&& _ = 0
  revert i
  decide

theorem emptyMachine_load (a : BitVec 64) :
    riscvMemLoad a 8 .read (emptyMachine fs) =
      .raise ⟨kExLoadFault, a, some a⟩ (emptyMachine fs) := by
  have hvia : loadVia a 8 .read a unmapped =
      .raise ⟨kExLoadFault, a, some a⟩ unmapped := by
    simp [loadVia, probe, busProbe, unmapped_find, faultCause]
  rw [riscvMemLoad_apply (emptyMachine_quiet fs), emptyMachine_translate]
  change (onWorld fun _ => loadVia a 8 .read a) (emptyMachine fs) = _
  rw [onWorld_apply, emptyMachine_w, hvia]
  rfl

theorem emptyMachine_store (a v : BitVec 64) :
    riscvMemStore a 8 v (emptyMachine fs) =
      .raise ⟨kExStoreFault, a, some a⟩ (emptyMachine fs) := by
  have hvia : storeVia a 8 v a unmapped =
      .raise ⟨kExStoreFault, a, some a⟩ unmapped := by
    simp [storeVia, probe, busProbe, unmapped_find]
  rw [riscvMemStore_apply (emptyMachine_quiet fs), emptyMachine_translate]
  change (onWorld fun _ => storeVia a 8 v a) (emptyMachine fs) = _
  rw [onWorld_apply, emptyMachine_w, hvia]
  rfl

/-- On the empty machine either stack access faults, for a reason other than the encoding, and
leaves the control state. -/
theorem emptyMachine_body {body : RvM Unit Unit}
    (h : body = cLoadF r 2 (cimmLdsp i) ∨ body = cStoreF r 2 (cimmSdsp i)) :
    ∃ t, t.cause ≠ kExIllegal ∧ body (emptyMachine fs) = .raise t (emptyMachine fs) := by
  obtain rfl | rfl := h
  · have hcause : kExLoadFault ≠ kExIllegal := by decide
    let a := (emptyMachine fs).cpu.gpr 2 + cimmLdsp i
    refine ⟨⟨kExLoadFault, a, some a⟩, hcause, ?_⟩
    rw [cLoadF, bind_apply]
    change (riscvMemLoad _ 8 .read (emptyMachine fs)).bind _ = _
    rw [emptyMachine_load]
    rfl
  · have hcause : kExStoreFault ≠ kExIllegal := by decide
    exact ⟨_, hcause, emptyMachine_store fs _ _⟩

theorem emptyMachine_fs : fsOf (emptyMachine fs).rs = fs := by
  revert fs
  decide

theorem emptyMachine_dirty (h : fs ≠ 0) : dirtyFs (emptyMachine fs) = emptyMachine 3#2 := by
  have hor : fs.setWidth 64 <<< 13 ||| kMstatusFs = (3#2).setWidth 64 <<< 13 := by
    revert fs
    decide
  have hdirty (v : BitVec 64) :
      dirtyFs ((Machine.init unmapped 0).setRs (initWith v)) =
        (Machine.init unmapped 0).setRs (initWith (v ||| kMstatusFs)) := rfl
  rw [emptyMachine, hdirty, hor, emptyMachine]

theorem emptyMachine_gate (v : BitVec 64) :
    fpEnter v (emptyMachine fs) =
      if fs = 0 then .raise ⟨kExIllegal, v, none⟩ (emptyMachine fs)
      else .ok () (emptyMachine 3#2) := by
  have hiff : (emptyMachine fs).rs.mstatus &&& kMstatusFs = 0 ↔ fs = 0 := by
    revert fs
    decide
  rw [fpEnter_apply]
  by_cases h : fs = 0
  · rw [if_pos (hiff.mpr h), if_pos h]
  · rw [if_neg (mt hiff.mp h), if_neg h, emptyMachine_dirty fs h]

theorem emptyMachine_differs (fp : FpBackend)
    (h : expand .rv64 i = some w) (hr : fpStackReg i = some r) (hbad : ¬(r ≠ 0 ∧ fs = 3#2)) :
    ¬SameEffect fp i w (emptyMachine fs) := by
  obtain ⟨body, hbody, hc, hw⟩ := fpStack_bodies (D := Unit) fp h hr
  obtain ⟨t, ht, hrun⟩ := emptyMachine_body fs hbody
  obtain ⟨t3, ht3, hrun3⟩ := emptyMachine_body 3#2 hbody
  have hleft : riscvExecC i (emptyMachine fs) =
      if r = 0 then .ok ((emptyMachine fs).cpu.pc + 2) (emptyMachine fs)
      else .raise t (emptyMachine fs) := by
    rw [hc]
    split
    · rfl
    · rw [thenFall, bind_apply, hrun]
      rfl
  have hright : riscvExecInstAt fp 2 w (emptyMachine fs) =
      if fs = 0 then .raise ⟨kExIllegal, w.setWidth 64, none⟩ (emptyMachine fs)
      else .raise t3 (emptyMachine 3#2) := by
    rw [hw, thenFall, bind_apply, bind_apply, emptyMachine_gate]
    split
    · rfl
    · rw [Outcome.bind_ok, hrun3]
      rfl
  intro hsame
  rw [SameEffect, Same, hleft, hright] at hsame
  by_cases hr0 : r = 0
  · -- the left side returns, the right side raises
    rw [if_pos hr0] at hsame
    split at hsame <;> cases hsame
  rw [if_neg hr0] at hsame
  split at hsame
  · -- the left side raised something other than an illegal instruction
    cases hsame with
    | raise he _ =>
      obtain rfl | ⟨rfl, -⟩ := he
      · exact ht rfl
      · exact ht rfl
  · -- the gate left FS dirty on the right side only
    cases hsame with
    | raise _ hs =>
      have hfs : fsOf (emptyMachine fs).rs = fsOf (emptyMachine 3#2).rs :=
        congrArg fsOf (rs_of_sameButX0 hs)
      rw [emptyMachine_fs, emptyMachine_fs] at hfs
      exact hbad ⟨hr0, hfs⟩

end

/-- A compressed instruction has the effect of its expansion from every machine with a given
`mstatus.FS` unless it is c.fldsp or c.fsdsp; those two have it exactly when FS is already dirty and
the FP register is not f0. -/
theorem compressed_same_iff (fp : FpBackend) (i : BitVec 16) (w : BitVec 32) (fs : BitVec 2)
    (h : expand .rv64 i = some w) :
    (∀ (D : Type) (m : Machine D), m.rs.misa &&& kMisaC ≠ 0 → m.cpu.gpr 0 = 0 →
      fsOf m.rs = fs → SameEffect fp i w m) ↔
      ∀ r, fpStackReg i = some r → r ≠ 0 ∧ fs = 3#2 := by
  constructor
  · intro hall r hr
    by_contra hbad
    have hmisa : (emptyMachine fs).rs.misa &&& kMisaC ≠ 0 := by
      change kMisaSupported &&& kMisaC ≠ 0
      decide
    exact emptyMachine_differs fs fp h hr hbad
      (hall Unit (emptyMachine fs) hmisa rfl (emptyMachine_fs fs))
  · intro hgood D m hmisa hx0 hfs
    cases hr : fpStackReg i with
    | none => exact sameEffect_of_no_fpStack fp hmisa hx0 h hr
    | some r =>
      obtain ⟨hr0, rfl⟩ := hgood r hr
      exact sameEffect_of_dirty fp h hr hr0 hfs

/-- c.ldsp x8, 0(x2), which has no FP register, from every machine with FS off. -/
theorem compressed_same_ldsp :
    expand .rv64 0x6402 = some (ld 8 2 0) ∧
      ∀ (D : Type) (m : Machine D), m.rs.misa &&& kMisaC ≠ 0 → m.cpu.gpr 0 = 0 →
        fsOf m.rs = 0#2 → SameEffect .idle 0x6402 (ld 8 2 0) m :=
  ⟨by decide, (compressed_same_iff .idle 0x6402 (ld 8 2 0) 0#2 (by decide)).mpr (by decide)⟩

/-- c.fldsp f10, 0(x2) with FS off reaches memory, where fld is an illegal instruction; and
c.fldsp f0, 0(x2) with FS dirty goes on where fld faults. -/
theorem fldsp_differs :
    expand .rv64 0x2502 = some (fld 10 2 0) ∧ expand .rv64 0x2002 = some (fld 0 2 0) ∧
      (riscvExecC 0x2502 (emptyMachine 0#2)).result = some (.error ⟨kExLoadFault, 0, some 0⟩) ∧
      (riscvExecInstAt .idle 2 (fld 10 2 0) (emptyMachine 0#2)).result =
        some (.error ⟨kExIllegal, (fld 10 2 0).setWidth 64, none⟩) ∧
      (riscvExecC 0x2002 (emptyMachine 3#2)).result = some (.ok 2) ∧
      (riscvExecInstAt .idle 2 (fld 0 2 0) (emptyMachine 3#2)).result =
        some (.error ⟨kExLoadFault, 0, some 0⟩) :=
  ⟨by decide, by decide, rfl, rfl, rfl, rfl⟩

end Cemu.Rv64
