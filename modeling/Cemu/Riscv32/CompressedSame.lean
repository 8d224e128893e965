import Cemu.Riscv32.Forms
import Cemu.Riscv32.TableWalk
import Cemu.Riscv64.FpStack

/-!
# riscv32: a compressed instruction against its expansion

`SameEffect i w m`: from the machine `m`, `riscv32_exec_c` on the 16-bit encoding `i` and
`riscv32_exec_inst` on the 32-bit instruction `w`, taken at length two, end in the same way. Three
stack forms treat f0 as if it were x0: c.fldsp and c.fsdsp skip the access, c.flwsp is illegal. The
main result is that these are the only exceptions, and only with the FPU on.
-/

namespace Cemu.Rv32

open Cemu.Riscv BitVec RaiseM Outcome SignExtend
open Rv64 (Acc FpBackend TrapRec creg crd crs2 cf3 creg_eq funct3_cases bit_cases
  field2_cases loadVia storeVia probe faultCause unmapped_find kPmpAMask kPmpATor kPmpANa4
  kPmpANapot kMisaC kMstatusFs kExIllegal
  kExLoadFault kExStoreFault)

variable {D : Type}

/-! ## What is compared -/

/-- What a step has established when it executes a compressed instruction: the C extension is on, x0
is zero, and the pc is a 32-bit address. -/
structure Ready (m : Machine D) : Prop where
  misa : m.rs.misa &&& kMisaC ≠ 0
  x0 : m.x 0 = 0
  pc : low m.cpu.pc = m.cpu.pc

theorem low_eq (v : BitVec 64) : low v = (v.setWidth 32).setWidth 64 := by
  have hmask : ∀ k (h : k < 64), kXlenMask[k] = decide (k < 32) := by decide
  simp only [low]
  grind

def SameEffect (fp : FpBackend) (i : BitVec 16) (w : BitVec 32) (m : Machine D) : Prop :=
  Same i w m (riscv32ExecC i) (riscv32ExecInstAt fp 2 w)

section

variable {α : Type} {i : BitVec 16} {w : BitVec 32} {m : Machine D}

theorem thenFall_same {c c' : RvM D Unit} (h : Same i w m c c') :
    Same i w m (thenFall 2 c) (thenFall 2 c') :=
  h.bind fun _ _ _ _ _ hs => .ok (hs.pcPlus 2) hs

def dirtyFs (m : Machine D) : Machine D :=
  m.setRs { m.rs with mstatus := m.rs.mstatus ||| kMstatusFs }

theorem fpEnter_apply (v : BitVec 64) (m : Machine D) :
    fpEnter v m = if m.rs.mstatus &&& kMstatusFs = 0 then .raise ⟨kExIllegal, v, none⟩ m
      else .ok () (dirtyFs m) := by
  change (if m.rs.mstatus &&& kMstatusFs = 0 then illegal v else setRs _) m = _
  split <;> rfl

theorem cFp_same (body : RvM D Unit) : Same i w m (cFp i body) (fpForm w body) := by
  unfold Same cFp fpForm
  rw [bind_apply, bind_apply, fpEnter_apply, fpEnter_apply]
  split
  · exact .raise (.inr ⟨rfl, rfl⟩) rfl
  · exact Same.refl body

end

/-! ## Immediates -/

section

variable (i : BitVec 16)

theorem cimm_unsigned : cimm4spn i = (uimm4spn i).signExtend 32 ∧
    cimmD i = (uimmD i).signExtend 32 ∧
    cimmW i = (uimmW i).signExtend 32 ∧
    cimmLdsp i = (uimmLdsp i).signExtend 32 ∧
    cimmLwsp i = (uimmLwsp i).signExtend 32 ∧
    cimmSdsp i = (uimmSdsp i).signExtend 32 ∧
    cimmSwsp i = (uimmSwsp i).signExtend 32 :=
  uimm_placed i

theorem cimm6_eq : cimm6 i = (imm6 i).signExtend 32 := by
  simp only [cimm6, bits, shiftLeft_or_setWidth]
  exact sext32_setWidth (by decide) (by decide) _

theorem cimm_signed : cimm16sp i = (imm16sp i).signExtend 32 ∧
    cimmLui i = (imm6 i ++ 0#12).signExtend 32 ∧
    cimmJ i = (immJump i ++ 0#1).signExtend 32 ∧
    cimmB i = (immBranch i ++ 0#1).signExtend 32 := by
  simp only [cimm16sp, cimmLui, cimmJ, cimmB, bits, imm_placed]
  refine ⟨?_, ?_, ?_, ?_⟩ <;> exact sext32_setWidth (by decide) (by decide) _

theorem bit12_eq : bits i 12 1 = 0 ↔ i.extractLsb' 12 1 = 0 := by
  obtain hb | hb := bit_cases (i.extractLsb' 12 1) <;> simp [bits, hb]

theorem imm6_of_shamtOk (h : shamtOk .rv32 i = true) :
    imm6 i = 0#1 ++ crs2 i ∧ bits i 12 1 = 0 := by
  have hb : i.extractLsb' 12 1 = 0 := by simpa [shamtOk] using h
  exact ⟨by rw [imm6, fld16, hb]; rfl, (bit12_eq i).mpr hb⟩

end

/-! ## Quadrant by quadrant -/

section

variable (fp : FpBackend) {i : BitVec 16} {w : BitVec 32} {m : Machine D}

theorem quadrant0_same (h : expand0 .rv32 i = some w) :
    Same i w m (thenFall 2 (quadrant0 i)) (riscv32ExecInstAt fp 2 w) := by
  simp only [expand0] at h
  simp only [quadrant0, cf3, creg_eq, cimm_unsigned]
  obtain hf | hf | hf | hf | hf | hf | hf | hf := funct3_cases (i.extractLsb' 13 3) <;>
    simp only [hf] at h ⊢
  · -- c.addi4spn
    split at h
    · cases h
    rename_i hz
    cases h
    have hz' : ¬(uimm4spn i).signExtend 32 = 0 := fun h => hz (eq_zero_of_signExtend (by decide) h)
    rw [exec_addi, if_neg hz']
    exact .refl _
  · -- c.fld
    cases h
    rw [exec_fld]
    exact thenFall_same (cFp_same _)
  · cases h
    rw [exec_lw]
    exact .refl _
  · -- c.flw
    cases h
    rw [exec_flw]
    exact thenFall_same (cFp_same _)
  · cases h
  · -- c.fsd
    cases h
    rw [exec_fsd]
    exact thenFall_same (cFp_same _)
  · cases h
    rw [exec_sw]
    exact .refl _
  · -- c.fsw
    cases h
    rw [exec_fsw]
    exact thenFall_same (cFp_same _)

theorem quadrant1Arith_same (hkind : i.extractLsb' 10 2 = 3#2) (h : expandArith .rv32 i = some w) :
    Same i w m (thenFall 2 (quadrant1Alu i)) (riscv32ExecInstAt fp 2 w) := by
  simp only [expandArith] at h
  simp only [quadrant1Alu, creg_eq, hkind, bits]
  obtain hb | hb := bit_cases (i.extractLsb' 12 1) <;>
    obtain hf | hf | hf | hf := field2_cases (i.extractLsb' 5 2) <;>
    simp only [hb, hf] at h ⊢
  · cases h
    rw [exec_sub]
    exact .refl _
  · cases h
    rw [exec_xor]
    exact .refl _
  · cases h
    rw [exec_or]
    exact .refl _
  · cases h
    rw [exec_and]
    exact .refl _
  all_goals cases h

theorem quadrant1Alu_same (h : expandAlu .rv32 i = some w) :
    Same i w m (thenFall 2 (quadrant1Alu i)) (riscv32ExecInstAt fp 2 w) := by
  have h6 (x : BitVec 6) : (x.signExtend 12).signExtend 32 = x.signExtend 32 :=
    signExtend_signExtend (by decide) (by decide) x
  simp only [expandAlu] at h
  obtain hf | hf | hf | hf := field2_cases (i.extractLsb' 10 2) <;> simp only [hf] at h
  · -- c.srli
    split at h
    · next hok =>
      cases h
      obtain ⟨hsh, hb⟩ := imm6_of_shamtOk i hok
      simp only [quadrant1Alu, creg_eq, hf, hb, hsh, exec_srli]
      exact thenFall_same (.shift (fun a => ushiftRight_zero a) .rfl)
    · cases h
  · -- c.srai
    split at h
    · next hok =>
      cases h
      obtain ⟨hsh, hb⟩ := imm6_of_shamtOk i hok
      simp only [quadrant1Alu, creg_eq, hf, hb, hsh, exec_srai]
      exact thenFall_same (.shift (fun a => sshiftRight_zero) .rfl)
    · cases h
  · -- c.andi
    cases h
    simp only [quadrant1Alu, creg_eq, hf, cimm6_eq, exec_andi, h6]
    exact .refl _
  · exact quadrant1Arith_same fp hf h

theorem cBranch_apply (onZero : Bool) : cBranch i onZero m = .ok (RegFile.pcPlus m
    (if decide (RegFile.x m (regP i 7) = 0) = onZero then (immBranch i ++ 0#1).signExtend 32
      else 2)) m := by
  rw [cBranch, creg_eq, (cimm_signed i).2.2.2]
  change (if decide (m.x (regP i 7) = 0) = onZero then _ else _ : RvM D _) m =
    .ok (((m.cpu.pc.setWidth 32 : BitVec 32) +
      if decide (m.x (regP i 7) = 0) = onZero then _ else _).setWidth 64) m
  split <;> rfl

theorem lui_zero (h : cimmLui i = 0) : imm6 i = 0#6 := by
  rw [(cimm_signed i).2.1] at h
  have happ : imm6 i ++ 0#12 = 0#18 := eq_zero_of_signExtend (by decide) h
  have hfield := congrArg (·.extractLsb' 12 6) happ
  rwa [BitVec.extractLsb'_append_eq_left] at hfield

theorem quadrant1_same (hx0 : m.x 0 = 0) (h : expand1 .rv32 i = some w) :
    Same i w m (quadrant1 i) (riscv32ExecInstAt fp 2 w) := by
  have h6 (x : BitVec 6) : (x.signExtend 12).signExtend 32 = x.signExtend 32 :=
    signExtend_signExtend (by decide) (by decide) x
  have hjump : ((immJump i).signExtend 20 ++ 0#1).signExtend 32 = cimmJ i := by
    rw [signExtend_append_zero (by decide), (cimm_signed i).2.2.1]
    exact signExtend_signExtend (by decide) (by decide) _
  have hbranch : ((immBranch i).signExtend 12 ++ 0#1).signExtend 32 =
      (immBranch i ++ 0#1).signExtend 32 := by
    rw [signExtend_append_zero (by decide)]
    exact signExtend_signExtend (by decide) (by decide) _
  simp only [expand1, show regFull i 7 = crd i from rfl] at h
  simp only [quadrant1, cf3]
  obtain hf | hf | hf | hf | hf | hf | hf | hf := funct3_cases (i.extractLsb' 13 3) <;>
    simp only [hf] at h ⊢
  · -- c.addi
    cases h
    rw [exec_addi, h6, ← cimm6_eq]
    refine thenFall_same ?_
    split
    · next hd =>
      rw [hd]
      exact .nop_opX ..
    · exact .refl _
  · -- c.jal
    cases h
    rw [exec_jal, hjump]
    exact .refl _
  · -- c.li
    cases h
    rw [exec_addi, h6, ← cimm6_eq]
    exact thenFall_same (.li hx0 ..)
  · -- c.addi16sp and c.lui
    split at h
    · next hd =>
      split at h
      · cases h
      · cases h
        rw [exec_addi, signExtend_signExtend (by decide) (by decide), ← (cimm_signed i).1,
          if_pos hd]
        exact .refl _
    · next hd =>
      split at h
      · cases h
      rename_i hz
      cases h
      have hlui : (imm6 i).signExtend 20 ++ 0#12 = cimmLui i := by
        rw [signExtend_append_zero (by decide), (cimm_signed i).2.1]
      rw [exec_lui, hlui, if_neg hd]
      split
      · exact .refl _
      rename_i hd0
      have hzero : crd i = 0 := by
        by_contra hne
        exact hd0 ⟨hne, fun h => hz (lui_zero h)⟩
      rw [hzero]
      exact .ok rfl (.setX_zero _)
  · exact quadrant1Alu_same fp h
  · -- c.j
    cases h
    rw [exec_jal, hjump]
    exact .ok rfl (.setX_zero _)
  · cases h
    rw [exec_beq, hbranch]
    exact .branch hx0 (cBranch_apply true)
  · cases h
    rw [exec_bne, hbranch]
    exact .branch hx0 (cBranch_apply false)

theorem exec_jalr_zero (hc : m.rs.misa &&& kMisaC ≠ 0) (d s : BitVec 5) :
    riscv32ExecInstAt fp 2 (jalr d s 0) m =
      .ok ((m.x s &&& ~~~1).setWidth 64) (m.setX d (m.cpu.pc.setWidth 32 + 2)) := by
  have hoff : m.x s + (0 : BitVec 12).signExtend 32 = m.x s := BitVec.add_zero _
  rw [exec_jalr]
  change Outcome.ok ((if m.rs.misa &&& kMisaC ≠ 0 then
    (m.x s + (0 : BitVec 12).signExtend 32) &&& ~~~1 else _).setWidth 64) _ = _
  rw [if_pos hc, hoff]

theorem quadrant2Jump_same (hm : Ready m) (h : expandJump i = some w) :
    Same i w m (quadrant2Jump i) (riscv32ExecInstAt fp 2 w) := by
  simp only [expandJump, show regFull i 7 = crd i from rfl,
    show regFull i 2 = crs2 i from rfl, ← bit12_eq] at h
  unfold quadrant2Jump
  split at h
  · next hb =>
    rw [if_pos hb]
    split at h
    · next hs =>
      rw [if_pos hs]
      split at h
      · cases h
      -- c.jr
      next hd =>
      cases h
      rw [if_neg hd, Same, exec_jalr_zero fp hm.misa]
      exact .ok rfl (.setX_zero _)
    · -- c.mv
      next hs =>
      cases h
      rw [if_neg hs, exec_add]
      refine thenFall_same ?_
      split
      · next hd =>
        rw [hd]
        exact .nop_opXX ..
      · exact .mv hm.x0 ..
  · next hb =>
    rw [if_neg hb]
    split at h
    · next hs =>
      rw [if_pos hs]
      split at h
      · -- c.ebreak raises at the 32-bit pc, ebreak at the pc
        next hd =>
        cases h
        have hpc : (m.cpu.pc.setWidth 32).setWidth 64 = m.cpu.pc := by
          conv_rhs => rw [← hm.pc, low_eq]
        rw [if_pos hd]
        exact .raise (.inl (congrArg (fun pc => (⟨_, pc, none⟩ : TrapRec)) hpc)) rfl
      · -- c.jalr
        next hd =>
        cases h
        rw [if_neg hd, Same, exec_jalr_zero fp hm.misa]
        exact .ok rfl rfl
    · -- c.add
      next hs =>
      cases h
      rw [if_neg hs, exec_add]
      refine thenFall_same ?_
      split
      · next hd =>
        rw [hd]
        exact .nop_opXX ..
      · exact .refl _

/-- A stack form whose FP register is f0 and that takes this for a reason to do something else. -/
def F0Stack (i : BitVec 16) : Prop :=
  i.extractLsb' 0 2 = 2 ∧
    ((cf3 i = 1 ∨ cf3 i = 3) ∧ crd i = 0 ∨ cf3 i = 5 ∧ crs2 i = 0)

instance (i : BitVec 16) : Decidable (F0Stack i) := inferInstanceAs (Decidable (_ ∧ _))

theorem quadrant2_same (hm : Ready m) (hquad : i.extractLsb' 0 2 = 2) (hf0 : ¬ F0Stack i)
    (h : expand2 .rv32 i = some w) :
    Same i w m (quadrant2 i) (riscv32ExecInstAt fp 2 w) := by
  simp only [expand2, show regFull i 7 = crd i from rfl] at h
  simp only [F0Stack, cf3, hquad, true_and] at hf0
  simp only [quadrant2, cf3]
  obtain hf | hf | hf | hf | hf | hf | hf | hf := funct3_cases (i.extractLsb' 13 3) <;>
    simp only [hf] at h hf0 ⊢
  · -- c.slli
    split at h
    · next hok =>
      cases h
      obtain ⟨hsh, hb⟩ := imm6_of_shamtOk i hok
      rw [hsh, exec_slli, if_neg (not_not.mpr hb)]
      refine thenFall_same ?_
      by_cases hd : crd i = 0
      · rw [hd]
        exact .nop_opX ..
      · simp only [hd, false_or]
        exact .shift (fun a => shiftLeft_zero a) toNat_eq
    · cases h
  · -- c.fldsp
    cases h
    have hd : crd i ≠ 0 := fun hd => hf0 (.inl ⟨.inl rfl, hd⟩)
    rw [exec_fld, ← (cimm_unsigned i).2.2.2.1, if_neg hd]
    exact thenFall_same (cFp_same _)
  · -- c.lwsp
    split at h
    · cases h
    · next hd =>
      cases h
      rw [exec_lw, ← (cimm_unsigned i).2.2.2.2.1, if_neg hd]
      exact .refl _
  · -- c.flwsp
    cases h
    have hd : crd i ≠ 0 := fun hd => hf0 (.inl ⟨.inr rfl, hd⟩)
    rw [exec_flw, ← (cimm_unsigned i).2.2.2.2.1, if_neg hd]
    exact thenFall_same (cFp_same _)
  · exact quadrant2Jump_same fp hm h
  · -- c.fsdsp
    cases h
    have hs : crs2 i ≠ 0 := fun hs => hf0 (.inr ⟨rfl, hs⟩)
    rw [exec_fsd, ← (cimm_unsigned i).2.2.2.2.2.1, if_neg hs]
    exact thenFall_same (cFp_same _)
  · cases h
    rw [exec_sw, ← (cimm_unsigned i).2.2.2.2.2.2]
    exact .refl _
  · -- c.fswsp
    cases h
    rw [exec_fsw, ← (cimm_unsigned i).2.2.2.2.2.2]
    exact thenFall_same (cFp_same _)

theorem sameEffect_of_not_f0Stack (hm : Ready m) (h : expand .rv32 i = some w)
    (hf0 : ¬ F0Stack i) : SameEffect fp i w m := by
  simp only [expand] at h
  rw [SameEffect]
  unfold riscv32ExecC
  obtain hq | hq | hq | hq := field2_cases (i.extractLsb' 0 2) <;> simp only [hq] at h ⊢
  · exact quadrant0_same fp h
  · exact quadrant1_same fp hm.x0 h
  · exact quadrant2_same fp hm hq hf0 h
  · cases h

end

/-! ## The f0 stack forms -/

def fsOf (s : Riscv32State) : BitVec 2 := s.mstatus.extractLsb' 13 2

theorem fsOf_eq_zero (s : Riscv32State) : s.mstatus &&& kMstatusFs = 0 ↔ fsOf s = 0#2 := by
  have hbits : ∀ k < 64, kMstatusFs.getLsbD k = (decide (k = 13) || decide (k = 14)) := by decide
  constructor
  · intro h
    ext k hk
    have hbit := congrArg (·.getLsbD (13 + k)) h
    simp only [fsOf]
    grind
  · intro h
    have h0 := congrArg (·.getLsbD 0) h
    have h1 := congrArg (·.getLsbD 1) h
    simp only [fsOf] at h0 h1
    grind

variable {i : BitVec 16} {w : BitVec 32}

/-- What an f0 stack form and its expansion run: the expansion gates and goes to memory, the form
gates and does nothing, or is illegal. -/
theorem f0Stack_bodies (fp : FpBackend) (h : expand .rv32 i = some w) (hf0 : F0Stack i) :
    ∃ body : RvM D Unit,
      (body = cLoadF 0 2 (cimmLdsp i) true ∨ body = cLoadF 0 2 (cimmLwsp i) false ∨
        body = cStoreF 0 2 (cimmSdsp i) true) ∧
      ((riscv32ExecC i : RvM D _) = thenFall 2 (cFp i (pure ())) ∨
        (riscv32ExecC i : RvM D _) = thenFall 2 (cIllegal i)) ∧
      riscv32ExecInstAt fp 2 w = thenFall 2 (fpForm w body) := by
  obtain ⟨hq, ⟨hf, hd⟩ | ⟨hf, hs⟩⟩ := hf0
  · obtain hf | hf := hf
    · have hw : expand .rv32 i = some (fld 0 2 (uimmLdsp i)) := by
        have hf' : i.extractLsb' 13 3 = 1#3 := hf
        simp only [expand, expand2, hq, hf', show regFull i 7 = crd i from rfl, hd]
        rfl
      cases hw.symm.trans h
      refine ⟨_, .inl rfl, .inl ?_, by rw [exec_fld, (cimm_unsigned i).2.2.2.1]⟩
      simp only [riscv32ExecC, hq, quadrant2, hf, hd]
      rfl
    · have hw : expand .rv32 i = some (flw 0 2 (uimmLwsp i)) := by
        have hf' : i.extractLsb' 13 3 = 3#3 := hf
        simp only [expand, expand2, hq, hf', show regFull i 7 = crd i from rfl, hd]
        rfl
      cases hw.symm.trans h
      refine ⟨_, .inr (.inl rfl), .inr ?_, by rw [exec_flw, (cimm_unsigned i).2.2.2.2.1]⟩
      simp only [riscv32ExecC, hq, quadrant2, hf, hd]
      rfl
  · have hw : expand .rv32 i = some (fsd 0 2 (uimmSdsp i)) := by
      have hf' : i.extractLsb' 13 3 = 5#3 := hf
      simp only [expand, expand2, hq, hf', show regFull i 2 = crs2 i from rfl, hs]
      rfl
    cases hw.symm.trans h
    refine ⟨_, .inr (.inr rfl), .inl ?_, by rw [exec_fsd, (cimm_unsigned i).2.2.2.2.2.1]⟩
    simp only [riscv32ExecC, hq, quadrant2, hf, hs]
    rfl

theorem sameEffect_of_off (fp : FpBackend) {m : Machine D}
    (h : expand .rv32 i = some w) (hf0 : F0Stack i) (hfs : fsOf m.rs = 0#2) :
    SameEffect fp i w m := by
  obtain ⟨body, -, hc, hw⟩ := f0Stack_bodies fp h hf0
  have hoff := (fsOf_eq_zero m.rs).mpr hfs
  have hgate (v : BitVec 64) : fpEnter v m = .raise ⟨kExIllegal, v, none⟩ m := by
    rw [fpEnter_apply, if_pos hoff]
  have hright : riscv32ExecInstAt fp 2 w m = .raise ⟨kExIllegal, w.setWidth 64, none⟩ m := by
    rw [hw]
    simp only [thenFall, fpForm, bind_apply, hgate, bind_raise]
  have hleft : riscv32ExecC i m = .raise ⟨kExIllegal, i.setWidth 64, none⟩ m := by
    obtain hc | hc := hc
    · rw [hc]
      simp only [thenFall, cFp, bind_apply, hgate, bind_raise]
    · rw [hc]
      rfl
  rw [SameEffect, Same, hleft, hright]
  exact .raise (.inr ⟨rfl, rfl⟩) rfl

def initWith (mstatus : BitVec 64) : Riscv32State := { riscv32Init with mstatus := mstatus }

def emptyMachine (fs : BitVec 2) : Machine Unit :=
  (Machine.init World.unmapped 0).setRs (initWith (fs.setWidth 64 <<< 13))

section

variable (fs : BitVec 2)

theorem emptyMachine_fs : fsOf (emptyMachine fs).rs = fs := by
  revert fs
  decide

theorem emptyMachine_ready : Ready (emptyMachine fs) where
  misa := show kMisaSupported &&& kMisaC ≠ 0 by decide
  x0 := rfl
  pc := show low 0 = 0 by decide

theorem unmapped_hostOf (a : BitVec 64) : hostOf .unmapped a = none := by
  unfold hostOf busRamPage
  split <;> rfl

theorem emptyMachine_pmp (addr : BitVec 64) (len : Nat) (acc : Acc) (mode : BitVec 8) :
    riscv32PmpAllowed (emptyMachine fs).rs addr len acc mode = true := by
  have hoff (i : Nat) : pmpRegion (emptyMachine fs).rs i = none := by
    have hcfg : pmpCfg (emptyMachine fs).rs i = 0 := by
      change ((0#32 >>> (8 * (i % 4))).setWidth 8) = 0
      simp
    simp [pmpRegion, hcfg, kPmpATor, kPmpANa4, kPmpANapot]
  have hscan (is : List Nat) :
      pmpScan (emptyMachine fs).rs addr (.ofNat 64 len) acc mode is false = true := by
    induction is with
    | nil => rfl
    | cons i rest ih => rw [pmpScan, hoff, ih]
  exact hscan _

theorem emptyMachine_translate (a : BitVec 64) (size : Nat) (acc : Acc) :
    riscv32Translate a size acc (emptyMachine fs) = .ok (low a, none) (emptyMachine fs) := by
  have hbare : isBare (emptyMachine fs).rs acc = true := by
    have hmode : satpMode (emptyMachine fs).rs = kSatpModeBare := by
      change (0#64 >>> 31 &&& 1) = 0#64
      decide
    simp [isBare, hmode]
  have hpmp : riscv32PmpAllowed (emptyMachine fs).rs (low a) size acc (emptyMachine fs).rs.priv =
      true := emptyMachine_pmp fs ..
  rw [riscv32Translate_apply, if_pos hbare, translateBare_apply, if_pos hpmp]
  exact congrArg (fun host => Outcome.ok (low a, host) (emptyMachine fs)) (unmapped_hostOf (low a))

theorem emptyMachine_quiet (op : Rv64.TrigOp) (a : BitVec 64) :
    riscv32TriggerCheck op a (emptyMachine fs) = .ok () (emptyMachine fs) := by
  have hmatch (t2 t3 : BitVec 64) :
      mc6Match (emptyMachine fs).rs kTrigTypeMcontrol6 t2 t3 op a = false := by
    have hbit : kTrigTypeMcontrol6 &&& op.bit = 0 := by cases op <;> decide
    simp [mc6Match, hbit]
  have hquiet : firedTrigger (emptyMachine fs).rs op a = none := by
    simp only [firedTrigger]
    split
    · rfl
    · change (if mc6Match (emptyMachine fs).rs kTrigTypeMcontrol6 _ _ op a && _ then _ else
        if _ && mc6Match (emptyMachine fs).rs kTrigTypeMcontrol6 _ _ op a && _ then _ else none) =
          none
      simp [hmatch]
  rw [riscv32TriggerCheck_apply, hquiet]

theorem emptyMachine_load (a : BitVec 64) (size : Nat) :
    riscv32MemLoad a size .read (emptyMachine fs) =
      .raise ⟨kExLoadFault, a, some (low a)⟩ (emptyMachine fs) := by
  have hvia : loadVia a size .read (low a) .unmapped =
      .raise ⟨kExLoadFault, a, some (low a)⟩ .unmapped := by
    simp [loadVia, probe, World.busProbe, unmapped_find, faultCause]
  have hload : loadAt a size .read (low a) none (emptyMachine fs) =
      .raise ⟨kExLoadFault, a, some (low a)⟩ (emptyMachine fs) := by
    change (onWorld fun _ => loadVia a size .read (low a)) (emptyMachine fs) = _
    rw [onWorld_apply, show (emptyMachine fs).w = .unmapped from rfl, hvia]
    rfl
  simp only [riscv32MemLoad, bind_apply, ne_eq, reduceCtorEq, not_false_eq_true, if_true,
    emptyMachine_quiet, bind_ok, emptyMachine_translate, hload]

theorem emptyMachine_store (a v : BitVec 64) (size : Nat) :
    riscv32MemStore a size v (emptyMachine fs) =
      .raise ⟨kExStoreFault, a, some (low a)⟩ (emptyMachine fs) := by
  have hvia : storeVia a size v (low a) .unmapped =
      .raise ⟨kExStoreFault, a, some (low a)⟩ .unmapped := by
    simp [storeVia, probe, World.busProbe, unmapped_find]
  have hstore : storeAt a size v (low a) none (emptyMachine fs) =
      .raise ⟨kExStoreFault, a, some (low a)⟩ (emptyMachine fs) := by
    change (onWorld fun _ => storeVia a size v (low a)) (emptyMachine fs) = _
    rw [onWorld_apply, show (emptyMachine fs).w = .unmapped from rfl, hvia]
    rfl
  simp only [riscv32MemStore, bind_apply, emptyMachine_quiet, bind_ok,
    emptyMachine_translate, hstore]

theorem emptyMachine_dirty (h : fs ≠ 0) : dirtyFs (emptyMachine fs) = emptyMachine 3#2 := by
  have hor : fs.setWidth 64 <<< 13 ||| kMstatusFs = (3#2).setWidth 64 <<< 13 := by
    revert fs
    decide
  have hdirty (v : BitVec 64) : dirtyFs ((Machine.init .unmapped 0).setRs (initWith v)) =
        (Machine.init .unmapped 0).setRs (initWith (v ||| kMstatusFs)) := rfl
  rw [emptyMachine, hdirty, hor, emptyMachine]

theorem emptyMachine_body {body : RvM Unit Unit}
    (h : body = cLoadF 0 2 (cimmLdsp i) true ∨ body = cLoadF 0 2 (cimmLwsp i) false ∨
      body = cStoreF 0 2 (cimmSdsp i) true) :
    ∃ t, t.cause ≠ kExIllegal ∧ body (emptyMachine fs) = .raise t (emptyMachine fs) := by
  have hload (imm : BitVec 32) isDouble :
      ∃ t, t.cause ≠ kExIllegal ∧
        cLoadF 0 2 imm isDouble (emptyMachine fs) = .raise t (emptyMachine fs) := by
    let a := ((emptyMachine fs).x 2 + imm).setWidth 64
    refine ⟨⟨kExLoadFault, a, some (low a)⟩, show kExLoadFault ≠ kExIllegal by decide, ?_⟩
    change (riscv32MemLoad _ _ .read (emptyMachine fs)).bind _ = _
    rw [emptyMachine_load]
    rfl
  obtain rfl | rfl | rfl := h
  · exact hload _ _
  · exact hload _ _
  · exact ⟨⟨kExStoreFault, _, _⟩, show kExStoreFault ≠ kExIllegal by decide,
      emptyMachine_store fs _ _ _⟩

theorem emptyMachine_differs (fp : FpBackend)
    (h : expand .rv32 i = some w) (hf0 : F0Stack i) (hfs : fs ≠ 0) :
    ¬ SameEffect fp i w (emptyMachine fs) := by
  obtain ⟨body, hbody, hc, hw⟩ := f0Stack_bodies (D := Unit) fp h hf0
  obtain ⟨t, ht, hrun⟩ := emptyMachine_body 3#2 hbody
  have hgate (v : BitVec 64) : fpEnter v (emptyMachine fs) = .ok () (emptyMachine 3#2) := by
    have hon : ¬ (emptyMachine fs).rs.mstatus &&& kMstatusFs = 0 := by
      rw [fsOf_eq_zero, emptyMachine_fs]
      exact hfs
    rw [fpEnter_apply, if_neg hon, emptyMachine_dirty fs hfs]
  have hright : riscv32ExecInstAt fp 2 w (emptyMachine fs) = .raise t (emptyMachine 3#2) := by
    rw [hw]
    simp only [thenFall, fpForm, bind_apply, hgate, bind_ok, hrun,
      bind_raise]
  intro hsame
  rw [SameEffect, Same, hright] at hsame
  obtain hc | hc := hc
  · -- the form returns
    have hleft : riscv32ExecC i (emptyMachine fs) =
        .ok (((emptyMachine fs).cpu.pc.setWidth 32 + 2).setWidth 64) (emptyMachine 3#2) := by
      rw [hc]
      simp only [thenFall, cFp, bind_apply, hgate, bind_ok]
      rfl
    rw [hleft] at hsame
    cases hsame
  · -- the form raises an illegal instruction
    have hleft : riscv32ExecC i (emptyMachine fs) =
        .raise ⟨kExIllegal, i.setWidth 64, none⟩ (emptyMachine fs) := by
      rw [hc]
      rfl
    rw [hleft] at hsame
    cases hsame with
    | raise he _ =>
      obtain rfl | ⟨-, rfl⟩ := he
      · exact ht rfl
      · exact ht rfl

end

/-- A compressed instruction has the effect of its expansion from every machine with a given
`mstatus.FS` unless it is a stack form of f0; those have it exactly when the FPU is off. -/
theorem compressed32_same_iff (fp : FpBackend) (i : BitVec 16) (w : BitVec 32) (fs : BitVec 2)
    (h : expand .rv32 i = some w) :
    (∀ (D : Type) (m : Machine D), Ready m → fsOf m.rs = fs → SameEffect fp i w m) ↔
      (F0Stack i → fs = 0#2) := by
  constructor
  · intro hall hf0
    by_contra hfs
    exact emptyMachine_differs fs fp h hf0 hfs
      (hall Unit (emptyMachine fs) (emptyMachine_ready fs) (emptyMachine_fs fs))
  · intro hgood D m hm hfs
    by_cases hf0 : F0Stack i
    · exact sameEffect_of_off fp h hf0 (hfs.trans (hgood hf0))
    · exact sameEffect_of_not_f0Stack fp hm h hf0

/-- c.flwsp f10, 0(x2) from every machine with FS initial. -/
theorem compressed32_same_flwsp :
    expand .rv32 0x6502 = some (flw 10 2 0) ∧
      ∀ (D : Type) (m : Machine D), Ready m → fsOf m.rs = 1#2 →
        SameEffect .idle 0x6502 (flw 10 2 0) m :=
  ⟨by decide, (compressed32_same_iff .idle 0x6502 (flw 10 2 0) 1#2 (by decide)).mpr (by decide)⟩

/-- With the FPU on, c.fldsp f0, 0(x2) goes on and c.flwsp f0, 0(x2) is illegal, where fld and flw
go to memory. -/
theorem f0_stack_differs :
    expand .rv32 0x2002 = some (fld 0 2 0) ∧ expand .rv32 0x6002 = some (flw 0 2 0) ∧
      Ready (emptyMachine 3#2) ∧
      (riscv32ExecC 0x2002 (emptyMachine 3#2)).result = some (.ok 2) ∧
      (riscv32ExecInstAt .idle 2 (fld 0 2 0) (emptyMachine 3#2)).result =
        some (.error ⟨kExLoadFault, 0, some 0⟩) ∧
      (riscv32ExecC 0x6002 (emptyMachine 3#2)).result =
        some (.error ⟨kExIllegal, 0x6002, none⟩) ∧
      (riscv32ExecInstAt .idle 2 (flw 0 2 0) (emptyMachine 3#2)).result =
        some (.error ⟨kExLoadFault, 0, some 0⟩) :=
  ⟨by decide, by decide, emptyMachine_ready 3#2, rfl, rfl, rfl, rfl⟩

end Cemu.Rv32
