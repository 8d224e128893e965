import Cemu.Riscv64.Forms
import Cemu.Riscv64.Translate

/-!
# riscv64: a compressed instruction against its expansion

`SameEffect i w m`: from the machine `m`, `riscv_exec_c` on the 16-bit encoding `i` and
`riscv_exec_inst` on the 32-bit instruction `w`, taken at length two, end in the same way. The main
result says for which encodings and which values of `mstatus.FS` this holds from every machine.
-/

namespace Cemu.Rv64

open Cemu.Riscv SignExtend

variable {D : Type}

/-! ## What is compared -/

/-- The encoding and the instruction end in the same way from `m`. -/
def SameEffect (fp : FpBackend) (i : BitVec 16) (w : BitVec 32) (m : Machine D) : Prop :=
  Same i w m (riscvExecC i) (riscvExecInstAt fp 2 w)

section

variable {α : Type} {i : BitVec 16} {w : BitVec 32} {m : Machine D}

theorem thenFall_same {c c' : RvM D Unit} (h : Same i w m c c') :
    Same i w m (thenFall 2 c) (thenFall 2 c') :=
  h.bind fun _ _ _ _ _ hs => .ok (hs.pcPlus 2) hs

def dirtyFs (m : Machine D) : Machine D :=
  m.setRs { m.rs with mstatus := m.rs.mstatus ||| kMstatusFs }

theorem fpEnter_apply (v : BitVec 64) (m : Machine D) :
    fpEnter v m = if m.rs.mstatus &&& kMstatusFs = 0 then .raise ⟨kExIllegal, v, none⟩ m
      else .ok () (dirtyFs m) := by
  change (if m.rs.mstatus &&& kMstatusFs = 0 then illegal v else setRs _) m = _
  split <;> rfl

theorem fpEnter_bind_same (f : Unit → RvM D α) :
    Same i w m (fpEnter (i.setWidth 64) >>= f) (fpEnter (w.setWidth 64) >>= f) := by
  unfold Same
  rw [RaiseM.bind_apply, RaiseM.bind_apply, fpEnter_apply, fpEnter_apply]
  split
  · exact .raise (.inr ⟨rfl, rfl⟩) rfl
  · exact Same.refl (f ())

end

/-! ## Fields and immediates -/

section

variable (i : BitVec 16)

theorem creg_eq (lo : Nat) : creg i lo = regP i lo := by
  have hsum : ∀ r : BitVec 3, 8 + r.setWidth 5 = 1#2 ++ r := by decide
  exact hsum _

/-- The unsigned immediates of the decoder are those of the formats. -/
theorem cimm_unsigned : cimm4spn i = (uimm4spn i).signExtend 64 ∧
    cimmD i = (uimmD i).signExtend 64 ∧
    cimmW i = (uimmW i).signExtend 64 ∧
    cimmLdsp i = (uimmLdsp i).signExtend 64 ∧
    cimmLwsp i = (uimmLwsp i).signExtend 64 ∧
    cimmSdsp i = (uimmSdsp i).signExtend 64 ∧
    cimmSwsp i = (uimmSwsp i).signExtend 64 :=
  uimm_placed i

theorem cshamt_eq : cshamt i = (imm6 i).setWidth 64 := shiftLeft_or_setWidth ..

theorem cimm6_eq : cimm6 i = (imm6 i).signExtend 64 := by
  rw [← sext_setWidth (by decide) (by decide), ← cshamt_eq]
  rfl

theorem cimm_signed : cimm16sp i = (imm16sp i).signExtend 64 ∧
    cimmLui i = (imm6 i ++ 0#12).signExtend 64 ∧
    cimmJ i = (immJump i ++ 0#1).signExtend 64 ∧
    cimmB i = (immBranch i ++ 0#1).signExtend 64 := by
  simp only [cimm16sp, cimmLui, cimmJ, cimmB, bits, imm_placed]
  refine ⟨?_, ?_, ?_, ?_⟩ <;> exact sext_setWidth (by decide) (by decide) _

end

/-! ## Quadrant by quadrant -/

section

variable (fp : FpBackend) {i : BitVec 16} {w : BitVec 32} {m : Machine D}

theorem funct3_cases (f : BitVec 3) :
    f = 0#3 ∨ f = 1#3 ∨ f = 2#3 ∨ f = 3#3 ∨ f = 4#3 ∨ f = 5#3 ∨ f = 6#3 ∨ f = 7#3 := by
  revert f
  decide

theorem quadrant0_same (h : expand0 .rv64 i = some w) :
    Same i w m (thenFall 2 (quadrant0 i)) (riscvExecInstAt fp 2 w) := by
  simp only [expand0] at h
  simp only [quadrant0, cf3, creg_eq, cimm_unsigned]
  obtain hf | hf | hf | hf | hf | hf | hf | hf := funct3_cases (i.extractLsb' 13 3) <;>
    simp only [hf] at h ⊢
  · -- c.addi4spn
    split at h
    · cases h
    rename_i hz
    cases h
    have hz' : ¬(uimm4spn i).signExtend 64 = 0 := fun h => hz (eq_zero_of_signExtend (by decide) h)
    rw [exec_addi, if_neg hz']
    exact .refl _
  · -- c.fld
    cases h
    rw [exec_fld]
    exact thenFall_same (fpEnter_bind_same _)
  · cases h
    rw [exec_lw]
    exact .refl _
  · cases h
    rw [exec_ld]
    exact .refl _
  · cases h
  · -- c.fsd
    cases h
    rw [exec_fsd]
    exact thenFall_same (fpEnter_bind_same _)
  · cases h
    rw [exec_sw]
    exact .refl _
  · cases h
    rw [exec_sd]
    exact .refl _

theorem bit_cases (b : BitVec 1) : b = 0#1 ∨ b = 1#1 := by
  revert b
  decide

theorem field2_cases (f : BitVec 2) : f = 0#2 ∨ f = 1#2 ∨ f = 2#2 ∨ f = 3#2 := by
  revert f
  decide

theorem quadrant1Arith_same (hkind : i.extractLsb' 10 2 = 3#2) (h : expandArith .rv64 i = some w) :
    Same i w m (thenFall 2 (quadrant1Alu i)) (riscvExecInstAt fp 2 w) := by
  simp only [expandArith] at h
  simp only [quadrant1Alu, creg_eq, hkind, bits]
  obtain hb | hb := bit_cases (i.extractLsb' 12 1) <;>
    obtain hf | hf | hf | hf := field2_cases (i.extractLsb' 5 2) <;>
    simp only [hb, hf] at h ⊢
  · cases h
    rw [exec_sub]
    exact .refl _
  · cases h
    rw [exec_xor]
    exact .refl _
  · cases h
    rw [exec_or]
    exact .refl _
  · cases h
    rw [exec_and]
    exact .refl _
  · cases h
    rw [exec_subw]
    exact .refl _
  · cases h
    rw [exec_addw]
    exact .refl _
  · cases h
  · cases h

theorem quadrant1Alu_same (h : expandAlu .rv64 i = some w) :
    Same i w m (thenFall 2 (quadrant1Alu i)) (riscvExecInstAt fp 2 w) := by
  simp only [expandAlu] at h
  obtain hf | hf | hf | hf := field2_cases (i.extractLsb' 10 2) <;> simp only [hf] at h
  · -- c.srli
    cases h
    simp only [quadrant1Alu, creg_eq, hf, cshamt_eq, exec_srli]
    exact thenFall_same (.shift (fun a => BitVec.ushiftRight_zero a) BitVec.toNat_eq)
  · -- c.srai
    cases h
    simp only [quadrant1Alu, creg_eq, hf, cshamt_eq, exec_srai]
    exact thenFall_same (.shift (fun a => BitVec.sshiftRight_zero) BitVec.toNat_eq)
  · -- c.andi
    cases h
    simp only [quadrant1Alu, creg_eq, hf, cimm6_eq, exec_andi,
      signExtend_signExtend (show 6 ≤ 12 by decide) (show 12 ≤ 64 by decide)]
    exact .refl _
  · exact quadrant1Arith_same fp hf h

theorem cBranch_apply (onZero : Bool) : cBranch i onZero m = .ok (RegFile.pcPlus m
    (if decide (RegFile.x m (regP i 7) = 0) = onZero then (immBranch i ++ 0#1).signExtend 64
      else 2)) m := by
  rw [cBranch, creg_eq, (cimm_signed i).2.2.2]
  change (if decide (m.cpu.gpr (regP i 7) = 0) = onZero then _ else _ : RvM D _) m =
    .ok (m.cpu.pc + if decide (m.cpu.gpr (regP i 7) = 0) = onZero then _ else _) m
  split <;> rfl

theorem lui_zero (h : cimmLui i = 0) : imm6 i = 0#6 := by
  rw [(cimm_signed i).2.1] at h
  have happ : imm6 i ++ 0#12 = 0#18 := eq_zero_of_signExtend (by decide) h
  have hfield := congrArg (·.extractLsb' 12 6) happ
  rwa [BitVec.extractLsb'_append_eq_left] at hfield

theorem quadrant1_same (hx0 : m.cpu.gpr 0 = 0) (h : expand1 .rv64 i = some w) :
    Same i w m (quadrant1 i) (riscvExecInstAt fp 2 w) := by
  have h12 (x : BitVec 6) : (x.signExtend 12).signExtend 64 = x.signExtend 64 :=
    signExtend_signExtend (by decide) (by decide) x
  have hjump : ((immJump i).signExtend 20 ++ 0#1).signExtend 64 = cimmJ i := by
    rw [signExtend_append_zero (by decide), (cimm_signed i).2.2.1]
    exact signExtend_signExtend (by decide) (by decide) _
  have hbranch : ((immBranch i).signExtend 12 ++ 0#1).signExtend 64 =
      (immBranch i ++ 0#1).signExtend 64 := by
    rw [signExtend_append_zero (by decide)]
    exact signExtend_signExtend (by decide) (by decide) _
  simp only [expand1, show regFull i 7 = crd i from rfl] at h
  simp only [quadrant1, cf3]
  obtain hf | hf | hf | hf | hf | hf | hf | hf := funct3_cases (i.extractLsb' 13 3) <;>
    simp only [hf] at h ⊢
  · -- c.addi
    cases h
    rw [exec_addi, h12, ← cimm6_eq]
    refine thenFall_same ?_
    split
    · next hd =>
      rw [hd]
      exact .nop_opX ..
    · exact .refl _
  · -- c.addiw
    split at h
    · cases h
    · next hd =>
      cases h
      rw [exec_addiw, h12, ← cimm6_eq, if_neg hd]
      exact .refl _
  · -- c.li
    cases h
    rw [exec_addi, h12, ← cimm6_eq]
    exact thenFall_same (.li hx0 ..)
  · -- c.addi16sp and c.lui
    split at h
    · next hd =>
      split at h
      · cases h
      · cases h
        rw [exec_addi, signExtend_signExtend (by decide) (by decide), ← (cimm_signed i).1,
          if_pos hd]
        exact .refl _
    · next hd =>
      split at h
      · cases h
      rename_i hz
      cases h
      have hlui : ((imm6 i).signExtend 20 ++ 0#12).signExtend 64 = cimmLui i := by
        rw [signExtend_append_zero (by decide), (cimm_signed i).2.1]
        exact signExtend_signExtend (by decide) (by decide) _
      rw [exec_lui, hlui, if_neg hd]
      split
      · exact .refl _
      rename_i hd0
      have hzero : crd i = 0 := by
        by_contra hne
        exact hd0 ⟨hne, fun h => hz (lui_zero h)⟩
      rw [hzero]
      exact .ok rfl (.setX_zero _)
  · exact quadrant1Alu_same fp h
  · -- c.j
    cases h
    rw [exec_jal, hjump]
    exact .ok rfl (.setX_zero _)
  · cases h
    rw [exec_beq, hbranch]
    exact .branch hx0 (cBranch_apply true)
  · cases h
    rw [exec_bne, hbranch]
    exact .branch hx0 (cBranch_apply false)

theorem exec_jalr_zero (hc : m.rs.misa &&& kMisaC ≠ 0) (d s : BitVec 5) :
    riscvExecInstAt fp 2 (jalr d s 0) m = .ok (m.cpu.gpr s &&& ~~~1) (m.setX d (m.cpu.pc + 2)) := by
  have hoff : m.cpu.gpr s + (0 : BitVec 12).signExtend 64 = m.cpu.gpr s := BitVec.add_zero _
  rw [exec_jalr]
  change Outcome.ok
    (if m.rs.misa &&& kMisaC ≠ 0 then (m.cpu.gpr s + (0 : BitVec 12).signExtend 64) &&& ~~~1
    else _) _ = _
  rw [if_pos hc, hoff]

theorem quadrant2Jump_same (hc : m.rs.misa &&& kMisaC ≠ 0) (hx0 : m.cpu.gpr 0 = 0)
    (h : expandJump i = some w) :
    Same i w m (quadrant2Jump i) (riscvExecInstAt fp 2 w) := by
  have hbit : bits i 12 1 = 0 ↔ fld16 i 12 1 = 0 := by
    obtain hb | hb := bit_cases (i.extractLsb' 12 1) <;> simp [bits, hb]
  simp only [expandJump, show regFull i 7 = crd i from rfl, show regFull i 2 = crs2 i from rfl,
    ← hbit] at h
  unfold quadrant2Jump
  split at h
  · next hb =>
    rw [if_pos hb]
    split at h
    · next hs =>
      rw [if_pos hs]
      split at h
      · cases h
      -- c.jr
      next hd =>
      cases h
      rw [if_neg hd, Same, exec_jalr_zero fp hc]
      exact .ok rfl (.setX_zero _)
    · -- c.mv
      next hs =>
      cases h
      rw [if_neg hs, exec_add]
      refine thenFall_same ?_
      split
      · next hd =>
        rw [hd]
        exact .nop_opXX ..
      · exact .mv hx0 ..
  · next hb =>
    rw [if_neg hb]
    split at h
    · next hs =>
      rw [if_pos hs]
      split at h
      · -- c.ebreak
        next hd =>
        cases h
        rw [if_pos hd]
        exact .refl _
      · -- c.jalr
        next hd =>
        cases h
        rw [if_neg hd, Same, exec_jalr_zero fp hc]
        exact .ok rfl rfl
    · -- c.add
      next hs =>
      cases h
      rw [if_neg hs, exec_add]
      refine thenFall_same ?_
      split
      · next hd =>
        rw [hd]
        exact .nop_opXX ..
      · exact .refl _

/-- C.FLDSP and C.FSDSP, the two that leave `mstatus.FS` alone. -/
def fpStackReg (i : BitVec 16) : Option (BitVec 5) :=
  if i.extractLsb' 0 2 = 2 ∧ cf3 i = 1 then some (crd i)
  else if i.extractLsb' 0 2 = 2 ∧ cf3 i = 5 then some (crs2 i)
  else none

theorem quadrant2_same (hc : m.rs.misa &&& kMisaC ≠ 0) (hx0 : m.cpu.gpr 0 = 0)
    (hload : cf3 i ≠ 1) (hstore : cf3 i ≠ 5) (h : expand2 .rv64 i = some w) :
    Same i w m (quadrant2 i) (riscvExecInstAt fp 2 w) := by
  simp only [expand2, show regFull i 7 = crd i from rfl] at h
  simp only [quadrant2, cf3]
  obtain hf | hf | hf | hf | hf | hf | hf | hf := funct3_cases (i.extractLsb' 13 3) <;>
    simp only [hf] at h ⊢
  · -- c.slli
    cases h
    rw [exec_slli, cshamt_eq]
    refine thenFall_same ?_
    by_cases hd : crd i = 0
    · rw [hd]
      exact .nop_opX ..
    · simp only [hd, false_or]
      exact .shift (fun a => BitVec.shiftLeft_zero a) BitVec.toNat_eq
  · exact absurd hf hload
  · -- c.lwsp
    split at h
    · cases h
    · next hd =>
      cases h
      rw [exec_lw, ← (cimm_unsigned i).2.2.2.2.1, if_neg hd]
      exact .refl _
  · -- c.ldsp
    split at h
    · cases h
    · next hd =>
      cases h
      rw [exec_ld, ← (cimm_unsigned i).2.2.2.1, if_neg hd]
      exact .refl _
  · exact quadrant2Jump_same fp hc hx0 h
  · exact absurd hf hstore
  · cases h
    rw [exec_sw, ← (cimm_unsigned i).2.2.2.2.2.2]
    exact .refl _
  · cases h
    rw [exec_sd, ← (cimm_unsigned i).2.2.2.2.2.1]
    exact .refl _

/-- Every other encoding does what its expansion does. -/
theorem sameEffect_of_no_fpStack (hc : m.rs.misa &&& kMisaC ≠ 0) (hx0 : m.cpu.gpr 0 = 0)
    (h : expand .rv64 i = some w) (hfp : fpStackReg i = none) : SameEffect fp i w m := by
  simp only [expand] at h
  rw [SameEffect]
  unfold riscvExecC
  obtain hq | hq | hq | hq := field2_cases (i.extractLsb' 0 2) <;> simp only [hq] at h ⊢
  · exact quadrant0_same fp h
  · exact quadrant1_same fp hx0 h
  · have hload : cf3 i ≠ 1 := by
      intro hf
      simp [fpStackReg, hq, hf] at hfp
    have hstore : cf3 i ≠ 5 := by
      intro hf
      simp [fpStackReg, hq, hf] at hfp
    exact quadrant2_same fp hc hx0 hload hstore h
  · cases h

end

end Cemu.Rv64
