import Cemu.Lib.SignExtend
import Cemu.Riscv.SameEffect
import Cemu.Riscv64.ExecC

/-!
# riscv64: the 32-bit instructions that compressed ones stand for

One equation for each: what `riscv_exec_inst` does on the encoding of its operands, at either
length.
-/

namespace Cemu.Rv64

open Cemu.Riscv BitVec

variable {D : Type}

instance : RegFile (Machine D) 64 where
  x m := m.cpu.gpr
  setX := Machine.setX
  pcPlus m off := m.cpu.pc + off
  setX_setX _ _ _ _ := by simp [Machine.setX]
  setX_x _ _ := by simp [Machine.setX]
  pcPlus_setX _ _ _ _ := rfl

/-! ## Immediates -/

theorem sext_setWidth {n : Nat} (h0 : 0 < n) (h : n < 64) (x : BitVec n) :
    sext (x.setWidth 64) n = x.signExtend 64 := by
  rw [sext, if_neg (by omega)]
  exact SignExtend.and_xor_sub_eq_signExtend h0 h x

theorem sext32_eq (x : BitVec 32) : sext32 x = x.signExtend 64 :=
  sext_setWidth (by decide) (by decide) x

section

variable (imm : BitVec 12) (rs2 rs1 : BitVec 5) (f3 : BitVec 3) (rd : BitVec 5) (op : BitVec 7)

theorem immI_encI : immI (encI imm rs1 f3 rd op) = imm.signExtend 64 := by
  rw [immI, bits, encI_imm imm rs1 f3 rd op 0 12, BitVec.extractLsb'_eq_self,
    sext_setWidth (by decide) (by decide)]

theorem immS_encS : immS (encS imm rs2 rs1 f3 op) = imm.signExtend 64 := by
  rw [immS, bits, bits, encS_placed, sext_setWidth (by decide) (by decide)]

/-- The decoder gets a branch offset back with its bit 0. -/
theorem immB_encB : immB (encB imm rs2 rs1 f3 op) = (imm ++ 0#1).signExtend 64 := by
  simp only [immB, bits, encB_placed]
  exact sext_setWidth (by decide) (by decide) _

theorem immU_encU (imm : BitVec 20) : immU (encU imm rd op) = (imm ++ 0#12).signExtend 64 := by
  rw [immU, bits, ← sext_setWidth (by decide) (by decide), ← shiftLeft_or_setWidth imm 0#12]
  simp

theorem immJ_encJ (imm : BitVec 20) : immJ (encJ imm rd op) = (imm ++ 0#1).signExtend 64 := by
  simp only [immJ, bits, encJ_placed]
  exact sext_setWidth (by decide) (by decide) _

end

/-! ## The equations -/

section

variable (fp : FpBackend) (n : BitVec 64) (d s t : BitVec 5)

theorem exec_lui (imm : BitVec 20) : riscvExecInstAt (D := D) fp n (lui d imm) =
      thenFall n (setX d ((imm ++ 0#12).signExtend 64)) := by
  simp only [riscvExecInstAt, lui, opcode, rd, encU_fields, immU_encU]
  rfl

theorem exec_addi (imm : BitVec 12) : riscvExecInstAt (D := D) fp n (addi d s imm) =
      thenFall n (opX d s fun a => a + imm.signExtend 64) := by
  simp only [riscvExecInstAt, addi, opcode, encI_fields, unaryOp, aluImm, rd, rs1, f3, immI_encI]
  rfl

theorem exec_andi (imm : BitVec 12) : riscvExecInstAt (D := D) fp n (andi d s imm) =
      thenFall n (opX d s fun a => a &&& imm.signExtend 64) := by
  simp only [riscvExecInstAt, andi, opcode, encI_fields, unaryOp, aluImm, rd, rs1, f3, immI_encI]
  rfl

theorem exec_addiw (imm : BitVec 12) : riscvExecInstAt (D := D) fp n (addiw d s imm) =
      thenFall n (opX d s fun a => sext32 (a.setWidth 32 + (imm.signExtend 64).setWidth 32)) := by
  simp only [riscvExecInstAt, addiw, opcode, encI_fields, unaryOp, aluImm32, rd, rs1, f3, immI_encI]
  rfl

section

variable (hi sh : BitVec 6) (f3 : BitVec 3) (op : BitVec 7)

include hi

theorem shamt_encI :
    bits (encI (hi ++ sh) s f3 d op) 20 5 ||| bits (encI (hi ++ sh) s f3 d op) 25 1 <<< 5 =
      sh.setWidth 64 := by
  rw [bits, bits, encI_imm _ _ _ _ _ 0 5, encI_imm _ _ _ _ _ 5 1]
  grind

theorem f7_encI :
    f7 (encI (hi ++ sh) s f3 d op) &&& 0x7e = hi ++ 0#1 := by
  rw [f7, encI_imm _ _ _ _ _ 5 7]
  have hmask : ∀ k (h : k < 7), (0x7e : BitVec 7)[k] = decide (k ≠ 0) := by decide
  grind

theorem bit30_encI :
    bits (encI (hi ++ sh) s f3 d op) 30 1 = (hi.extractLsb' 4 1).setWidth 64 := by
  rw [bits, encI_imm _ _ _ _ _ 10 1]
  grind

end

theorem exec_slli (sh : BitVec 6) : riscvExecInstAt (D := D) fp n (slli d s sh) =
      thenFall n (opX d s fun a => a <<< (sh.setWidth 64).toNat) := by
  simp only [riscvExecInstAt, slli, opcode, encI_fields, unaryOp, aluImm, rd, rs1, f3, shamt_encI,
    f7_encI]
  rfl

theorem exec_srli (sh : BitVec 6) : riscvExecInstAt (D := D) fp n (srli d s sh) =
      thenFall n (opX d s fun a => a >>> (sh.setWidth 64).toNat) := by
  simp only [riscvExecInstAt, srli, opcode, encI_fields, unaryOp, aluImm, rd, rs1, f3, shamt_encI,
    f7_encI, bit30_encI]
  rfl

theorem exec_srai (sh : BitVec 6) : riscvExecInstAt (D := D) fp n (srai d s sh) =
      thenFall n (opX d s fun a => a.sshiftRight (sh.setWidth 64).toNat) := by
  simp only [riscvExecInstAt, srai, opcode, encI_fields, unaryOp, aluImm, rd, rs1, f3, shamt_encI,
    f7_encI, bit30_encI]
  rfl

variable {g : BitVec 64 → BitVec 64 → BitVec 64}

/-- An OP instruction is the ALU function of its two registers. -/
theorem exec_op (f7v : BitVec 7) (f3v : BitVec 3) (hg : ∀ a b, aluOp f3v f7v a b = some (g a b)) :
    riscvExecInstAt (D := D) fp n (encR f7v t s f3v d 0x33) = thenFall n (opXX d s t g) := by
  simp only [riscvExecInstAt, opcode, encR_fields, binaryOp, rd, rs1, rs2, f3, f7, hg]
  rfl

theorem exec_op32 (f7v : BitVec 7) (f3v : BitVec 3)
    (hg : ∀ a b, aluOp32 f3v f7v a b = some (g a b)) :
    riscvExecInstAt (D := D) fp n (encR f7v t s f3v d 0x3b) = thenFall n (opXX d s t g) := by
  simp only [riscvExecInstAt, opcode, encR_fields, binaryOp, rd, rs1, rs2, f3, f7, hg]
  rfl

theorem exec_add :
    riscvExecInstAt (D := D) fp n (add d s t) = thenFall n (opXX d s t fun a b => a + b) :=
  exec_op fp n d s t _ _ fun _ _ => rfl

theorem exec_sub :
    riscvExecInstAt (D := D) fp n (sub d s t) = thenFall n (opXX d s t fun a b => a - b) :=
  exec_op fp n d s t _ _ fun _ _ => rfl

theorem exec_xor :
    riscvExecInstAt (D := D) fp n (Riscv.xor d s t) = thenFall n (opXX d s t fun a b => a ^^^ b) :=
  exec_op fp n d s t _ _ fun _ _ => rfl

theorem exec_or :
    riscvExecInstAt (D := D) fp n (Riscv.or d s t) = thenFall n (opXX d s t fun a b => a ||| b) :=
  exec_op fp n d s t _ _ fun _ _ => rfl

theorem exec_and :
    riscvExecInstAt (D := D) fp n (Riscv.and d s t) = thenFall n (opXX d s t fun a b => a &&& b) :=
  exec_op fp n d s t _ _ fun _ _ => rfl

theorem exec_addw : riscvExecInstAt (D := D) fp n (addw d s t) =
      thenFall n (opXX d s t fun a b => sext32 ((a + b).setWidth 32)) := by
  refine exec_op32 fp n d s t _ _ fun a b => ?_
  rw [setWidth_add a b (by decide)]
  rfl

theorem exec_subw : riscvExecInstAt (D := D) fp n (subw d s t) =
      thenFall n (opXX d s t fun a b => sext32 ((a - b).setWidth 32)) := by
  refine exec_op32 fp n d s t _ _ fun a b => ?_
  have hlow : (a - b).setWidth 32 = a.setWidth 32 - b.setWidth 32 := by
    rw [BitVec.eq_sub_iff_add_eq, ← setWidth_add _ _ (by decide), BitVec.sub_add_cancel]
  rw [hlow]
  rfl

theorem exec_jal (off : BitVec 20) : riscvExecInstAt (D := D) fp n (jal d off) = (do
      let pc ← getPc
      setX d (pc + n)
      pure (pc + (off ++ 0#1).signExtend 64)) := by
  simp only [riscvExecInstAt, jal, opcode, encJ_fields, jalOp, rd, immJ_encJ]
  rfl

theorem exec_jalr (imm : BitVec 12) : riscvExecInstAt (D := D) fp n (jalr d s imm) = (do
      let pc ← getPc
      let base ← getX s
      setX d (pc + n)
      let rs ← getRs
      let target := (base + imm.signExtend 64) &&& ~~~1
      pure (if rs.misa &&& kMisaC ≠ 0 then target else target &&& ~~~2)) := by
  simp only [riscvExecInstAt, jalr, opcode, encI_fields, jalrOp, rd, rs1, immI_encI]
  rfl

theorem exec_beq (off : BitVec 12) : riscvExecInstAt (D := D) fp n (beq s t off) =
      branchOn n s t true ((off ++ 0#1).signExtend 64) := by
  simp only [riscvExecInstAt, beq, opcode, branchOp, rs1, rs2, f3, immB_encB, branchTaken]
  funext m
  change _ = Outcome.ok _ m
  by_cases h : m.cpu.gpr s = m.cpu.gpr t <;> simp [getX, h, RegFile.x, RegFile.pcPlus] <;> rfl

theorem exec_bne (off : BitVec 12) : riscvExecInstAt (D := D) fp n (Riscv.bne s t off) =
      branchOn n s t false ((off ++ 0#1).signExtend 64) := by
  simp only [riscvExecInstAt, Riscv.bne, opcode, branchOp, rs1, rs2, f3, immB_encB,
    branchTaken]
  funext m
  change _ = Outcome.ok _ m
  by_cases h : m.cpu.gpr s = m.cpu.gpr t <;> simp [getX, h, RegFile.x, RegFile.pcPlus] <;> rfl

section

variable (imm : BitVec 12)

theorem exec_lw : riscvExecInstAt (D := D) fp n (lw d s imm) =
      thenFall n (cLoad d s (imm.signExtend 64) 4 true) := by
  simp only [riscvExecInstAt, lw, opcode, encI_fields, loadOp, rd, rs1, f3, immI_encI]
  rfl

theorem exec_ld : riscvExecInstAt (D := D) fp n (ld d s imm) =
      thenFall n (cLoad d s (imm.signExtend 64) 8 false) := by
  simp only [riscvExecInstAt, ld, opcode, encI_fields, loadOp, rd, rs1, f3, immI_encI]
  rfl

theorem exec_sw :
    riscvExecInstAt (D := D) fp n (sw t s imm) = thenFall n (cStore t s (imm.signExtend 64) 4) := by
  simp only [riscvExecInstAt, sw, opcode, encS_fields, storeOp, rs1, rs2, f3, immS_encS]
  rfl

theorem exec_sd :
    riscvExecInstAt (D := D) fp n (sd t s imm) = thenFall n (cStore t s (imm.signExtend 64) 8) := by
  simp only [riscvExecInstAt, sd, opcode, encS_fields, storeOp, rs1, rs2, f3, immS_encS]
  rfl

theorem exec_fld : riscvExecInstAt (D := D) fp n (fld d s imm) = thenFall n (do
      fpEnter ((fld d s imm).setWidth 64)
      cLoadF d s (imm.signExtend 64)) := by
  simp only [riscvExecInstAt, fld, opcode, encI_fields, byWidth, fpLdst, rd, rs1, f3, immI_encI]
  rfl

theorem exec_fsd : riscvExecInstAt (D := D) fp n (fsd t s imm) = thenFall n (do
      fpEnter ((fsd t s imm).setWidth 64)
      cStoreF t s (imm.signExtend 64)) := by
  simp only [riscvExecInstAt, fsd, opcode, encS_fields, byWidth, fpLdst, rs1, rs2, f3, immS_encS]
  rfl

end

end

end Cemu.Rv64
