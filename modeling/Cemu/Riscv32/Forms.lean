import Cemu.Lib.SignExtend
import Cemu.Riscv.SameEffect
import Cemu.Riscv32.ExecC

/-!
# riscv32: the 32-bit instructions that compressed ones stand for

One equation for each: what `riscv32_exec_inst` does on the encoding of its operands, at either
length.
-/

namespace Cemu.Rv32

open Cemu.Riscv BitVec
open Rv64 (FpBackend opcode rd rs1 rs2 f3 f7 raiseTrap kMisaC kExBreakpoint)

variable {D : Type}

instance : RegFile (Machine D) 32 where
  x m := m.x
  setX := Machine.setX
  pcPlus m off := (m.cpu.pc.setWidth 32 + off).setWidth 64
  setX_setX _ _ _ _ := by simp [Machine.setX]
  setX_x _ _ := by simp [Machine.setX]
  pcPlus_setX _ _ _ _ := rfl

/-! ## Immediates -/

theorem sext32_setWidth {n : Nat} (h0 : 0 < n) (h : n < 32) (x : BitVec n) :
    sext32 (x.setWidth 32) n = x.signExtend 32 :=
  SignExtend.xor_sub_eq_signExtend h0 h x

section

variable (imm : BitVec 12) (rs2 rs1 : BitVec 5) (f3 : BitVec 3) (rd : BitVec 5) (op : BitVec 7)

theorem immI_encI : immI (encI imm rs1 f3 rd op) = imm.signExtend 32 := by
  rw [immI, bits, encI_imm imm rs1 f3 rd op 0 12, BitVec.extractLsb'_eq_self,
    sext32_setWidth (by decide) (by decide)]

theorem immS_encS : immS (encS imm rs2 rs1 f3 op) = imm.signExtend 32 := by
  rw [immS, bits, bits, encS_placed, sext32_setWidth (by decide) (by decide)]

theorem immB_encB : immB (encB imm rs2 rs1 f3 op) = (imm ++ 0#1).signExtend 32 := by
  simp only [immB, bits, encB_placed]
  exact sext32_setWidth (by decide) (by decide) _

theorem immU_encU (imm : BitVec 20) : immU (encU imm rd op) = imm ++ 0#12 := by
  have hmask : ∀ k (h : k < 32), (0xfffff000 : BitVec 32)[k] = decide (12 ≤ k) := by decide
  simp only [immU, encU]
  grind

theorem immJ_encJ (imm : BitVec 20) : immJ (encJ imm rd op) = (imm ++ 0#1).signExtend 32 := by
  simp only [immJ, bits, encJ_placed]
  exact sext32_setWidth (by decide) (by decide) _

end

/-! ## The equations -/

section

variable (fp : FpBackend) (n : BitVec 32) (d s t : BitVec 5)

theorem exec_lui (imm : BitVec 20) :
    riscv32ExecInstAt (D := D) fp n (lui d imm) = thenFall n (setX d (imm ++ 0#12)) := by
  simp only [riscv32ExecInstAt, lui, opcode, rd, encU_fields, immU_encU]
  rfl

theorem exec_addi (imm : BitVec 12) : riscv32ExecInstAt (D := D) fp n (addi d s imm) =
      thenFall n (opX d s fun a => a + imm.signExtend 32) := by
  simp only [riscv32ExecInstAt, addi, opcode, encI_fields, unaryOp, aluImm, rd, rs1, f3, immI_encI]
  rfl

theorem exec_andi (imm : BitVec 12) : riscv32ExecInstAt (D := D) fp n (andi d s imm) =
      thenFall n (opX d s fun a => a &&& imm.signExtend 32) := by
  simp only [riscv32ExecInstAt, andi, opcode, encI_fields, unaryOp, aluImm, rd, rs1, f3, immI_encI]
  rfl

theorem shamt_encI (hi : BitVec 6) (sh : BitVec 5) (f3 : BitVec 3) (op : BitVec 7) :
    rs2 (encI (hi ++ (0#1 ++ sh)) s f3 d op) = sh := by
  rw [rs2, encI_imm _ _ _ _ _ 0 5]
  grind

theorem f7_encI (hi : BitVec 6) (sh : BitVec 5) (f3 : BitVec 3) (op : BitVec 7) :
    f7 (encI (hi ++ (0#1 ++ sh)) s f3 d op) = hi ++ 0#1 := by
  rw [f7, encI_imm _ _ _ _ _ 5 7]
  grind

theorem exec_slli (sh : BitVec 5) : riscv32ExecInstAt (D := D) fp n (slli d s (0#1 ++ sh)) =
      thenFall n (opX d s fun a => a <<< sh.toNat) := by
  simp only [riscv32ExecInstAt, slli, opcode, encI_fields, unaryOp, aluImm, rd, rs1, f3, shamt_encI,
    f7_encI]
  rfl

theorem exec_srli (sh : BitVec 5) : riscv32ExecInstAt (D := D) fp n (srli d s (0#1 ++ sh)) =
      thenFall n (opX d s fun a => a >>> sh.toNat) := by
  simp only [riscv32ExecInstAt, srli, opcode, encI_fields, unaryOp, aluImm, rd, rs1, f3, shamt_encI,
    f7_encI]
  rfl

theorem exec_srai (sh : BitVec 5) : riscv32ExecInstAt (D := D) fp n (srai d s (0#1 ++ sh)) =
      thenFall n (opX d s fun a => a.sshiftRight sh.toNat) := by
  simp only [riscv32ExecInstAt, srai, opcode, encI_fields, unaryOp, aluImm, rd, rs1, f3, shamt_encI,
    f7_encI]
  rfl

/-- An OP instruction is the ALU function of its two registers. -/
theorem exec_op (f7v : BitVec 7) (f3v : BitVec 3) {g : BitVec 32 → BitVec 32 → BitVec 32}
    (hg : ∀ a b, aluOp f3v f7v a b = some (g a b)) :
    riscv32ExecInstAt (D := D) fp n (encR f7v t s f3v d 0x33) = thenFall n (opXX d s t g) := by
  simp only [riscv32ExecInstAt, opcode, encR_fields, binaryOp, rd, rs1, rs2, f3, f7, hg]
  rfl

theorem exec_add :
    riscv32ExecInstAt (D := D) fp n (add d s t) = thenFall n (opXX d s t fun a b => a + b) :=
  exec_op fp n d s t _ _ fun _ _ => rfl

theorem exec_sub :
    riscv32ExecInstAt (D := D) fp n (sub d s t) = thenFall n (opXX d s t fun a b => a - b) :=
  exec_op fp n d s t _ _ fun _ _ => rfl

theorem exec_xor : riscv32ExecInstAt (D := D) fp n (Riscv.xor d s t) =
      thenFall n (opXX d s t fun a b => a ^^^ b) :=
  exec_op fp n d s t _ _ fun _ _ => rfl

theorem exec_or :
    riscv32ExecInstAt (D := D) fp n (Riscv.or d s t) = thenFall n (opXX d s t fun a b => a ||| b) :=
  exec_op fp n d s t _ _ fun _ _ => rfl

theorem exec_and : riscv32ExecInstAt (D := D) fp n (Riscv.and d s t) =
      thenFall n (opXX d s t fun a b => a &&& b) :=
  exec_op fp n d s t _ _ fun _ _ => rfl

theorem exec_jal (off : BitVec 20) : riscv32ExecInstAt (D := D) fp n (jal d off) = (do
      let pc ← getPc
      setX d (pc + n)
      pure ((pc + (off ++ 0#1).signExtend 32).setWidth 64)) := by
  simp only [riscv32ExecInstAt, jal, opcode, encJ_fields, jalOp, rd, immJ_encJ]
  rfl

theorem exec_jalr (imm : BitVec 12) : riscv32ExecInstAt (D := D) fp n (jalr d s imm) = (do
      let pc ← getPc
      let base ← getX s
      setX d (pc + n)
      let rs ← getRs
      let target := (base + imm.signExtend 32) &&& ~~~1
      pure ((if rs.misa &&& kMisaC ≠ 0 then target else target &&& ~~~2).setWidth 64)) := by
  simp only [riscv32ExecInstAt, jalr, opcode, encI_fields, jalrOp, rd, rs1, immI_encI]
  rfl

theorem exec_beq (off : BitVec 12) : riscv32ExecInstAt (D := D) fp n (beq s t off) =
      branchOn n s t true ((off ++ 0#1).signExtend 32) := by
  simp only [riscv32ExecInstAt, beq, opcode, branchOp, rs1, rs2, f3, immB_encB,
    branchTaken]
  funext m
  change _ = Outcome.ok _ m
  by_cases h : m.x s = m.x t <;> simp [getX, h, RegFile.x, RegFile.pcPlus] <;> rfl

theorem exec_bne (off : BitVec 12) : riscv32ExecInstAt (D := D) fp n (Riscv.bne s t off) =
      branchOn n s t false ((off ++ 0#1).signExtend 32) := by
  simp only [riscv32ExecInstAt, Riscv.bne, opcode, branchOp, rs1, rs2, f3, immB_encB,
    branchTaken]
  funext m
  change _ = Outcome.ok _ m
  by_cases h : m.x s = m.x t <;> simp [getX, h, RegFile.x, RegFile.pcPlus] <;> rfl

theorem exec_lw (imm : BitVec 12) :
    riscv32ExecInstAt (D := D) fp n (lw d s imm) = thenFall n (cLoad d s (imm.signExtend 32)) := by
  simp only [riscv32ExecInstAt, lw, opcode, encI_fields, loadOp, rd, rs1, f3, immI_encI]
  rfl

theorem exec_sw (imm : BitVec 12) :
    riscv32ExecInstAt (D := D) fp n (sw t s imm) = thenFall n (cStore t s (imm.signExtend 32)) := by
  simp only [riscv32ExecInstAt, sw, opcode, encS_fields, storeOp, rs1, rs2, f3, immS_encS]
  rfl

/-- A floating-point access checks `mstatus.FS` first. -/
def fpForm (w : BitVec 32) (body : RvM D Unit) : RvM D Unit := do
  fpEnter (w.setWidth 64)
  body

section

variable (imm : BitVec 12)

theorem exec_flw : riscv32ExecInstAt (D := D) fp n (flw d s imm) =
      thenFall n (fpForm (flw d s imm) (cLoadF d s (imm.signExtend 32) false)) := by
  simp only [riscv32ExecInstAt, flw, opcode, encI_fields, byWidth, fpLdst, rd, rs1, f3, immI_encI]
  rfl

theorem exec_fld : riscv32ExecInstAt (D := D) fp n (fld d s imm) =
      thenFall n (fpForm (fld d s imm) (cLoadF d s (imm.signExtend 32) true)) := by
  simp only [riscv32ExecInstAt, fld, opcode, encI_fields, byWidth, fpLdst, rd, rs1, f3, immI_encI]
  rfl

theorem exec_fsw : riscv32ExecInstAt (D := D) fp n (fsw t s imm) =
      thenFall n (fpForm (fsw t s imm) (cStoreF t s (imm.signExtend 32) false)) := by
  simp only [riscv32ExecInstAt, fsw, opcode, encS_fields, byWidth, fpLdst, rs1, rs2, f3, immS_encS]
  rfl

theorem exec_fsd : riscv32ExecInstAt (D := D) fp n (fsd t s imm) =
      thenFall n (fpForm (fsd t s imm) (cStoreF t s (imm.signExtend 32) true)) := by
  simp only [riscv32ExecInstAt, fsd, opcode, encS_fields, byWidth, fpLdst, rs1, rs2, f3, immS_encS]
  rfl

end

end

end Cemu.Rv32
