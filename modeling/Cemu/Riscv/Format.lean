import Cemu.Lib.Numerals

/-!
# RISC-V instruction formats

The R, I, S, B, U and J formats as concatenations of their fields, and what a decoder's bit
fields read out of them. A branch or jump immediate is given without its bit 0, which no format
holds.
-/

namespace Cemu.Riscv

open BitVec

def encR (f7 : BitVec 7) (rs2 rs1 : BitVec 5) (f3 : BitVec 3) (rd : BitVec 5) (op : BitVec 7) :
    BitVec 32 :=
  f7 ++ rs2 ++ rs1 ++ f3 ++ rd ++ op

def encI (imm : BitVec 12) (rs1 : BitVec 5) (f3 : BitVec 3) (rd : BitVec 5) (op : BitVec 7) :
    BitVec 32 :=
  imm ++ rs1 ++ f3 ++ rd ++ op

/-- A store immediate is split around the register fields. -/
def encS (imm : BitVec 12) (rs2 rs1 : BitVec 5) (f3 : BitVec 3) (op : BitVec 7) : BitVec 32 :=
  imm.extractLsb' 5 7 ++ rs2 ++ rs1 ++ f3 ++ imm.extractLsb' 0 5 ++ op

/-- `imm` is the offset over two. -/
def encB (imm : BitVec 12) (rs2 rs1 : BitVec 5) (f3 : BitVec 3) (op : BitVec 7) : BitVec 32 :=
  imm.extractLsb' 11 1 ++ imm.extractLsb' 4 6 ++ rs2 ++ rs1 ++ f3 ++ imm.extractLsb' 0 4 ++
    imm.extractLsb' 10 1 ++ op

def encU (imm : BitVec 20) (rd : BitVec 5) (op : BitVec 7) : BitVec 32 := imm ++ rd ++ op

def encJ (imm : BitVec 20) (rd : BitVec 5) (op : BitVec 7) : BitVec 32 :=
  imm.extractLsb' 19 1 ++ imm.extractLsb' 0 10 ++ imm.extractLsb' 10 1 ++ imm.extractLsb' 11 8 ++
    rd ++ op

/-! ## Fields -/

section

variable (f7 : BitVec 7) (rs2 rs1 : BitVec 5) (f3 : BitVec 3) (rd : BitVec 5) (op : BitVec 7)

@[simp] theorem encR_fields : (encR f7 rs2 rs1 f3 rd op).extractLsb' 0 7 = op ∧
    (encR f7 rs2 rs1 f3 rd op).extractLsb' 7 5 = rd ∧
    (encR f7 rs2 rs1 f3 rd op).extractLsb' 12 3 = f3 ∧
    (encR f7 rs2 rs1 f3 rd op).extractLsb' 15 5 = rs1 ∧
    (encR f7 rs2 rs1 f3 rd op).extractLsb' 20 5 = rs2 ∧
    (encR f7 rs2 rs1 f3 rd op).extractLsb' 25 7 = f7 := by
  refine ⟨?_, ?_, ?_, ?_, ?_, ?_⟩ <;>
  · ext k hk
    simp only [encR, getElem_extractLsb', getLsbD_append]
    grind

end

section

variable (imm : BitVec 12) (rs2 rs1 : BitVec 5) (f3 : BitVec 3) (rd : BitVec 5) (op : BitVec 7)

@[simp] theorem encI_fields : (encI imm rs1 f3 rd op).extractLsb' 0 7 = op ∧
    (encI imm rs1 f3 rd op).extractLsb' 7 5 = rd ∧
    (encI imm rs1 f3 rd op).extractLsb' 12 3 = f3 ∧
    (encI imm rs1 f3 rd op).extractLsb' 15 5 = rs1 := by
  refine ⟨?_, ?_, ?_, ?_⟩ <;>
  · ext k hk
    simp only [encI, getElem_extractLsb']
    grind

theorem encI_imm (lo n : Nat) :
    (encI imm rs1 f3 rd op).extractLsb' (20 + lo) n = imm.extractLsb' lo n := by
  simp only [encI]
  grind

@[simp] theorem encS_fields : (encS imm rs2 rs1 f3 op).extractLsb' 0 7 = op ∧
    (encS imm rs2 rs1 f3 op).extractLsb' 12 3 = f3 ∧
    (encS imm rs2 rs1 f3 op).extractLsb' 15 5 = rs1 ∧
    (encS imm rs2 rs1 f3 op).extractLsb' 20 5 = rs2 := by
  refine ⟨?_, ?_, ?_, ?_⟩ <;>
  · ext k hk
    simp only [encS, getElem_extractLsb', getLsbD_append]
    grind

theorem encS_imm :
    (encS imm rs2 rs1 f3 op).extractLsb' 25 7 ++ (encS imm rs2 rs1 f3 op).extractLsb' 7 5 =
      imm := by
  ext k hk
  simp only [encS, getElem_append, getElem_extractLsb', getLsbD_append]
  grind

@[simp] theorem encB_fields : (encB imm rs2 rs1 f3 op).extractLsb' 0 7 = op ∧
    (encB imm rs2 rs1 f3 op).extractLsb' 12 3 = f3 ∧
    (encB imm rs2 rs1 f3 op).extractLsb' 15 5 = rs1 ∧
    (encB imm rs2 rs1 f3 op).extractLsb' 20 5 = rs2 := by
  refine ⟨?_, ?_, ?_, ?_⟩ <;>
  · ext k hk
    simp only [encB, getElem_extractLsb', getLsbD_append]
    grind

/-- The four fields of a branch offset, put back in order. -/
theorem encB_imm :
    (encB imm rs2 rs1 f3 op).extractLsb' 31 1 ++ (encB imm rs2 rs1 f3 op).extractLsb' 7 1 ++
      (encB imm rs2 rs1 f3 op).extractLsb' 25 6 ++ (encB imm rs2 rs1 f3 op).extractLsb' 8 4 =
        imm := by
  ext k hk
  simp only [encB, getElem_append, getElem_extractLsb', getLsbD_append]
  grind

end

section

variable (imm : BitVec 20) (rd : BitVec 5) (op : BitVec 7)

@[simp] theorem encU_fields : (encU imm rd op).extractLsb' 0 7 = op ∧
    (encU imm rd op).extractLsb' 7 5 = rd ∧
    (encU imm rd op).extractLsb' 12 20 = imm := by
  · simp only [encU]
    grind

@[simp] theorem encJ_fields : (encJ imm rd op).extractLsb' 0 7 = op ∧
    (encJ imm rd op).extractLsb' 7 5 = rd := by
  refine ⟨?_, ?_⟩ <;>
  · ext k hk
    simp only [encJ]
    grind

theorem encJ_imm : (encJ imm rd op).extractLsb' 31 1 ++ (encJ imm rd op).extractLsb' 12 8 ++
      (encJ imm rd op).extractLsb' 20 1 ++ (encJ imm rd op).extractLsb' 21 10 = imm := by
  ext k hk
  simp only [encJ, getElem_append, getElem_extractLsb', getLsbD_append]
  grind

end

/-! ## Immediates put together

A decoder shifts the pieces of an immediate into place; the width it does so at does not matter.
-/

section

variable {W : Nat}

theorem shiftLeft_or_setWidth {a b : Nat} (x : BitVec a) (y : BitVec b) :
    x.setWidth W <<< b ||| y.setWidth W = (x ++ y).setWidth W := by
  grind

section

variable (imm : BitVec 12) (rs2 rs1 : BitVec 5) (f3 : BitVec 3) (op : BitVec 7)

theorem encS_placed :
    ((encS imm rs2 rs1 f3 op).extractLsb' 25 7).setWidth W <<< 5 |||
      ((encS imm rs2 rs1 f3 op).extractLsb' 7 5).setWidth W = imm.setWidth W := by
  rw [shiftLeft_or_setWidth, encS_imm]

theorem encB_placed :
    ((encB imm rs2 rs1 f3 op).extractLsb' 31 1).setWidth W <<< 12 |||
      ((encB imm rs2 rs1 f3 op).extractLsb' 7 1).setWidth W <<< 11 |||
      ((encB imm rs2 rs1 f3 op).extractLsb' 25 6).setWidth W <<< 5 |||
      ((encB imm rs2 rs1 f3 op).extractLsb' 8 4).setWidth W <<< 1 = (imm ++ 0#1).setWidth W := by
  conv_rhs => rw [← encB_imm imm rs2 rs1 f3 op]
  ext k hk
  simp only [getElem_setWidth]
  grind

end

theorem encJ_placed (imm : BitVec 20) (rd : BitVec 5) (op : BitVec 7) :
    ((encJ imm rd op).extractLsb' 31 1).setWidth W <<< 20 |||
      ((encJ imm rd op).extractLsb' 12 8).setWidth W <<< 12 |||
      ((encJ imm rd op).extractLsb' 20 1).setWidth W <<< 11 |||
      ((encJ imm rd op).extractLsb' 21 10).setWidth W <<< 1 = (imm ++ 0#1).setWidth W := by
  conv_rhs => rw [← encJ_imm imm rd op]
  grind

end

end Cemu.Riscv
