import Cemu.Riscv.Format

/-!
# The C extension, as the manual expands it

Every 16-bit encoding that stands for a 32-bit instruction, with that instruction. The
immediates are given by the manual's bit tables, highest bit first. Encodings whose destination
is x0 and encodings with a zero operand that the manual calls hints expand like their
neighbours; reserved encodings do not expand.
-/

namespace Cemu.Riscv

open BitVec

/-! ## The instructions expanded to -/

section

variable (rd rs1 : BitVec 5)

def addi (imm : BitVec 12) : BitVec 32 := encI imm rs1 0 rd 0x13
def slli (shamt : BitVec 6) : BitVec 32 := encI (0#6 ++ shamt) rs1 1 rd 0x13
def srli (shamt : BitVec 6) : BitVec 32 := encI (0#6 ++ shamt) rs1 5 rd 0x13
def srai (shamt : BitVec 6) : BitVec 32 := encI (0x10#6 ++ shamt) rs1 5 rd 0x13
def andi (imm : BitVec 12) : BitVec 32 := encI imm rs1 7 rd 0x13
def addiw (imm : BitVec 12) : BitVec 32 := encI imm rs1 0 rd 0x1b

end

section

variable (rd rs1 rs2 : BitVec 5)

def add : BitVec 32 := encR 0 rs2 rs1 0 rd 0x33
def sub : BitVec 32 := encR 0x20 rs2 rs1 0 rd 0x33
def xor : BitVec 32 := encR 0 rs2 rs1 4 rd 0x33
def or : BitVec 32 := encR 0 rs2 rs1 6 rd 0x33
def and : BitVec 32 := encR 0 rs2 rs1 7 rd 0x33
def addw : BitVec 32 := encR 0 rs2 rs1 0 rd 0x3b
def subw : BitVec 32 := encR 0x20 rs2 rs1 0 rd 0x3b

end

def lui (rd : BitVec 5) (imm : BitVec 20) : BitVec 32 := encU imm rd 0x37
def jal (rd : BitVec 5) (off : BitVec 20) : BitVec 32 := encJ off rd 0x6f
def jalr (rd rs1 : BitVec 5) (imm : BitVec 12) : BitVec 32 := encI imm rs1 0 rd 0x67
def beq (rs1 rs2 : BitVec 5) (off : BitVec 12) : BitVec 32 := encB off rs2 rs1 0 0x63
def bne (rs1 rs2 : BitVec 5) (off : BitVec 12) : BitVec 32 := encB off rs2 rs1 1 0x63
def ebreak : BitVec 32 := encI 1 0 0 0 0x73
def lw (rd rs1 : BitVec 5) (imm : BitVec 12) : BitVec 32 := encI imm rs1 2 rd 0x03
def ld (rd rs1 : BitVec 5) (imm : BitVec 12) : BitVec 32 := encI imm rs1 3 rd 0x03
def sw (rs2 rs1 : BitVec 5) (imm : BitVec 12) : BitVec 32 := encS imm rs2 rs1 2 0x23
def sd (rs2 rs1 : BitVec 5) (imm : BitVec 12) : BitVec 32 := encS imm rs2 rs1 3 0x23
def flw (rd rs1 : BitVec 5) (imm : BitVec 12) : BitVec 32 := encI imm rs1 2 rd 0x07
def fld (rd rs1 : BitVec 5) (imm : BitVec 12) : BitVec 32 := encI imm rs1 3 rd 0x07
def fsw (rs2 rs1 : BitVec 5) (imm : BitVec 12) : BitVec 32 := encS imm rs2 rs1 2 0x27
def fsd (rs2 rs1 : BitVec 5) (imm : BitVec 12) : BitVec 32 := encS imm rs2 rs1 3 0x27

/-! ## The fields of a compressed instruction -/

section

variable (i : BitVec 16)

abbrev fld16 (lo n : Nat) : BitVec n := i.extractLsb' lo n

def regP (lo : Nat) : BitVec 5 := 1#2 ++ fld16 i lo 3

def regFull (lo : Nat) : BitVec 5 := fld16 i lo 5

def uimm4spn : BitVec 12 :=
  0#2 ++ fld16 i 7 4 ++ fld16 i 11 2 ++ fld16 i 5 1 ++ fld16 i 6 1 ++ 0#2

def uimmD : BitVec 12 := 0#4 ++ fld16 i 5 2 ++ fld16 i 10 3 ++ 0#3

def uimmW : BitVec 12 := 0#5 ++ fld16 i 5 1 ++ fld16 i 10 3 ++ fld16 i 6 1 ++ 0#2

def imm6 : BitVec 6 := fld16 i 12 1 ++ fld16 i 2 5

def imm16sp : BitVec 10 :=
  fld16 i 12 1 ++ fld16 i 3 2 ++ fld16 i 5 1 ++ fld16 i 2 1 ++ fld16 i 6 1 ++ 0#4

def immJump : BitVec 11 :=
  fld16 i 12 1 ++ fld16 i 8 1 ++ fld16 i 9 2 ++ fld16 i 6 1 ++ fld16 i 7 1 ++ fld16 i 2 1 ++
    fld16 i 11 1 ++ fld16 i 3 3

def immBranch : BitVec 8 :=
  fld16 i 12 1 ++ fld16 i 5 2 ++ fld16 i 2 1 ++ fld16 i 10 2 ++ fld16 i 3 2

def uimmLwsp : BitVec 12 := 0#4 ++ fld16 i 2 2 ++ fld16 i 12 1 ++ fld16 i 4 3 ++ 0#2

def uimmLdsp : BitVec 12 := 0#3 ++ fld16 i 2 3 ++ fld16 i 12 1 ++ fld16 i 5 2 ++ 0#3

def uimmSwsp : BitVec 12 := 0#4 ++ fld16 i 7 2 ++ fld16 i 9 4 ++ 0#2

def uimmSdsp : BitVec 12 := 0#3 ++ fld16 i 7 3 ++ fld16 i 10 3 ++ 0#3

/-! The unsigned offsets stay below the sign bit of an I or S immediate. -/

theorem uimm_msb : ∀ u ∈ [uimm4spn i, uimmD i, uimmW i, uimmLdsp i, uimmLwsp i, uimmSdsp i,
    uimmSwsp i], u.msb = false := by
  simp only [uimm4spn, uimmD, uimmW, uimmLdsp, uimmLwsp, uimmSdsp, uimmSwsp,
    msb_eq_getLsbD_last, getLsbD_append, List.forall_mem_cons]
  simp

/-! A decoder puts the pieces together from the bits of the encoding, at any width. -/

section

variable {W : Nat}

theorem uimm_placed :
    (fld16 i 11 2).setWidth W <<< 4 ||| (fld16 i 7 4).setWidth W <<< 6 |||
      (fld16 i 6 1).setWidth W <<< 2 ||| (fld16 i 5 1).setWidth W <<< 3 =
        (uimm4spn i).signExtend W ∧
    (fld16 i 10 3).setWidth W <<< 3 ||| (fld16 i 5 2).setWidth W <<< 6 = (uimmD i).signExtend W ∧
    (fld16 i 10 3).setWidth W <<< 3 ||| (fld16 i 6 1).setWidth W <<< 2 |||
      (fld16 i 5 1).setWidth W <<< 6 = (uimmW i).signExtend W ∧
    (fld16 i 12 1).setWidth W <<< 5 ||| (fld16 i 5 2).setWidth W <<< 3 |||
      (fld16 i 2 3).setWidth W <<< 6 = (uimmLdsp i).signExtend W ∧
    (fld16 i 12 1).setWidth W <<< 5 ||| (fld16 i 4 3).setWidth W <<< 2 |||
      (fld16 i 2 2).setWidth W <<< 6 = (uimmLwsp i).signExtend W ∧
    (fld16 i 10 3).setWidth W <<< 3 ||| (fld16 i 7 3).setWidth W <<< 6 = (uimmSdsp i).signExtend W ∧
    (fld16 i 9 4).setWidth W <<< 2 ||| (fld16 i 7 2).setWidth W <<< 6 =
      (uimmSwsp i).signExtend W := by
  refine ⟨?_, ?_, ?_, ?_, ?_, ?_, ?_⟩ <;>
  · rw [signExtend_eq_setWidth_of_msb_false (uimm_msb i _ (by simp))]
    ext k hk
    simp only [uimm4spn, uimmD, uimmW, uimmLdsp, uimmLwsp, uimmSdsp, uimmSwsp, getElem_or,
      getElem_shiftLeft, getElem_setWidth, getLsbD_append,
      getLsbD_extractLsb']
    grind

theorem imm_placed :
    (fld16 i 12 1).setWidth W <<< 9 ||| (fld16 i 6 1).setWidth W <<< 4 |||
      (fld16 i 5 1).setWidth W <<< 6 ||| (fld16 i 3 2).setWidth W <<< 7 |||
      (fld16 i 2 1).setWidth W <<< 5 = (imm16sp i).setWidth W ∧
    (fld16 i 12 1).setWidth W <<< 17 ||| (fld16 i 2 5).setWidth W <<< 12 =
      (imm6 i ++ 0#12).setWidth W ∧
    (fld16 i 12 1).setWidth W <<< 11 ||| (fld16 i 11 1).setWidth W <<< 4 |||
      (fld16 i 9 2).setWidth W <<< 8 ||| (fld16 i 8 1).setWidth W <<< 10 |||
      (fld16 i 7 1).setWidth W <<< 6 ||| (fld16 i 6 1).setWidth W <<< 7 |||
      (fld16 i 3 3).setWidth W <<< 1 ||| (fld16 i 2 1).setWidth W <<< 5 =
        (immJump i ++ 0#1).setWidth W ∧
    (fld16 i 12 1).setWidth W <<< 8 ||| (fld16 i 10 2).setWidth W <<< 3 |||
      (fld16 i 5 2).setWidth W <<< 6 ||| (fld16 i 3 2).setWidth W <<< 1 |||
      (fld16 i 2 1).setWidth W <<< 5 = (immBranch i ++ 0#1).setWidth W := by
  refine ⟨?_, ?_, ?_, ?_⟩ <;>
  · ext k hk
    simp only [imm16sp, imm6, immJump, immBranch, getElem_or,
      getElem_shiftLeft, getElem_setWidth, getLsbD_append,
      getLsbD_extractLsb']
    grind

end

end

/-! ## The expansion -/

/-- The two base instruction sets, which give some of the encodings to different instructions. -/
inductive Base where
  | rv32
  | rv64
  deriving DecidableEq, Repr

section

variable (base : Base) (i : BitVec 16)

def expand0 : Option (BitVec 32) :=
  match fld16 i 13 3, base with
  | 0, _ => if uimm4spn i = 0 then none else some (addi (regP i 2) 2 (uimm4spn i))
  | 1, _ => some (fld (regP i 2) (regP i 7) (uimmD i))
  | 2, _ => some (lw (regP i 2) (regP i 7) (uimmW i))
  | 3, .rv32 => some (flw (regP i 2) (regP i 7) (uimmW i))
  | 3, .rv64 => some (ld (regP i 2) (regP i 7) (uimmD i))
  | 5, _ => some (fsd (regP i 2) (regP i 7) (uimmD i))
  | 6, _ => some (sw (regP i 2) (regP i 7) (uimmW i))
  | 7, .rv32 => some (fsw (regP i 2) (regP i 7) (uimmW i))
  | 7, .rv64 => some (sd (regP i 2) (regP i 7) (uimmD i))
  | _, _ => none

def shamtOk : Bool :=
  decide (base = .rv64 ∨ fld16 i 12 1 = 0)

def expandArith : Option (BitVec 32) :=
  let d := regP i 7
  let s := regP i 2
  match fld16 i 12 1, fld16 i 5 2, base with
  | 0, 0, _ => some (sub d d s)
  | 0, 1, _ => some (xor d d s)
  | 0, 2, _ => some (or d d s)
  | 0, 3, _ => some (and d d s)
  | 1, 0, .rv64 => some (subw d d s)
  | 1, 1, .rv64 => some (addw d d s)
  | _, _, _ => none

def expandAlu : Option (BitVec 32) :=
  let d := regP i 7
  match fld16 i 10 2 with
  | 0 => if shamtOk base i then some (srli d d (imm6 i)) else none
  | 1 => if shamtOk base i then some (srai d d (imm6 i)) else none
  | 2 => some (andi d d ((imm6 i).signExtend 12))
  | _ => expandArith base i

def expand1 : Option (BitVec 32) :=
  let d := regFull i 7
  match fld16 i 13 3, base with
  | 0, _ => some (addi d d ((imm6 i).signExtend 12))
  | 1, .rv32 => some (jal 1 ((immJump i).signExtend 20))
  | 1, .rv64 => if d = 0 then none else some (addiw d d ((imm6 i).signExtend 12))
  | 2, _ => some (addi d 0 ((imm6 i).signExtend 12))
  | 3, _ =>
    if d = 2 then
      if imm16sp i = 0 then none else some (addi 2 2 ((imm16sp i).signExtend 12))
    else if imm6 i = 0 then none
    else some (lui d ((imm6 i).signExtend 20))
  | 4, _ => expandAlu base i
  | 5, _ => some (jal 0 ((immJump i).signExtend 20))
  | 6, _ => some (beq (regP i 7) 0 ((immBranch i).signExtend 12))
  | _, _ => some (bne (regP i 7) 0 ((immBranch i).signExtend 12))

end

def expandJump (i : BitVec 16) : Option (BitVec 32) :=
  let d := regFull i 7
  let s := regFull i 2
  if fld16 i 12 1 = 0 then
    if s = 0 then if d = 0 then none else some (jalr 0 d 0)
    else some (add d 0 s)
  else if s = 0 then if d = 0 then some ebreak else some (jalr 1 d 0)
  else some (add d d s)

def expand2 (base : Base) (i : BitVec 16) : Option (BitVec 32) :=
  let d := regFull i 7
  let s := regFull i 2
  match fld16 i 13 3, base with
  | 0, _ => if shamtOk base i then some (slli d d (imm6 i)) else none
  | 1, _ => some (fld d 2 (uimmLdsp i))
  | 2, _ => if d = 0 then none else some (lw d 2 (uimmLwsp i))
  | 3, .rv32 => some (flw d 2 (uimmLwsp i))
  | 3, .rv64 => if d = 0 then none else some (ld d 2 (uimmLdsp i))
  | 4, _ => expandJump i
  | 5, _ => some (fsd s 2 (uimmSdsp i))
  | 6, _ => some (sw s 2 (uimmSwsp i))
  | _, .rv32 => some (fsw s 2 (uimmSwsp i))
  | _, .rv64 => some (sd s 2 (uimmSdsp i))

def expand (base : Base) (i : BitVec 16) : Option (BitVec 32) :=
  match fld16 i 0 2 with
  | 0 => expand0 base i
  | 1 => expand1 base i
  | 2 => expand2 base i
  | _ => none

end Cemu.Riscv
