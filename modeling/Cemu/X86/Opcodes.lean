import Cemu.X86.Arith
import Cemu.X86.BitString
import Cemu.X86.Counted
import Cemu.X86.OpFrame
import Cemu.X86.Shift
import Cemu.X86.Stores

/-!
# x86: from an opcode to its operation

The results on the instructions are about operations whose operands are decoded. A row of `run_op`
or `run_op2` decodes the operands, which moves nothing but the decoder, and then runs the operation.
-/

namespace Cemu.X86

open RaiseM

variable {D : Type} {m m' : Machine D}

inductive Opcode where
  | alu (op : AluOp) (form : AluForm) (wide : Bool)
  | string (op : StrOp) (wide : Bool)
  | grp1 (wide : Bool) (form : Grp1Imm)
  | grp2 (wide : Bool) (count : ShiftCount)
  | grp3 (wide : Bool)
  | pusha
  | enter
  | leave
  | loop (op : LoopOp)
  | jcxz
  | bitString (op : BtOp)
  | doubleShift (op : DoubleOp) (count : ShiftCount)
  | cmpxchg (wide : Bool)
  | grp8
  | cmpxchg8b
  deriving DecidableEq, Repr

namespace Opcode

/-- The rows of `run_op` that are neither arithmetic nor strings. -/
def opTable : List (BitVec 8 × Opcode) :=
  [(0x60, pusha), (0x80, grp1 false .byte), (0x81, grp1 true .full), (0x82, grp1 false .byte),
    (0x83, grp1 true .sext), (0xc0, grp2 false .imm), (0xc1, grp2 true .imm), (0xc8, enter),
    (0xc9, leave), (0xd0, grp2 false .one), (0xd1, grp2 true .one), (0xd2, grp2 false .cl),
    (0xd3, grp2 true .cl), (0xe0, loop .loopne), (0xe1, loop .loope), (0xe2, loop .loop),
    (0xe3, jcxz), (0xf6, grp3 false), (0xf7, grp3 true)]

def ofOp (b : BitVec 8) : Option Opcode :=
  match aluOf b, strOpOf b with
  | some (op, form, wide), _ => some (alu op form wide)
  | none, some (op, wide) => some (string op wide)
  | none, none => opTable.lookup b

/-- The rows of `run_op2`, behind 0F. -/
def opTable2 : List (BitVec 8 × Opcode) :=
  [(0xa3, bitString .bt), (0xa4, doubleShift .shld .imm), (0xa5, doubleShift .shld .cl),
    (0xab, bitString .bts), (0xac, doubleShift .shrd .imm), (0xad, doubleShift .shrd .cl),
    (0xb0, cmpxchg false), (0xb1, cmpxchg true), (0xb3, bitString .btr), (0xba, grp8),
    (0xbb, bitString .btc), (0xc7, cmpxchg8b)]

/-- What a row does in front of its operation, which it returns. -/
def decode : Opcode → X86M D (X86M D Unit)
  | alu op form wide => do
    if form ≠ .accImm then modrm
    let d ← getD
    pure (aluOp op form (formSize wide d))
  | string op wide => pure (stringOp op wide)
  | grp1 wide form => do
    modrm
    let d ← getD
    pure (grp1Op (formSize wide d) form)
  | grp2 wide count => do
    modrm
    let cnt ← shiftCount count
    let d ← getD
    pure (X86.grp2 (formSize wide d) cnt)
  | grp3 wide => do
    modrm
    let d ← getD
    pure (grp3Op (formSize wide d))
  | pusha => pure X86.pusha
  | enter => do
    let alloc ← fetch16
    let level ← fetch8
    pure (X86.enter alloc (level &&& 31).toNat)
  | leave => pure X86.leave
  | loop op => pure (loopOp op)
  | jcxz => do
    X86.jcxz
    pure (pure ())
  | bitString op => do
    modrm
    pure (btRegRm op)
  | doubleShift op count => do
    modrm
    let cnt ← shiftCount count
    pure (X86.doubleShift op cnt)
  | cmpxchg wide => do
    modrm
    let d ← getD
    pure (cmpxchgOp (formSize wide d))
  | grp8 => do
    modrm
    let d ← getD
    if d.reg < 4 then ud
    else
      let imm ← fetch8
      pure (grp8Op (BtOp.ofReg d.reg) imm)
  | cmpxchg8b => do
    let d ← getD
    -- with the operand-size prefix this is CMPXCHG16B, which 32-bit mode does not have
    if !d.w32 then ud
    else
      modrm
      pure cmpxchg8bOp

def run (o : Opcode) : X86M D Unit := do
  let operation ← o.decode
  operation

end Opcode

namespace OpFraming

open Framing Opcode

variable {R : Machine D → Machine D → Prop} [DecFraming R]

theorem shiftCount {count : ShiftCount} :
    Quiet R (X86.shiftCount count : X86M D (BitVec 8)) := by
  cases count with
  | imm => exact fetch8
  | one => exact pure _
  | cl => exact bind getS fun _ => pure _

theorem ud {α : Type} : Quiet R (X86.ud : X86M D α) := fun m => Framing.ofMem (.refl m)

theorem jcxz : Quiet R (X86.jcxz : X86M D Unit) :=
  bind fetch8 fun _ => bind getD fun _ => bind getS fun _ => ite modD (pure _)

theorem decode (o : Opcode) : Quiet R (o.decode : X86M D (X86M D Unit)) := by
  cases o with
  | alu =>
    exact ite (bind modrm fun _ => bind getD fun _ => pure _) (bind getD fun _ => pure _)
  | string | pusha | leave | loop => exact pure _
  | grp1 | grp3 | cmpxchg => exact bind modrm fun _ => bind getD fun _ => pure _
  | grp2 => exact bind modrm fun _ => bind shiftCount fun _ => bind getD fun _ => pure _
  | enter => exact bind fetch16 fun _ => bind fetch8 fun _ => pure _
  | jcxz => exact bind jcxz fun _ => pure _
  | bitString => exact bind modrm fun _ => pure _
  | doubleShift => exact bind modrm fun _ => bind shiftCount fun _ => pure _
  | grp8 => exact bind modrm fun _ => bind getD fun _ => ite ud (bind fetch8 fun _ => pure _)
  | cmpxchg8b => exact bind getD fun _ => ite ud (bind modrm fun _ => pure _)

end OpFraming

namespace Opcode

/-- The row takes `m` to `m'`: its operation starts where the decoder alone has moved. -/
def Operates (o : Opcode) (m m' : Machine D) : Prop :=
  ∃ operation t, o.decode m = .ok operation t ∧ Decodes m t ∧ operation t = .ok () m'

theorem run_operates {o : Opcode} (h : o.run m = .ok () m') : o.Operates m m' := by
  obtain ⟨operation, t, hdecode, hrun⟩ := bind_eq_ok h
  exact ⟨operation, t, hdecode, (OpFraming.decode o).of_ok hdecode, hrun⟩

end Opcode

/-- The two tables, with the rows that are not modelled as parameters. -/
def runOp (other other2 : BitVec 8 → X86M D Unit) (b : BitVec 8) : X86M D Unit :=
  if b = 0x0f then do
    let b2 ← fetch8
    (Opcode.opTable2.lookup b2).elim (other2 b2) Opcode.run
  else (Opcode.ofOp b).elim (other b) Opcode.run

/-- A completed step reads prefixes up to an opcode; a modelled row then operates in their
context. -/
theorem doStep_operates {other other2 : BitVec 8 → X86M D Unit} {dflt : Bool} {fuel : Nat}
    (hd : m.d = { Dec.start dflt with watchHit := m.d.watchHit })
    (h : doStep (runOp other other2) dflt fuel m = .ok () m') :
    ∃ ps b t, prefixOf b = none ∧ t.s.r = m.s.r ∧
      t.d = { Dec.prefixed dflt ps with watchHit := t.d.watchHit } ∧
      (b ≠ 0x0f → ∀ o, Opcode.ofOp b = some o → o.Operates t m') ∧
      (b = 0x0f → ∃ b2 t2, Decodes t t2 ∧
        ∀ o, Opcode.opTable2.lookup b2 = some o → o.Operates t2 m') := by
  obtain ⟨ps, b, t, hb, hr, htd, hrun⟩ := doStep_prefixed [] hd h
  refine ⟨ps, b, t, hb, hr, htd, fun hne o ho => ?_, fun heq => ?_⟩
  · rw [runOp, if_neg hne, ho] at hrun
    exact Opcode.run_operates hrun
  · rw [runOp, if_pos heq] at hrun
    obtain ⟨b2, t2, hfetch, hrun⟩ := bind_eq_ok hrun
    refine ⟨b2, t2, OpFraming.fetch8.of_ok hfetch, fun o ho => ?_⟩
    rw [ho] at hrun
    exact Opcode.run_operates hrun

end Cemu.X86
