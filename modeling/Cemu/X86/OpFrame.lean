import Cemu.X86.Alu
import Cemu.X86.Stack

/-!
# x86: what the operands of an instruction leave alone

An instruction moves the decoder over its own bytes, reads its operands and writes general
registers. A relation between machines that allows these three is kept by every fetch, every
operand and every access to the stack.
-/

namespace Cemu.X86

open RaiseM

variable {D : Type}

/-- A relation that also allows every move of the decoder. -/
class DecFraming (R : Machine D → Machine D → Prop) : Prop extends Framing R where
  decoder (m : Machine D) (eip : BitVec 32) (d : Dec) : R m { m with eip := eip, d := d }

/-- And every write of a general register. -/
class OpFraming (R : Machine D → Machine D → Prop) : Prop extends DecFraming R where
  regs (m : Machine D) (r : Reg → BitVec 32) : R m (m.setS { m.s with r := r })

/-- Nothing but the decoder and the caches moved. -/
def Decodes (m t : Machine D) : Prop := MemFrame m { t with eip := m.eip, d := m.d }

theorem MemFrame.withDec {m t : Machine D} (h : MemFrame m t) (eip : BitVec 32) (d : Dec) :
    MemFrame { m with eip := eip, d := d } { t with eip := eip, d := d } :=
  ⟨h.s, rfl, rfl, h.recPc, h.io, h.ports, h.gMemSlow, h.portReads, h.board⟩

instance : DecFraming (D := D) Decodes where
  trans {m _ _} h h' := MemFrame.trans h (MemFrame.withDec h' m.eip m.d)
  ofMem {m _} h := h.withDec m.eip m.d
  decoder m _ _ := MemFrame.refl m

namespace X86State

variable (s : X86State)

theorem setByteReg_regs (i : Reg) (v : BitVec 8) :
    s.setByteReg i v = { s with r := (s.setByteReg i v).r } := by
  unfold setByteReg
  split <;> rfl

theorem setAcc_regs (size : Nat) (v : BitVec 32) :
    s.setAcc size v = { s with r := (s.setAcc size v).r } := by
  unfold setAcc
  split
  · rfl
  · split <;> rfl

end X86State

open X86State

namespace OpFraming

open Framing

variable {R : Machine D → Machine D → Prop} {size : Nat} {v : BitVec 32}

/-! ### The instruction stream -/

section

variable [DecFraming R]

theorem modD {f : Dec → Dec} : Quiet R (modD f : X86M D Unit) :=
  fun m => DecFraming.decoder m m.eip (f m.d)

theorem getS : Quiet R (getS : X86M D X86State) := quiet .getS

theorem getD : Quiet R (getD : X86M D Dec) := quiet .getD

theorem fetch8 : Quiet R (fetch8 : X86M D (BitVec 8)) :=
  bind (quiet MemFrame.get) fun _ => ite (quiet .raiseVec)
    (bind (quiet MemFrame.fetchByte) fun _ => bind modD fun _ => pure _)

theorem fetch16 : Quiet R (fetch16 : X86M D (BitVec 16)) :=
  bind fetch8 fun _ => bind fetch8 fun _ => pure _

theorem fetch32 : Quiet R (fetch32 : X86M D (BitVec 32)) :=
  bind fetch16 fun _ => bind fetch16 fun _ => pure _

theorem fetchDisp16 : Quiet R (fetchDisp16 : X86M D (BitVec 32)) := bind fetch16 fun _ => pure _

theorem modDisp {mod : BitVec 2} {wide : X86M D (BitVec 32)} (h : Quiet R wide) :
    Quiet R (modDisp mod wide) := ite (bind fetch8 fun _ => pure _) (ite h (pure _))

theorem modrm16 {mod : BitVec 2} {rm : Reg} :
    Quiet R (modrm16 mod rm : X86M D (BitVec 32 × Bool)) :=
  bind getS fun _ => ite (bind fetchDisp16 fun _ => pure _)
    (bind (modDisp fetchDisp16) fun _ => bind (pure _) fun _ => pure _)

theorem modrmSib {mod : BitVec 2} :
    Quiet R (modrmSib mod : X86M D (BitVec 32 × Bool × Bool)) := by
  refine bind fetch8 fun _ => ite (bind fetch32 fun _ => ?_) (bind getS fun _ => ?_)
  · exact bind getS fun _ => bind (modDisp fetch32) fun _ => pure _
  · exact bind (pure _) fun _ => bind getS fun _ => bind (modDisp fetch32) fun _ => pure _

theorem modrm32 {mod : BitVec 2} {rm : Reg} :
    Quiet R (modrm32 mod rm : X86M D (BitVec 32 × Bool)) :=
  ite (bind fetch32 fun _ => pure _)
    (bind getS fun _ => bind (modDisp fetch32) fun _ => pure _)

theorem modrm : Quiet R (modrm : X86M D Unit) := by
  refine bind fetch8 fun _ => bind modD fun _ => ite modD (bind getD fun d => ?_)
  refine ite (bind modrm16 fun _ => ?_) (ite (bind modrmSib fun _ => ?_) (bind modrm32 fun _ => ?_))
  · exact bind (pure _) fun _ => bind getS fun _ => modD
  · exact bind getS fun _ => modD
  · exact bind (pure _) fun _ => bind getS fun _ => modD

end

/-! ### Registers -/

variable [OpFraming R]

theorem modRegs {f : X86State → X86State} (h : ∀ s, f s = { s with r := (f s).r }) :
    Quiet R (modS f : X86M D Unit) := by
  intro m
  show R m (m.setS (f m.s))
  rw [h]
  exact regs m _

theorem setE {i : Reg} {e : X86State → BitVec 32} :
    Quiet R (modS fun s => s.setE i (e s) : X86M D Unit) := modRegs fun _ => rfl

/-! ### Operands -/

theorem rmSized : Quiet R (rmSized size : X86M D (BitVec 32)) := quiet MemFrame.rmSized

theorem setRmSized : Quiet R (setRmSized size v : X86M D Unit) := by
  have hstore {n : Nat} {lin u : BitVec 64} :
      Quiet R (memOperand n true >>= fun _ => busStore lin n u : X86M D Unit) :=
    quiet (MemFrame.bind MemFrame.memOperand fun _ => MemFrame.busStore)
  refine ite ?_ (ite ?_ ?_)
  · exact bind getD fun d => ite hstore (modRegs fun s => setByteReg_regs s _ _)
  · exact bind getD fun d => ite hstore setE
  · exact bind getD fun d => ite hstore setE

theorem regSized : Quiet R (regSized size : X86M D (BitVec 32)) :=
  bind getD fun _ => bind getS fun _ => pure _

theorem grp1Operands {form : Grp1Imm} :
    Quiet R (grp1Operands size form : X86M D (BitVec 32 × BitVec 32)) := by
  have hsrc : Quiet R (grp1Src form : X86M D (BitVec 32)) := by
    cases form with
    | full => exact bind getD fun _ => ite fetch32 fetchDisp16
    | sext => exact bind fetch8 fun _ => pure _
    | byte => exact bind fetch8 fun _ => pure _
  exact bind hsrc fun _ => bind rmSized fun _ => pure _

/-! ### The stack -/

theorem setSized {wide : Bool} {i : Reg} {e : X86State → BitVec 32} :
    Quiet R (X86.modS fun s => s.setSized wide i (e s) : X86M D Unit) :=
  modRegs fun s => setSized_regs s wide i (e s)

theorem stackPush : Quiet R (stackPush size v : X86M D Unit) :=
  bind getS fun _ => bind (quiet MemFrame.segUse) fun _ => bind (quiet MemFrame.watchData) fun _ =>
    bind (quiet MemFrame.wrStack) fun _ => setE

theorem stackPop : Quiet R (stackPop size : X86M D (BitVec 32)) :=
  bind getS fun _ => bind (quiet MemFrame.segUse) fun _ => bind (quiet MemFrame.watchData) fun _ =>
    bind (quiet MemFrame.rdStack) fun _ => bind setE fun _ => pure _

theorem pushW : Quiet R (pushW v : X86M D Unit) := bind getD fun _ => stackPush

theorem popW : Quiet R (popW : X86M D (BitVec 32)) := bind getD fun _ => stackPop

theorem setEip : Quiet R (setEip v : X86M D Unit) :=
  fun m => DecFraming.decoder m v { m.d with eipSet := true }

theorem releaseParams {n : BitVec 16} : Quiet R (releaseParams n : X86M D Unit) :=
  bind getD fun _ => setSized

end OpFraming

end Cemu.X86
