import Cemu.Lib.Sim
import Cemu.Riscv.Compressed
import Cemu.Riscv64.Access

/-!
# Two encodings of one instruction

What the compressed instructions of both machines are compared with: `Same i w m c c'` says that
from the machine `m` the computation `c` of the 16-bit encoding `i` and the computation `c'` of the
32-bit instruction `w` end in the same way. The rules are over any machine with a register file, so
that they serve both register widths.
-/

namespace Cemu.Riscv

open Rv64 (TrapRec kExIllegal)

/-- The integer registers of a machine, `n` bits wide, and its pc. -/
class RegFile (σ : Type) (n : outParam Nat) where
  x : σ → BitVec 5 → BitVec n
  setX : σ → BitVec 5 → BitVec n → σ
  /-- The address at an offset from the pc. -/
  pcPlus : σ → BitVec n → BitVec 64
  setX_setX : ∀ m r v v', setX (setX m r v) r v' = setX m r v'
  setX_x : ∀ m r, setX m r (x m r) = m
  pcPlus_setX : ∀ m r v off, pcPlus (setX m r v) off = pcPlus m off

section

variable {σ α : Type} {n : Nat} [RegFile σ n]

/-! ## The forms -/

/-- `x[d] := g x[s]` -/
def opX (d s : BitVec 5) (g : BitVec n → BitVec n) : RaiseM TrapRec σ Unit :=
  RaiseM.modify fun m => RegFile.setX m d (g (RegFile.x m s))

/-- `x[d] := g x[s] x[t]` -/
def opXX (d s t : BitVec 5) (g : BitVec n → BitVec n → BitVec n) : RaiseM TrapRec σ Unit :=
  RaiseM.modify fun m => RegFile.setX m d (g (RegFile.x m s) (RegFile.x m t))

/-- The next pc of a branch of length `len` that is taken when `x[s]` and `x[t]` are equal, or when
they are not. -/
def branchOn (len : BitVec n) (s t : BitVec 5) (onEqual : Bool) (off : BitVec n) :
    RaiseM TrapRec σ (BitVec 64) := fun m =>
  .ok (RegFile.pcPlus m
    (if decide (RegFile.x m s = RegFile.x m t) = onEqual then off else len)) m

/-! ## What is compared -/

/-- The same machine once cell 0 of the register file is cleared, as every step begins. -/
def SameButX0 (m m' : σ) : Prop := RegFile.setX m 0 0 = RegFile.setX m' 0 0

/-- The same exception. An illegal-instruction trap value is the encoding each side was given. -/
def SameTrap (i : BitVec 16) (w : BitVec 32) (t t' : TrapRec) : Prop :=
  t = t' ∨ (t = ⟨kExIllegal, i.setWidth 64, none⟩ ∧ t' = ⟨kExIllegal, w.setWidth 64, none⟩)

def Same (i : BitVec 16) (w : BitVec 32) (m : σ) (c c' : RaiseM TrapRec σ α) : Prop :=
  Outcome.Sim (SameTrap i w) SameButX0 Eq (c m) (c' m)

variable {i : BitVec 16} {w : BitVec 32} {m m' : σ}

theorem SameButX0.pcPlus (h : SameButX0 m m') (off : BitVec n) :
    RegFile.pcPlus m off = RegFile.pcPlus m' off := by
  rw [← RegFile.pcPlus_setX m 0 0, h, RegFile.pcPlus_setX]

theorem SameButX0.setX_zero (v : BitVec n) : SameButX0 m (RegFile.setX m 0 v) :=
  (RegFile.setX_setX m 0 v 0).symm

namespace Same

theorem refl (c : RaiseM TrapRec σ α) : Same i w m c c := by
  unfold Same
  cases c m with
  | ok a s => exact .ok rfl rfl
  | raise t s => exact .raise (.inl rfl) rfl
  | fatal => exact .fatal

theorem of_apply {c c' : RaiseM TrapRec σ α} (h : c' m = c m) : Same i w m c c' := by
  rw [Same, h]
  exact refl c

/-! ## Writes to x0 and writes that keep the value -/

theorem nop_opX (s : BitVec 5) (g : BitVec n → BitVec n) : Same i w m (pure ()) (opX 0 s g) :=
  .ok rfl (.setX_zero _)

theorem nop_opXX (s t : BitVec 5) (g : BitVec n → BitVec n → BitVec n) :
    Same i w m (pure ()) (opXX 0 s t g) :=
  .ok rfl (.setX_zero _)

theorem nop_keep {d : BitVec 5} {g : BitVec n → BitVec n} (hg : ∀ a, g a = a) :
    Same i w m (pure ()) (opX d d g) := by
  have hkeep : RegFile.setX m d (g (RegFile.x m d)) = m := by rw [hg, RegFile.setX_x]
  exact .ok rfl (congrArg (RegFile.setX · 0 0) hkeep.symm)

theorem shift {d : BitVec 5} {g : BitVec n → Nat → BitVec n} (hg : ∀ a, g a 0 = a) {z : Prop}
    [Decidable z] {k : Nat} (hz : z ↔ k = 0) :
    Same i w m (if z then pure () else opX d d fun v => g v k) (opX d d fun v => g v k) := by
  split
  · next h =>
    rw [hz.mp h]
    exact nop_keep hg
  · exact refl _

/-! ## Forms that read x0 -/

theorem li (hx0 : RegFile.x m 0 = 0) (d : BitVec 5) (v : BitVec n) :
    Same i w m (RaiseM.modify fun m => RegFile.setX m d v) (opX d 0 fun a => a + v) := by
  refine of_apply (congrArg (fun v => Outcome.ok () (RegFile.setX m d v)) ?_)
  rw [hx0]
  exact BitVec.zero_add v

theorem mv (hx0 : RegFile.x m 0 = 0) (d s : BitVec 5) :
    Same i w m (opX d s id) (opXX d 0 s fun a b => a + b) := by
  refine of_apply (congrArg (fun v => Outcome.ok () (RegFile.setX m d v)) ?_)
  rw [hx0]
  exact BitVec.zero_add _

theorem branch (hx0 : RegFile.x m 0 = 0) {c : RaiseM TrapRec σ (BitVec 64)} {len off : BitVec n}
    {s : BitVec 5} {onZero : Bool}
    (hc : c m =
      .ok (RegFile.pcPlus m (if decide (RegFile.x m s = 0) = onZero then off else len)) m) :
    Same i w m c (branchOn len s 0 onZero off) := by
  refine of_apply ?_
  rw [hc, branchOn, hx0]

end Same

end

end Cemu.Riscv
