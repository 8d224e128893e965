import Cemu.X86.MemMap

/-!
# Device-initiated byte transfers

The loop in which a DMA engine moves a buffer through the memory bus one byte at a time: the
body of `I8237Transfer` and of `MemMove`. The two differ in how the address goes on from byte to
byte, which is `addr` here; both work on 32-bit words.
-/

namespace Cemu.Dma

open Cemu.X86

variable {D : Type}

/-- The first `n` bytes of the transfer, in order. `none` is a `Fatal` of the bus. -/
def moveBytes (toMem : Bool) (addr : Nat → BitVec 32) (buf : Nat → BitVec 8) (w : World D) :
    Nat → Option ((Nat → BitVec 8) × World D)
  | 0 => some (buf, w)
  | n + 1 => do
    let (buf, w) ← moveBytes toMem addr buf w n
    if toMem then
      let w ← w.busWrite ((addr n).setWidth 64) 1 ((buf n).setWidth 64)
      pure (buf, w)
    else
      let (v, w) ← w.busRead ((addr n).setWidth 64) 1
      pure (Function.update buf n (v.setWidth 8), w)

theorem moveBytes_sameBoard {toMem : Bool} {addr : Nat → BitVec 32} {buf buf' : Nat → BitVec 8}
    {w w' : World D} {n : Nat} (h : moveBytes toMem addr buf w n = some (buf', w')) :
    World.SameBoard w w' := by
  induction n generalizing buf' w' with
  | zero =>
    cases h
    exact .refl w
  | succ n ih =>
    obtain ⟨⟨buf1, w1⟩, hpre, hlast⟩ := Option.bind_eq_some_iff.mp h
    have hsame := ih hpre
    cases toMem
    · obtain ⟨⟨v, w2⟩, hread, hend⟩ := Option.bind_eq_some_iff.mp hlast
      cases hend
      exact hsame.trans (World.busRead_eq_some (by decide) hread).1.toSameBoard
    · obtain ⟨w2, hwrite, hend⟩ := Option.bind_eq_some_iff.mp hlast
      cases hend
      exact hsame.trans (World.busWrite_eq_some (by decide) hwrite).1

theorem moveBytes_isSome {w : World D} (h : OpenBus w.bus) (toMem : Bool) (addr : Nat → BitVec 32)
    (buf : Nat → BitVec 8) (n : Nat) : ∃ r, moveBytes toMem addr buf w n = some r := by
  induction n with
  | zero => exact ⟨_, rfl⟩
  | succ n ih =>
    obtain ⟨⟨buf1, w1⟩, hpre⟩ := ih
    have hopen := h.sameBoard (moveBytes_sameBoard hpre)
    cases toMem
    · obtain ⟨v, w2, hread⟩ := hopen.busRead (addr n)
      simp [moveBytes, hpre, hread]
    · obtain ⟨w2, hwrite⟩ := hopen.busWrite (addr n) ((buf1 n).setWidth 64)
      simp [moveBytes, hpre, hwrite]

end Cemu.Dma
