import Cemu.Lib.Loop
import Cemu.Video.Vga

/-!
# Video memory

The aperture at `A0000`, the linear framebuffer and the register window of the second BAR. Every
index into `vram` is checked here: an access outside the array has no result, where the source
reads or writes another object.
-/

namespace Cemu.Video

section

variable (d : VgaDevice)

def VgaDevice.load (k : Nat) : Option (BitVec 8) :=
  if k < kVgaVramSize then some (d.vram k) else none

def VgaDevice.store (k : Nat) (v : BitVec 8) : Option VgaDevice :=
  if k < kVgaVramSize then some { d with vram := Function.update d.vram k v } else none

def VgaDevice.cell (off : Nat) : BitVec 32 :=
  (d.vram (off * 4)).setWidth 32 ||| (d.vram (off * 4 + 1)).setWidth 32 <<< 8 |||
    (d.vram (off * 4 + 2)).setWidth 32 <<< 16 ||| (d.vram (off * 4 + 3)).setWidth 32 <<< 24

def VgaDevice.loadCell (off : Nat) : Option (BitVec 32) :=
  if off < kVgaVramSize / 4 then some (d.cell off) else none

def VgaDevice.storeCell (off : Nat) (v : BitVec 32) : Option VgaDevice :=
  if off < kVgaVramSize / 4 then
    some { d with
      vram := fun k => if k / 4 = off then (v >>> (8 * (k % 4))).setWidth 8 else d.vram k }
  else none

/-! ## The aperture -/

def vgaMemoryChain4 : Bool :=
  if dispiEnabled d then decide (d.dispi kDispiBpp ≠ 4) else (d.sr kSeqMemoryMode).getLsbD 3

def bankStart : Nat := if vgaMemoryChain4 d then d.bankOffset else d.bankOffset / 4

def mapMode : Nat := (d.gr kGfxMisc).toNat / 4 % 4

def vgaApertureOffset (addr : BitVec 32) : Option Nat :=
  let addr := addr.toNat % 0x20000
  match mapMode d with
  | 1 =>
    if 0x10000 ≤ addr then none
    else if kVgaVramSize ≤ addr + bankStart d then none
    else some (addr + bankStart d)
  | 2 => if 0x10000 ≤ addr ∧ addr < 0x18000 then some (addr - 0x10000) else none
  | 3 => if 0x18000 ≤ addr then some (addr - 0x18000) else none
  | _ => some addr

def vgaOddEvenOffset (off : Nat) : Nat :=
  off / 2 * 4 + (d.gr kGfxReadMapSelect).toNat / 2 % 2 * 2 + off % 2

def vgaMemoryPlaneMask : BitVec 8 := if dispiEnabled d then 0x0f else d.sr kSeqPlaneWriteMask

def oddEven : Bool := (d.gr kGfxMode).getLsbD 4

def kPlaneExpand (v : BitVec 8) : BitVec 32 :=
  let plane : Nat → BitVec 32 := fun k => if v.getLsbD k then 0xff#32 <<< (8 * k) else 0
  plane 0 ||| plane 1 ||| plane 2 ||| plane 3

def allPlanes (v : BitVec 8) : BitVec 32 :=
  let w := v.setWidth 32
  w ||| w <<< 8 ||| w <<< 16 ||| w <<< 24

def rotated (val : BitVec 8) : BitVec 8 := val.rotateRight ((d.gr kGfxDataRotate).toNat % 8)

def logicOp (data : BitVec 32) : BitVec 32 :=
  match (d.gr kGfxDataRotate).toNat / 8 % 4 with
  | 1 => data &&& d.latch
  | 2 => data ||| d.latch
  | 3 => data ^^^ d.latch
  | _ => data

def masked (data : BitVec 32) (bitMask : BitVec 8) : BitVec 32 :=
  let mask := allPlanes bitMask
  (logicOp d data &&& mask) ||| (d.latch &&& ~~~mask)

def writeData (val : BitVec 8) : BitVec 32 :=
  match (d.gr kGfxMode).toNat % 4 with
  | 1 => d.latch
  | 2 => masked d (kPlaneExpand val) (d.gr kGfxBitMask)
  | 3 => masked d (kPlaneExpand (d.gr kGfxSetReset)) (d.gr kGfxBitMask &&& rotated d val)
  | _ =>
    let setMask := kPlaneExpand (d.gr kGfxEnableSetReset)
    masked d ((allPlanes (rotated d val) &&& ~~~setMask) |||
      (kPlaneExpand (d.gr kGfxSetReset) &&& setMask)) (d.gr kGfxBitMask)

def storeMasked (mask : BitVec 8) (k : Nat) (val : BitVec 8) : Option VgaDevice :=
  if mask.getLsbD (k % 4) then d.store k val else some d

def planarWrite (off : Nat) (val : BitVec 8) : Option VgaDevice :=
  let mask := kPlaneExpand (d.sr kSeqPlaneWriteMask)
  (d.loadCell off).bind fun cell =>
    d.storeCell off ((cell &&& ~~~mask) ||| (writeData d val &&& mask))

def vgaMemWrite8 (addr : BitVec 32) (val : BitVec 8) : Option VgaDevice :=
  match vgaApertureOffset d addr with
  | none => some d
  | some off =>
    if vgaMemoryChain4 d then storeMasked d (vgaMemoryPlaneMask d) off val
    else if oddEven d then storeMasked d (d.sr kSeqPlaneWriteMask) (vgaOddEvenOffset d off) val
    else planarWrite d off val

def planarRead (latch : BitVec 32) : BitVec 8 :=
  let plane := (latch >>> (8 * ((d.gr kGfxReadMapSelect).toNat % 4))).setWidth 8
  if (d.gr kGfxMode).getLsbD 3 then
    ~~~((plane ^^^ d.gr kGfxColorCompare) &&& d.gr kGfxColorDontCare)
  else plane

def vgaMemRead8 (addr : BitVec 32) : Option (BitVec 8 × VgaDevice) :=
  match vgaApertureOffset d addr with
  | none => some (0xff, d)
  | some off =>
    if vgaMemoryChain4 d then (d.load off).map fun v => (v, d)
    else if oddEven d then (d.load (vgaOddEvenOffset d off)).map fun v => (v, d)
    else (d.loadCell off).map fun cell => (planarRead d cell, { d with latch := cell })

end

def laneAddr (addr : BitVec 64) (i : Nat) : BitVec 32 :=
  (addr - 0xa0000).setWidth 32 + BitVec.ofNat 32 i

def vgaMemRead (d : VgaDevice) (addr : BitVec 64) (size : Nat) : Option (BitVec 64 × VgaDevice) :=
  forUpTo (fun i s => (vgaMemRead8 s.2 (laneAddr addr i)).map fun r => (putLane s.1 r.1 i, r.2))
    (0, d) size

def vgaMemWrite (d : VgaDevice) (addr : BitVec 64) (size : Nat) (val : BitVec 64) :
    Option VgaDevice :=
  (forUpTo (fun i d => vgaMemWrite8 d (laneAddr addr i) ((val >>> (8 * i)).setWidth 8)) d size).map
    fun d => { d with dirty := true }

/-! ## The BARs -/

section

variable (d : VgaDevice) (addr : BitVec 64)

def lfbIndex (i : Nat) : Nat :=
  (addr - d.lfbBase + BitVec.ofNat 64 i).toNat % kVgaVramSize

def vgaLfbRead (size : Nat) : Option (BitVec 64) :=
  forUpTo (fun i v => (d.load (lfbIndex d addr i)).map fun b => putLane v b i) 0 size

def vgaLfbWrite (size : Nat) (val : BitVec 64) : Option VgaDevice :=
  (forUpTo (fun i d' => d'.store (lfbIndex d addr i) ((val >>> (8 * i)).setWidth 8)) d size).map
    fun d => { d with dirty := true }

/-- The port lane `i` of an access to the second BAR drives, if it is in the port window. -/
def bar2Port (i : Nat) : Option Nat :=
  let o := (addr - d.bar2Base + BitVec.ofNat 64 i).toNat
  if 0x400 ≤ o ∧ o < 0x420 then some (0x3c0 + (o - 0x400)) else none

end

def vgaBar2Read (d : VgaDevice) (addr : BitVec 64) (now : Nat → BitVec 64) : Nat → VgaDevice
  | 0 => d
  | n + 1 =>
    let d' := vgaBar2Read d addr now n
    match bar2Port d addr n with
    | some port => (vgaPortRead8 d' port (now n)).2
    | none => d'

def vgaBar2Write (d : VgaDevice) (addr : BitVec 64) (val : BitVec 64) : Nat → VgaDevice
  | 0 => d
  | n + 1 =>
    let d' := vgaBar2Write d addr val n
    match bar2Port d addr n with
    | some port => vgaPortWrite8 d' port ((val >>> (8 * n)).setWidth 8)
    | none => d'

end Cemu.Video
