import Cemu.Lib.Numerals

/-!
# The VGA register file

The ports of `device/video/vga.c`: the four register groups behind their index latches, the DAC,
the raster status and the DISPI registers of the VESA BIOS extension. Register arrays are
functions of the index, and an index the source keeps in range by masking is a `Fin`. Video
memory and the framebuffer are functions of the offset; every access to them goes through
`load` and `store` of `Cemu.Video.VgaMem`, which have no result outside. The debug reports are
left out.
-/

namespace Cemu.Video

open Function

def kVgaVramSize : Nat := 16 * 1024 * 1024
def kVgaFbWidth : Nat := 2560
def kVgaFbHeight : Nat := 1600

def kCrtcCount : Nat := 0x19
def kAttrCount : Nat := 0x15
def kDispiRegCount : Nat := 0x0b

def kCrtcHorizontalTotal : Fin kCrtcCount := ⟨0x00, by decide⟩
def kCrtcHorizontalDisplayEnd : Fin kCrtcCount := ⟨0x01, by decide⟩
def kCrtcStartHorizontalRetrace : Fin kCrtcCount := ⟨0x04, by decide⟩
def kCrtcEndHorizontalRetrace : Fin kCrtcCount := ⟨0x05, by decide⟩
def kCrtcVerticalTotal : Fin kCrtcCount := ⟨0x06, by decide⟩
def kCrtcOverflow : Fin kCrtcCount := ⟨0x07, by decide⟩
def kCrtcMaxScanLine : Fin kCrtcCount := ⟨0x09, by decide⟩
def kCrtcCursorStart : Fin kCrtcCount := ⟨0x0a, by decide⟩
def kCrtcCursorEnd : Fin kCrtcCount := ⟨0x0b, by decide⟩
def kCrtcStartAddressHigh : Fin kCrtcCount := ⟨0x0c, by decide⟩
def kCrtcStartAddressLow : Fin kCrtcCount := ⟨0x0d, by decide⟩
def kCrtcCursorLocationHigh : Fin kCrtcCount := ⟨0x0e, by decide⟩
def kCrtcCursorLocationLow : Fin kCrtcCount := ⟨0x0f, by decide⟩
def kCrtcVerticalRetraceStart : Fin kCrtcCount := ⟨0x10, by decide⟩
def kCrtcVerticalRetraceEnd : Fin kCrtcCount := ⟨0x11, by decide⟩
def kCrtcVerticalDisplayEnd : Fin kCrtcCount := ⟨0x12, by decide⟩
def kCrtcOffset : Fin kCrtcCount := ⟨0x13, by decide⟩
def kCrtcModeControl : Fin kCrtcCount := ⟨0x17, by decide⟩
def kCrtcLineCompare : Fin kCrtcCount := ⟨0x18, by decide⟩

def kSeqClockMode : Fin 8 := 1
def kSeqPlaneWriteMask : Fin 8 := 2
def kSeqCharacterMapSelect : Fin 8 := 3
def kSeqMemoryMode : Fin 8 := 4

def kGfxSetReset : Fin 16 := 0
def kGfxEnableSetReset : Fin 16 := 1
def kGfxColorCompare : Fin 16 := 2
def kGfxDataRotate : Fin 16 := 3
def kGfxReadMapSelect : Fin 16 := 4
def kGfxMode : Fin 16 := 5
def kGfxMisc : Fin 16 := 6
def kGfxColorDontCare : Fin 16 := 7
def kGfxBitMask : Fin 16 := 8

def kAttrModeControl : Fin kAttrCount := ⟨0x10, by decide⟩
def kAttrColorPlaneEnable : Fin kAttrCount := ⟨0x12, by decide⟩
def kAttrHorizontalPanning : Fin kAttrCount := ⟨0x13, by decide⟩
def kAttrColorSelect : Fin kAttrCount := ⟨0x14, by decide⟩

def kDispiXres : Fin kDispiRegCount := ⟨1, by decide⟩
def kDispiYres : Fin kDispiRegCount := ⟨2, by decide⟩
def kDispiBpp : Fin kDispiRegCount := ⟨3, by decide⟩
def kDispiEnable : Fin kDispiRegCount := ⟨4, by decide⟩
def kDispiBank : Fin kDispiRegCount := ⟨5, by decide⟩
def kDispiVirtWidth : Fin kDispiRegCount := ⟨6, by decide⟩
def kDispiVirtHeight : Fin kDispiRegCount := ⟨7, by decide⟩
def kDispiXOffset : Fin kDispiRegCount := ⟨8, by decide⟩
def kDispiYOffset : Fin kDispiRegCount := ⟨9, by decide⟩

def kDispiIndexPort : Nat := 0x1ce
def kDispiDataPort : Nat := 0x1cf
def kDispiPortCount : Nat := 4
def kDispiMaxXres : Nat := 2560
def kDispiMaxYres : Nat := 1600
def kDispiMaxBpp : Nat := 32

structure VgaDevice where
  vram : Nat → BitVec 8
  latch : BitVec 32
  cr : Fin kCrtcCount → BitVec 8
  crIndex : BitVec 8
  sr : Fin 8 → BitVec 8
  srIndex : Fin 8
  gr : Fin 16 → BitVec 8
  grIndex : Fin 16
  ar : Fin kAttrCount → BitVec 8
  arIndex : BitVec 8
  arFlipFlop : Bool
  misc : BitVec 8
  feature : BitVec 8
  st00 : BitVec 8
  st01 : BitVec 8
  cgaMode : BitVec 8
  cgaColor : BitVec 8
  dac : Nat → BitVec 8
  dacMask : BitVec 8
  dacReadIndex : BitVec 8
  dacWriteIndex : BitVec 8
  dacSubIndex : Fin 3
  dacState : BitVec 8
  dacCache : Fin 3 → BitVec 8
  dirty : Bool
  version : BitVec 32
  fb : Nat → BitVec 32
  fbWidth : Nat
  fbHeight : Nat
  lastRenderUs : BitVec 64
  renderedBlinkTick : Nat
  dispiIndex : Fin kDispiRegCount
  dispiId : BitVec 16
  dispi : Fin kDispiRegCount → BitVec 16
  vbeLineBytes : Nat
  vbeStart : Nat
  bankOffset : Nat
  lfbBase : BitVec 64
  bar2Base : BitVec 64

/-! ## The raster -/

def bitAs (v : BitVec 8) (k pos : Nat) : Nat := if v.getLsbD k then 2 ^ pos else 0

section

variable (d : VgaDevice)

def vgaVerticalTotal : Nat :=
  (d.cr kCrtcVerticalTotal).toNat + bitAs (d.cr kCrtcOverflow) 0 8 + bitAs (d.cr kCrtcOverflow) 5 9

def vgaVerticalRetraceStart : Nat :=
  (d.cr kCrtcVerticalRetraceStart).toNat + bitAs (d.cr kCrtcOverflow) 2 8 +
    bitAs (d.cr kCrtcOverflow) 7 9

def vgaVerticalDisplayEnd : Nat :=
  (d.cr kCrtcVerticalDisplayEnd).toNat + bitAs (d.cr kCrtcOverflow) 1 8 +
    bitAs (d.cr kCrtcOverflow) 6 9

def vgaLineCompare : Nat :=
  (d.cr kCrtcLineCompare).toNat + bitAs (d.cr kCrtcOverflow) 4 8 + bitAs (d.cr kCrtcMaxScanLine) 6 9

def vgaCharDots : Nat := if (d.sr kSeqClockMode).getLsbD 0 then 8 else 9

def vgaHorizontalTotal : Nat := (d.cr kCrtcHorizontalTotal).toNat + 5

def charHz : Nat :=
  let hz := if d.misc.toNat / 4 % 4 = 1 then 28322000 else 25175000
  hz / vgaCharDots d / if (d.sr kSeqClockMode).getLsbD 3 then 2 else 1

def vgaFramePeriodNs : Nat :=
  (vgaVerticalTotal d + 2) * vgaHorizontalTotal d * (1000000000 / charHz d)

/-- `VgaUpdateStatus`: the two raster bits of status 1. The registers always describe a frame and a
clock, so what is left of the source's guard are the two starts. -/
def vgaUpdateStatus (nowUs : BitVec 64) : VgaDevice :=
  let htotal := vgaHorizontalTotal d
  let frameLines := vgaVerticalTotal d + 2
  let vstart := vgaVerticalRetraceStart d
  let vlen : Int := (((d.cr kCrtcVerticalRetraceEnd).toNat % 16 : Nat) - vstart : Int) % 16
  let hstart := (d.cr kCrtcStartHorizontalRetrace).toNat +
    (d.cr kCrtcEndHorizontalRetrace).toNat / 32 % 4
  let hlen : Int := (((d.cr kCrtcEndHorizontalRetrace).toNat % 32 : Nat) - hstart : Int) % 32
  if vstart < frameLines ∧ hstart < htotal then
    let charInFrame := nowUs.toNat * 1000 / (1000000000 / charHz d) % (frameLines * htotal)
    let line := charInFrame / htotal
    let hpos := charInFrame % htotal
    let vrel : Nat := if vstart ≤ line then line - vstart else line + frameLines - vstart
    let hrel : Nat := if hstart ≤ hpos then hpos - hstart else hpos + htotal - hstart
    let val := d.st01 &&& ~~~0x09#8
    { d with
      st01 := if (vrel : Int) ≤ vlen then val ||| 0x09
        else if (hrel : Int) ≤ hlen then val ||| 0x01 else val }
  else d

/-! ## Colour -/

def dacColor (index : Nat) : BitVec 32 :=
  let level : Nat → BitVec 32 := fun i =>
    let b := (d.dac (index % 256 * 3 + i)).toNat % 64
    BitVec.ofNat 32 (b * 4 + b % 2 * 3)
  (level 0 <<< 16) ||| (level 1 <<< 8) ||| level 2

def attrColorIndex (index : Nat) : Nat :=
  let v := (d.ar ⟨index % 16, by unfold kAttrCount; omega⟩).toNat
  let select := (d.ar kAttrColorSelect).toNat
  if (d.ar kAttrModeControl).getLsbD 7 then select % 16 * 16 + v % 16
  else select % 16 / 4 * 64 + v % 64

def attrColor (index : Nat) : BitVec 32 := dacColor d (attrColorIndex d index)

/-! ## DISPI -/

def dispiEnabled : Bool := (d.dispi kDispiEnable).getLsbD 0

end

def dispiBits (bpp : Nat) : Nat :=
  if bpp = 4 ∨ bpp = 8 ∨ bpp = 24 ∨ bpp = 32 then bpp else if bpp = 15 then 16 else 8

structure VbeMode where
  bpp : Nat
  xres : Nat
  virtWidth : Nat
  yres : Nat
  maxY : Nat
  xOffset : Nat
  yOffset : Nat
  /-- `line` and `offset` of the source, in bytes. -/
  line : Nat
  offset : Nat

def VbeMode.place (m : VbeMode) : VbeMode :=
  let x := m.xOffset * dispiBits m.bpp / 8
  if x + m.yOffset * m.line + m.yres * m.line ≤ kVgaVramSize then
    { m with offset := x + m.yOffset * m.line }
  else if x + m.yres * m.line ≤ kVgaVramSize then { m with yOffset := 0, offset := x }
  else { m with yOffset := 0, xOffset := 0, offset := 0 }

def vbeMode (r : Fin kDispiRegCount → BitVec 16) : VbeMode :=
  let bpp := (r kDispiBpp).toNat
  let bpp := if bpp = 4 ∨ bpp = 8 ∨ bpp = 15 ∨ bpp = 16 ∨ bpp = 24 ∨ bpp = 32 then bpp else 8
  let xres := (r kDispiXres).toNat / 8 * 8
  let xres := min (if xres = 0 then 8 else xres) kDispiMaxXres
  let virtWidth := max (min ((r kDispiVirtWidth).toNat / 8 * 8) kDispiMaxXres) xres
  let line := virtWidth * dispiBits bpp / 8
  let maxY := if line = 0 then 1 else kVgaVramSize / line
  let yres := (r kDispiYres).toNat
  let yres := min (min (if yres = 0 then 1 else yres) kDispiMaxYres) maxY
  VbeMode.place
    { bpp, xres, virtWidth, yres, maxY, line, offset := 0
      xOffset := min (r kDispiXOffset).toNat kDispiMaxXres
      yOffset := min (r kDispiYOffset).toNat kDispiMaxYres }

section

variable (d : VgaDevice)

def VgaDevice.setDispi (i : Fin kDispiRegCount) (v : BitVec 16) : VgaDevice :=
  { d with dispi := update d.dispi i v }

def VgaDevice.setCr (i : Fin kCrtcCount) (v : BitVec 8) : VgaDevice :=
  { d with cr := update d.cr i v }

def VgaDevice.setGr (i : Fin 16) (v : BitVec 8) : VgaDevice :=
  { d with gr := update d.gr i v }

def VgaDevice.setAr (i : Fin kAttrCount) (v : BitVec 8) : VgaDevice :=
  { d with ar := update d.ar i v }

def VgaDevice.setMode (m : VbeMode) : VgaDevice :=
  { ((((((((d.setDispi kDispiBpp (BitVec.ofNat 16 m.bpp)).setDispi kDispiXres
      (BitVec.ofNat 16 m.xres)).setDispi kDispiVirtWidth (BitVec.ofNat 16 m.virtWidth)).setDispi
      kDispiYres (BitVec.ofNat 16 m.yres)).setDispi kDispiXOffset
        (BitVec.ofNat 16 m.xOffset)).setDispi
      kDispiYOffset (BitVec.ofNat 16 m.yOffset)).setDispi kDispiVirtHeight
      (BitVec.ofNat 16 m.maxY))) with
    vbeLineBytes := m.line, vbeStart := m.offset / 4 }

def vgaDispiFixup : VgaDevice := if dispiEnabled d then d.setMode (vbeMode d.dispi) else d

def vgaDispiUpdateRegs : VgaDevice :=
  if !dispiEnabled d then d
  else
    let h := BitVec.ofInt 16 ((d.dispi kDispiYres).toNat - 1)
    let overflow := (d.cr kCrtcOverflow &&& ~~~0x42#8) ||| ((h >>> 7).setWidth 8 &&& 0x02) |||
      ((h >>> 3).setWidth 8 &&& 0x40)
    let shift : BitVec 8 := if d.dispi kDispiBpp = 4 then 0 else 0x40
    let d := d.setGr kGfxMisc ((d.gr kGfxMisc &&& ~~~0x0c#8) ||| 0x05)
    let d := d.setCr kCrtcModeControl (d.cr kCrtcModeControl ||| 3)
    let d := d.setCr kCrtcOffset (BitVec.ofNat 8 (d.vbeLineBytes / 8))
    let d := d.setCr kCrtcHorizontalDisplayEnd (((d.dispi kDispiXres >>> 3) - 1).setWidth 8)
    let d := d.setCr kCrtcVerticalDisplayEnd (h.setWidth 8)
    let d := d.setCr kCrtcOverflow (overflow ||| 0x10)
    let d := d.setCr kCrtcLineCompare 0xff
    let d := d.setCr kCrtcMaxScanLine ((d.cr kCrtcMaxScanLine ||| 0x40) &&& ~~~0x9f#8)
    d.setGr kGfxMode ((d.gr kGfxMode &&& ~~~0x60#8) ||| shift)

def vgaDispiReadReg : BitVec 16 :=
  let caps := (d.dispi kDispiEnable).getLsbD 1
  if d.dispiIndex.val = 0 then d.dispiId
  else if d.dispiIndex.val = 10 then BitVec.ofNat 16 (kVgaVramSize / 65536)
  else if caps && decide (d.dispiIndex = kDispiXres) then BitVec.ofNat 16 kDispiMaxXres
  else if caps && decide (d.dispiIndex = kDispiYres) then BitVec.ofNat 16 kDispiMaxYres
  else if caps && decide (d.dispiIndex = kDispiBpp) then BitVec.ofNat 16 kDispiMaxBpp
  else d.dispi d.dispiIndex

def VgaDevice.clearVram (n : Nat) : VgaDevice :=
  { d with vram := fun k => if k < n then 0 else d.vram k }

def dispiEnableMode (val : BitVec 16) : VgaDevice :=
  let d := ((d.setDispi kDispiVirtWidth 0).setDispi kDispiXOffset 0).setDispi kDispiYOffset 0
  let d := vgaDispiUpdateRegs (vgaDispiFixup d)
  if !val.getLsbD 7 && decide (d.vbeLineBytes ≠ 0) then
    d.clearVram ((d.dispi kDispiYres).toNat * d.vbeLineBytes)
  else d

def vgaDispiWriteReg (val : BitVec 16) : VgaDevice :=
  match d.dispiIndex.val with
  | 0 => if 0xb0c0#16 ≤ val ∧ val ≤ 0xb0c5#16 then { d with dispiId := val } else d
  | 7 => d
  | 10 => d
  | 5 =>
    let bank := val.toNat % (kVgaVramSize / 0x10000)
    { d.setDispi kDispiBank (BitVec.ofNat 16 bank) with
      bankOffset := bank * 0x10000, dirty := true }
  | 4 =>
    let was := dispiEnabled d
    let d := d.setDispi kDispiEnable val
    if !was && dispiEnabled d then { dispiEnableMode d val with dirty := true }
    else if !dispiEnabled d then { d.setDispi kDispiBank 0 with bankOffset := 0, dirty := true }
    else { d with dirty := true }
  | _ => { vgaDispiUpdateRegs (vgaDispiFixup (d.setDispi d.dispiIndex val)) with dirty := true }

end

/-! ## Ports -/

def kSeqWriteMask (i : Fin 8) : BitVec 8 := #v[0x03, 0x3d, 0x0f, 0x3f, 0x0e, 0x00, 0x00, 0xff][i]

def kGfxWriteMask (i : Fin 16) : BitVec 8 :=
  #v[0x0f, 0x0f, 0x0f, 0x1f, 0x03, 0x7b, 0x0f, 0x0f, 0xff, 0, 0, 0, 0, 0, 0, 0][i]

section

variable (d : VgaDevice)

def vgaPortDecoded (port : Nat) : Bool :=
  let mono := !d.misc.getLsbD 0
  if 0x3b0 ≤ port ∧ port ≤ 0x3bf then mono
  else if 0x3d0 ≤ port ∧ port ≤ 0x3df then !mono
  else true

def crtcReg : Option (Fin kCrtcCount) :=
  if h : d.crIndex.toNat < kCrtcCount then some ⟨d.crIndex.toNat, h⟩ else none

def attrReg : Option (Fin kAttrCount) :=
  if h : d.arIndex.toNat % 32 < kAttrCount then some ⟨d.arIndex.toNat % 32, h⟩ else none

def dacRead : BitVec 8 × VgaDevice :=
  let v := d.dac (d.dacReadIndex.toNat * 3 + d.dacSubIndex.val)
  if d.dacSubIndex = 2 then (v, { d with dacSubIndex := 0, dacReadIndex := d.dacReadIndex + 1 })
  else (v, { d with dacSubIndex := d.dacSubIndex + 1 })

def vgaPortReadReg (port : Nat) (now : BitVec 64) : BitVec 8 × VgaDevice :=
  match port with
  | 0x3c0 => (if d.arFlipFlop then 0 else d.arIndex, d)
  | 0x3c1 => (((attrReg d).map d.ar).getD 0, d)
  | 0x3c2 => (d.st00, d)
  | 0x3c4 => (BitVec.ofNat 8 d.srIndex.val, d)
  | 0x3c5 => (d.sr d.srIndex, d)
  | 0x3c6 => (d.dacMask, d)
  | 0x3c7 => (d.dacState, d)
  | 0x3c8 => (d.dacWriteIndex, d)
  | 0x3c9 => dacRead d
  | 0x3ca => (d.feature, d)
  | 0x3cc => (d.misc, d)
  | 0x3ce => (BitVec.ofNat 8 d.grIndex.val, d)
  | 0x3cf => (d.gr d.grIndex, d)
  | 0x3b4 | 0x3d4 => (d.crIndex, d)
  | 0x3b5 | 0x3d5 => (((crtcReg d).map d.cr).getD 0, d)
  | 0x3ba | 0x3da =>
    let d := { vgaUpdateStatus d now with arFlipFlop := false }
    (d.st01, d)
  | _ => (0xff, d)

def vgaPortRead8 (port : Nat) (now : BitVec 64) : BitVec 8 × VgaDevice :=
  if vgaPortDecoded d port then vgaPortReadReg d port now else (0xff, d)

def attrStored (i : Fin kAttrCount) (val : BitVec 8) : BitVec 8 :=
  if i.val ≤ 0x0f then val &&& 0x3f
  else if i.val = 0x10 then val &&& ~~~0x10#8
  else if i.val = 0x11 then val
  else if i.val = 0x12 then val &&& ~~~0xc0#8
  else val &&& ~~~0xf0#8

def attrWrite (val : BitVec 8) : VgaDevice :=
  if !d.arFlipFlop then { d with arIndex := val &&& 0x3f, arFlipFlop := true }
  else
    match attrReg d with
    | some i => { d.setAr i (attrStored i val) with arFlipFlop := false }
    | none => { d with arFlipFlop := false }

def dacWrite (val : BitVec 8) : VgaDevice :=
  let cache := update d.dacCache d.dacSubIndex val
  if d.dacSubIndex = 2 then
    let base := d.dacWriteIndex.toNat * 3
    { d with
      dacCache := cache, dacSubIndex := 0, dacWriteIndex := d.dacWriteIndex + 1, dirty := true
      dac := fun k =>
        if base ≤ k ∧ k < base + 3 then cache ⟨(k - base) % 3, by omega⟩ else d.dac k }
  else { d with dacCache := cache, dacSubIndex := d.dacSubIndex + 1 }

def crtcWrite (val : BitVec 8) : VgaDevice :=
  if (d.cr kCrtcVerticalRetraceEnd).getLsbD 7 ∧ d.crIndex.toNat ≤ 7 then
    if d.crIndex.toNat = 7 then
      d.setCr kCrtcOverflow ((d.cr kCrtcOverflow &&& ~~~0x10#8) ||| (val &&& 0x10))
    else d
  else
    match crtcReg d with
    | some i => { d.setCr i val with dirty := true }
    | none => { d with dirty := true }

def vgaPortWrite8 (port : Nat) (val : BitVec 8) : VgaDevice :=
  if !vgaPortDecoded d port then d
  else
    match port with
    | 0x3c0 => { attrWrite d val with dirty := true }
    | 0x3c2 => { d with misc := val &&& ~~~0x10#8, dirty := true }
    | 0x3c4 => { d with srIndex := Fin.ofNat 8 val.toNat, dirty := true }
    | 0x3c5 =>
      { d with sr := update d.sr d.srIndex (val &&& kSeqWriteMask d.srIndex), dirty := true }
    | 0x3c6 => { d with dacMask := val }
    | 0x3c7 => { d with dacReadIndex := val, dacSubIndex := 0, dacState := 3 }
    | 0x3c8 => { d with dacWriteIndex := val, dacSubIndex := 0, dacState := 0 }
    | 0x3c9 => dacWrite d val
    | 0x3ce => { d with grIndex := Fin.ofNat 16 val.toNat }
    | 0x3cf => { d.setGr d.grIndex (val &&& kGfxWriteMask d.grIndex) with dirty := true }
    | 0x3b4 | 0x3d4 => { d with crIndex := val }
    | 0x3b5 | 0x3d5 => crtcWrite d val
    | 0x3d8 => { d with cgaMode := val, dirty := true }
    | 0x3d9 => { d with cgaColor := val, dirty := true }
    | 0x3ba | 0x3da => { d with feature := val &&& 0x10 }
    | _ => d

def dispiAccess (addr : BitVec 64) (size : Nat) : Bool :=
  decide (2 ≤ size ∧ kDispiIndexPort ≤ addr.toNat ∧ addr.toNat < kDispiIndexPort + kDispiPortCount)

def putLane (v : BitVec 64) (b : BitVec 8) (i : Nat) : BitVec 64 :=
  v ||| (b.setWidth 64 <<< (8 * i))

def lanePort (addr : BitVec 64) (i : Nat) : Nat := (addr.toNat + i) % 0x10000

def readLanes (addr : BitVec 64) (now : Nat → BitVec 64) : Nat → VgaDevice
  | 0 => d
  | n + 1 => (vgaPortRead8 (readLanes addr now n) (lanePort addr n) (now n)).2

def vgaPortRead (addr : BitVec 64) (size : Nat) (now : Nat → BitVec 64) : BitVec 64 × VgaDevice :=
  if dispiAccess addr size then
    let v : BitVec 16 := if addr.toNat = kDispiIndexPort then BitVec.ofNat 16 d.dispiIndex.val
      else if addr.toNat = kDispiDataPort then vgaDispiReadReg d else 0xffff
    (v.setWidth 64, d)
  else
    let byte := fun n => (vgaPortRead8 (readLanes d addr now n) (lanePort addr n) (now n)).1
    ((List.range size).foldl (fun v n => putLane v (byte n) n) 0,
      readLanes d addr now size)

def writeLanes (addr : BitVec 64) (val : BitVec 64) : Nat → VgaDevice
  | 0 => d
  | n + 1 => vgaPortWrite8 (writeLanes addr val n) (lanePort addr n) ((val >>> (8 * n)).setWidth 8)

def vgaPortWrite (addr : BitVec 64) (size : Nat) (val : BitVec 64) : VgaDevice :=
  if dispiAccess addr size then
    let v : BitVec 16 := val.setWidth 16
    if addr.toNat = kDispiIndexPort then
      if h : v.toNat < kDispiRegCount then { d with dispiIndex := ⟨v.toNat, h⟩ } else d
    else if addr.toNat = kDispiDataPort then vgaDispiWriteReg d v
    else d
  else writeLanes d addr val size

end

end Cemu.Video
