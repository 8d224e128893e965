import Cemu.Video.VgaMem

/-!
# The renderers

`VgaComputePicture` and the text, planar, CGA, chained and VBE pictures drawn from it. A renderer
reads `vram` and writes the framebuffer, both through checked accesses, and changes nothing
else. A loop that the source leaves early leaves it at a bound that the loop variable only
passes once, so the rest of its rounds do nothing here.
-/

namespace Cemu.Video

structure VgaPicture where
  graphics : Bool
  width : Nat
  height : Nat
  cols : Nat
  rows : Nat
  cellWidth : Nat
  cellHeight : Nat
  shiftControl : Nat
  multiScan : Nat
  lineBytes : Nat
  start : Nat
  planes : BitVec 8
  crtcMode : BitVec 8
  lineCompare : Nat
  hpel : Nat
  hpelSplit : Bool
  vbe : Bool
  bpp : Nat
  vbeLineBytes : Nat
  vbeStart : Nat

section

variable (d : VgaDevice)

def vbePicture : VgaPicture :=
  let bpp := (d.dispi kDispiBpp).toNat
  { graphics := true, width := (d.dispi kDispiXres).toNat, height := (d.dispi kDispiYres).toNat
    cols := 0, rows := 0, cellWidth := 0, cellHeight := 0
    shiftControl := if bpp = 4 then 0 else 2
    multiScan := 0, lineBytes := d.vbeLineBytes / 4, start := d.vbeStart, planes := 0x0f
    crtcMode := d.cr kCrtcModeControl, lineCompare := 65535, hpel := 0, hpelSplit := false
    vbe := true, bpp := bpp, vbeLineBytes := d.vbeLineBytes, vbeStart := d.vbeStart }

def crtcPicture : VgaPicture :=
  let displayEnd := vgaVerticalDisplayEnd d
  let graphics := (d.ar kAttrModeControl).getLsbD 0
  let cellWidth := vgaCharDots d
  let cellHeight := (d.cr kCrtcMaxScanLine).toNat % 32 + 1
  let cols := (d.cr kCrtcHorizontalDisplayEnd).toNat + 1
  let rows := (displayEnd + 1) / cellHeight
  { graphics := graphics
    width := if graphics then cols * 8 else cols * cellWidth
    height := if graphics then displayEnd + 1 else rows * cellHeight
    cols := if graphics then 0 else cols
    rows := if graphics then 0 else rows
    cellWidth := cellWidth, cellHeight := cellHeight
    shiftControl := (d.gr kGfxMode).toNat / 32 % 4
    multiScan := if graphics && (d.cr kCrtcMaxScanLine).getLsbD 7 then 1 else 0
    lineBytes := (d.cr kCrtcOffset).toNat * 2
    start := (d.cr kCrtcStartAddressHigh).toNat * 0x100 + (d.cr kCrtcStartAddressLow).toNat
    planes := d.ar kAttrColorPlaneEnable &&& 0x0f
    crtcMode := d.cr kCrtcModeControl
    lineCompare := vgaLineCompare d
    hpel := (d.ar kAttrHorizontalPanning).toNat % 8
    hpelSplit := (d.ar kAttrModeControl).getLsbD 5
    vbe := false, bpp := 0, vbeLineBytes := 0, vbeStart := 0 }

def vgaComputePicture : VgaPicture := if dispiEnabled d then vbePicture d else crtcPicture d

abbrev Frame := Nat → BitVec 32

def putPixel (fb : Frame) (k : Nat) (c : BitVec 32) : Option Frame :=
  if k < kVgaFbWidth * kVgaFbHeight then some (Function.update fb k c) else none

/-! ## Text -/

def fontBase (attr : BitVec 8) : Nat :=
  let sel := (d.sr kSeqCharacterMapSelect).toNat
  let fontA := (sel / 16 % 2 + sel % 4 * 2) * 8192 * 4 + 2
  let fontB := (sel / 32 % 2 + sel / 4 % 4 * 2) * 8192 * 4 + 2
  if attr.getLsbD 3 then fontB else fontA

structure TextCell where
  off : Nat
  px : Nat
  ch : BitVec 8
  attr : BitVec 8

def cellColors (blinkTick : Nat) (attr : BitVec 8) : Nat × Nat :=
  let blink := (d.ar kAttrModeControl).getLsbD 3
  let bg := if blink then attr.toNat / 16 % 8 else attr.toNat / 16
  let fg := if blink && decide (blinkTick % 2 = 1) && attr.getLsbD 7 then bg else attr.toNat % 16
  (fg, bg)

section

variable (p : VgaPicture)

def cursorOn (blinkTick off line : Nat) : Bool :=
  let location := (d.cr kCrtcCursorLocationHigh).toNat * 0x100 + (d.cr kCrtcCursorLocationLow).toNat
  !(d.cr kCrtcCursorStart).getLsbD 5 && decide (blinkTick / 2 % 2 = 0) &&
    decide ((off : Int) - p.start = (location : Int) - p.start) &&
    decide ((d.cr kCrtcCursorStart).toNat % 32 ≤ line ∧ line ≤ (d.cr kCrtcCursorEnd).toNat % 32)

def drawDots (y px : Nat) (color : Nat → BitVec 32) (fb : Frame) : Option Frame :=
  forUpTo (fun dot fb =>
    if px + dot < d.fbWidth then putPixel fb (y * d.fbWidth + px + dot) (color dot) else some fb)
    fb p.cellWidth

/-- Whether dot `dot` of a glyph's line is set; the ninth repeats the eighth for line graphics. -/
def dotOn (ch bits : BitVec 8) (dot : Nat) : Bool :=
  let dup9 := decide (p.cellWidth = 9) && (d.ar kAttrModeControl).getLsbD 4 &&
    decide (0xb0 ≤ ch.toNat ∧ ch.toNat ≤ 0xdf)
  if dot < 8 then bits.getLsbD (7 - dot) else dup9 && bits.getLsbD 0

def drawCellLine (blinkTick row : Nat) (cell : TextCell) (line : Nat) (fb : Frame) : Option Frame :=
  let y := row * p.cellHeight + line
  if d.fbHeight ≤ y then some fb
  else
    (d.load (fontBase d cell.attr + cell.ch.toNat * 128 + line * 4)).bind fun bits =>
      let colors := cellColors d blinkTick cell.attr
      let fg := attrColor d colors.1
      let bg := attrColor d colors.2
      (drawDots d p y cell.px (fun dot => if dotOn d p cell.ch bits dot then fg else bg) fb).bind
        fun fb =>
          if cursorOn d p blinkTick cell.off line then drawDots d p y cell.px (fun _ => fg) fb
          else some fb

def drawCell (blinkTick row rowOff col : Nat) (fb : Frame) : Option Frame :=
  let off := rowOff + col
  let px := col * p.cellWidth
  if d.fbWidth ≤ px then some fb
  else
    (d.load (off * 4)).bind fun ch => (d.load (off * 4 + 1)).bind fun attr =>
      forUpTo (drawCellLine d p blinkTick row ⟨off, px, ch, attr⟩) fb p.cellHeight

/-- The plane offset of the row after `row`, which starts at scan line `row * cell_height`. -/
def nextRow (row rowOff : Nat) : Nat :=
  if row * p.cellHeight < p.lineCompare ∧ p.lineCompare ≤ (row + 1) * p.cellHeight then 0
  else rowOff + p.lineBytes

def vgaRenderText (blinkTick : Nat) : Option Frame :=
  (forUpTo (fun row (s : Nat × Frame) =>
    (forUpTo (drawCell d p blinkTick row s.1) s.2 p.cols).map fun fb => (nextRow p row s.1, fb))
    (p.start, d.fb) p.rows).map Prod.snd

end

/-! ## Graphics -/

def planarValue (planes : BitVec 8) (off bit : Nat) : Option Nat :=
  forUpTo (fun pl value =>
    if planes.getLsbD pl then
      (d.load (off * 4 + pl)).map fun b => value + if b.getLsbD bit then 2 ^ pl else 0
    else some value) 0 4

def component (v low width : Nat) : Nat :=
  let c := v / 2 ^ low % 2 ^ width * 2 ^ (8 - width)
  c ||| c / 2 ^ width

def rgb (r g b : Nat) : BitVec 32 := BitVec.ofNat 32 (r * 0x10000 + g * 0x100 + b)

def packedColor (bpp off : Nat) : Option (BitVec 32) :=
  let byte : Nat → Option Nat := fun k => (d.load ((off + k) % kVgaVramSize)).map BitVec.toNat
  match bpp with
  | 8 => (byte 0).map (dacColor d)
  | 15 => (byte 0).bind fun lo => (byte 1).map fun hi =>
      let v := hi * 0x100 + lo
      rgb (component v 10 5) (component v 5 5) (component v 0 5)
  | 16 => (byte 0).bind fun lo => (byte 1).map fun hi =>
      let v := hi * 0x100 + lo
      rgb (component v 11 5) (component v 5 6) (component v 0 5)
  | _ => (byte 0).bind fun b => (byte 1).bind fun g => (byte 2).map fun r => rgb r g b

def vgaRenderVbe (p : VgaPicture) : Option Frame :=
  let width := min p.width d.fbWidth
  let height := min p.height d.fbHeight
  forUpTo (fun y fb =>
    forUpTo (fun x fb =>
      let color : Option (BitVec 32) :=
        if p.bpp = 4 then
          (planarValue d p.planes (p.start + y * p.lineBytes + x / 8) (7 - x % 8)).map (attrColor d)
        else
          packedColor d p.bpp
            ((p.vbeStart * 4 + y * p.vbeLineBytes + x * (dispiBits p.bpp / 8)) % 2 ^ 32 %
              kVgaVramSize)
      color.bind (putPixel fb (y * d.fbWidth + x))) fb width) d.fb height

structure RowState where
  y1 : Nat
  multiRun : Nat
  hpel : Nat
  lineBase : BitVec 32

section

variable (p : VgaPicture)

def rowBase (s : RowState) : BitVec 32 :=
  let shift := 12 + if p.crtcMode.getLsbD 6 then 1 else 0
  let base := if p.crtcMode.getLsbD 0 then s.lineBase
    else (s.lineBase &&& ~~~(1#32 <<< shift)) ||| (BitVec.ofNat 32 (s.y1 % 2) <<< shift)
  if p.crtcMode.getLsbD 1 then base
  else (base &&& ~~~0x2000#32) ||| (BitVec.ofNat 32 (s.y1 / 2 % 2) <<< 13)

def nextScan (s : RowState) : RowState :=
  let mask := 3 - p.crtcMode.toNat % 4
  if s.multiRun ≠ 0 then { s with multiRun := s.multiRun - 1 }
  else
    { s with
      lineBase :=
        if s.y1 &&& mask = mask then s.lineBase + BitVec.ofNat 32 p.lineBytes else s.lineBase
      y1 := s.y1 + 1, multiRun := p.multiScan }

def endRow (y : Nat) (s : RowState) : RowState :=
  let next := nextScan p s
  if y = p.lineCompare then
    { next with lineBase := 0, hpel := if p.hpelSplit then 0 else next.hpel }
  else next

def cgaColors : Bool := decide (p.shiftControl = 1)

def cgaMono : Bool :=
  !cgaColors p && decide (p.multiScan = 1) && decide (p.cellHeight = 2)

def pixelIndex (value : Nat) : Nat :=
  let intensity := if d.cgaColor.getLsbD 4 then 8 else 0
  let paletteBase := if d.cgaColor.getLsbD 5 then 3 else 2
  if (cgaColors p || cgaMono p) && decide (value = 0) then d.cgaColor.toNat % 16
  else if cgaColors p then
    intensity |||
      if value = 1 then paletteBase else if value = 2 then paletteBase + 2 else paletteBase + 4
  else if cgaMono p then d.cgaColor.toNat / 16
  else value

def pixelColor (base : BitVec 32) (hpel x : Nat) : Option (BitVec 32) :=
  if (cgaColors p || cgaMono p) && !d.cgaMode.getLsbD 3 then some 0
  else if p.shiftControl = 2 then
    (d.load ((base.toNat * 4 + x + hpel) % 2 ^ 32 % kVgaVramSize)).map fun v => dacColor d v.toNat
  else
    let px := x + hpel
    let off := base.toNat + px / 8
    let value := if cgaColors p then
        (d.load (off * 4 + px / 4 % 2)).map fun b => b.toNat / 2 ^ (6 - 2 * (px % 4)) % 4
      else planarValue d p.planes off (7 - px % 8)
    value.map fun value => attrColor d (pixelIndex d p value)

def renderPlanar : Option Frame :=
  (forUpTo (fun y (s : RowState × Frame) =>
    (forUpTo (fun x fb =>
      (pixelColor d p (rowBase p s.1) s.1.hpel x).bind (putPixel fb (y * d.fbWidth + x)))
      s.2 d.fbWidth).map fun fb => (endRow p y s.1, fb))
    (⟨0, p.multiScan, p.hpel, BitVec.ofNat 32 p.start⟩, d.fb) d.fbHeight).map Prod.snd

def vgaRenderGraphics : Option Frame :=
  if p.vbe then vgaRenderVbe d p else renderPlanar d p

end

/-! ## Refresh -/

def blinkTick (now : BitVec 64) : Nat :=
  let fieldNs := if vgaFramePeriodNs d = 0 then 16666666 else vgaFramePeriodNs d
  let fields := now.toNat * 1000 / fieldNs
  fields / 32 % 2 + fields / 16 % 2 * 2

def VgaDevice.resize (p : VgaPicture) : VgaDevice :=
  { d with fbWidth := min p.width kVgaFbWidth, fbHeight := min p.height kVgaFbHeight }

def vgaPoll (now : BitVec 64) : Option VgaDevice :=
  let d := vgaUpdateStatus d now
  let tick := blinkTick d now
  let p := vgaComputePicture d
  if !d.dirty && decide (tick = d.renderedBlinkTick) then some d
  else if now - d.lastRenderUs < 4000 then some d
  else
    let d := d.resize p
    (if p.graphics then vgaRenderGraphics d p else vgaRenderText d p tick).map fun fb =>
      { d with fb := fb, renderedBlinkTick := tick, lastRenderUs := now, dirty := false,
               version := d.version + 1 }

end

end Cemu.Video
