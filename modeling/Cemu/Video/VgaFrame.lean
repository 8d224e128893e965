import Cemu.Video.VgaBounds

/-!
# Refreshes stay inside the card

The text, planar, CGA and VBE renderers index video memory and the framebuffer inside their
arrays, for every register file that keeps the DISPI invariant. With the aperture bounds this
gives the result for whole runs.
-/

namespace Cemu.Video

open BitVec Nat
open Option (isSome_map)

/-! ## The framebuffer -/

structure FrameFits (d : VgaDevice) : Prop where
  width : d.fbWidth ≤ kVgaFbWidth
  height : d.fbHeight ≤ kVgaFbHeight

theorem resize_frameFits (d : VgaDevice) (p : VgaPicture) : FrameFits (d.resize p) :=
  ⟨min_le_right _ _, min_le_right _ _⟩

theorem putPixel_isSome {d : VgaDevice} (hfits : FrameFits d) {fb : Frame} {x y : Nat}
    {c : BitVec 32}
    (hx : x < d.fbWidth) (hy : y < d.fbHeight) : (putPixel fb (y * d.fbWidth + x) c).isSome := by
  have hk : y * d.fbWidth + x < kVgaFbWidth * kVgaFbHeight := by
    calc y * d.fbWidth + x < y * d.fbWidth + d.fbWidth := by omega
      _ = (y + 1) * d.fbWidth := (Nat.succ_mul y d.fbWidth).symm
      _ ≤ d.fbHeight * d.fbWidth := Nat.mul_le_mul_right _ hy
      _ ≤ kVgaFbHeight * kVgaFbWidth := Nat.mul_le_mul hfits.height hfits.width
  rw [putPixel, if_pos hk]
  rfl

/-! ## Text -/

structure CrtcFits (p : VgaPicture) : Prop where
  cols : p.cols ≤ 256
  rows : p.rows ≤ 1024
  cellHeight : p.cellHeight ≤ 32
  lineBytes : p.lineBytes ≤ 510
  start : p.start < 2 ^ 16
  hpel : p.hpel < 8

theorem bitAs_le (v : BitVec 8) (k pos : Nat) : bitAs v k pos ≤ 2 ^ pos := by
  unfold bitAs
  split
  · exact le_refl _
  · exact zero_le _

theorem crtcPicture_fits (d : VgaDevice) : CrtcFits (crtcPicture d) := by
  have hend : vgaVerticalDisplayEnd d < 1024 := by
    have h8 := bitAs_le (d.cr kCrtcOverflow) 1 8
    have h9 := bitAs_le (d.cr kCrtcOverflow) 6 9
    unfold vgaVerticalDisplayEnd
    omega
  have hcols : (d.cr kCrtcHorizontalDisplayEnd).toNat + 1 ≤ 256 := (d.cr _).isLt
  have hrows : (vgaVerticalDisplayEnd d + 1) / ((d.cr kCrtcMaxScanLine).toNat % 32 + 1) ≤ 1024 :=
    le_trans (div_le_self _ _) hend
  refine ⟨?_, ?_, ?_, ?_, ?_, ?_⟩
  · show (if _ then 0 else (d.cr kCrtcHorizontalDisplayEnd).toNat + 1) ≤ 256
    split
    · exact zero_le _
    · exact hcols
  · show (if _ then 0 else _) ≤ 1024
    split
    · exact zero_le _
    · exact hrows
  · show (d.cr kCrtcMaxScanLine).toNat % 32 + 1 ≤ 32
    omega
  · show (d.cr kCrtcOffset).toNat * 2 ≤ 510
    omega
  · show (d.cr kCrtcStartAddressHigh).toNat * 0x100 + (d.cr kCrtcStartAddressLow).toNat < 2 ^ 16
    omega
  · show (d.ar kAttrHorizontalPanning).toNat % 8 < 8
    omega

section

variable {d : VgaDevice} (hfits : FrameFits d) {p : VgaPicture}
include hfits

theorem drawDots_isSome {y px : Nat} (hy : y < d.fbHeight) (color : Nat → BitVec 32) (fb : Frame) :
    (drawDots d p y px color fb).isSome := by
  refine forUpTo_isSome fun dot fb _ => ?_
  split
  · rw [add_assoc]
    exact putPixel_isSome hfits ‹_› hy
  · rfl

theorem drawCellLine_isSome {cell : TextCell} {line : Nat} (hline : line < 32) (tick row : Nat)
    (fb : Frame) : (drawCellLine d p tick row cell line fb).isSome := by
  unfold drawCellLine
  dsimp only
  split
  · rfl
  rename_i hy
  rw [not_le] at hy
  have hglyph : fontBase d cell.attr + cell.ch.toNat * 128 + line * 4 < kVgaVramSize := by
    unfold fontBase kVgaVramSize
    dsimp only
    split <;> omega
  refine isSome_bind (load_isSome hglyph) fun bits => ?_
  refine isSome_bind (drawDots_isSome hfits hy _ fb) fun fb => ?_
  split
  · exact drawDots_isSome hfits hy _ fb
  · rfl

theorem drawCell_isSome (hp : CrtcFits p) {rowOff col : Nat} (hoff : rowOff < 2 ^ 20)
    (hcol : col < 256)
    (tick row : Nat) (fb : Frame) : (drawCell d p tick row rowOff col fb).isSome := by
  unfold drawCell
  dsimp only
  split
  · rfl
  · refine isSome_bind (load_isSome (by unfold kVgaVramSize; omega)) fun ch => ?_
    refine isSome_bind (load_isSome (by unfold kVgaVramSize; omega)) fun attr => ?_
    refine forUpTo_isSome fun line fb hline => ?_
    exact drawCellLine_isSome hfits (lt_of_lt_of_le hline hp.cellHeight) tick row fb

/-- Row `row` starts at most `row` line lengths behind the start address: a split only sends it
back to the first cell. -/
theorem vgaRenderText_isSome (hp : CrtcFits p) (tick : Nat) : (vgaRenderText d p tick).isSome := by
  have hcols := hp.cols
  have hrows := hp.rows
  have hbytes := hp.lineBytes
  have hstart := hp.start
  rw [vgaRenderText]
  obtain ⟨s, hs, -⟩ := forUpTo_some (I := fun row (s : Nat × Frame) => s.1 ≤ 2 ^ 16 + row * 510)
    (s := (p.start, d.fb)) (n := p.rows)
    (f := fun row (s : Nat × Frame) =>
      (forUpTo (drawCell d p tick row s.1) s.2 p.cols).map fun fb => (nextRow p row s.1, fb))
    (by dsimp only; omega) fun row s hrow hinv => by
      have hcells : (forUpTo (drawCell d p tick row s.1) s.2 p.cols).isSome :=
        forUpTo_isSome fun col fb hcol => drawCell_isSome hfits hp (by omega) (by omega) tick row fb
      obtain ⟨fb, hfb⟩ := Option.isSome_iff_exists.mp hcells
      refine ⟨(nextRow p row s.1, fb), by rw [hfb]; rfl, ?_⟩
      unfold nextRow
      split <;> omega
  rw [hs]
  rfl

/-! ## Graphics -/

end

theorem planarValue_isSome (d : VgaDevice) (planes : BitVec 8) {off : Nat}
    (hoff : off < kVgaVramSize / 4) (bit : Nat) : (planarValue d planes off bit).isSome := by
  refine forUpTo_isSome fun pl value hpl => ?_
  split
  · rw [isSome_map]
    exact load_isSome (by unfold kVgaVramSize at *; omega)
  · rfl

theorem packedColor_isSome (d : VgaDevice) (bpp off : Nat) : (packedColor d bpp off).isSome := by
  have hbyte : ∀ k, ((d.load ((off + k) % kVgaVramSize)).map BitVec.toNat).isSome := fun k => by
    rw [isSome_map]
    exact load_isSome (mod_lt _ (by decide))
  unfold packedColor
  split
  · rw [isSome_map]
    exact hbyte 0
  · refine isSome_bind (hbyte 0) fun lo => ?_
    rw [isSome_map]
    exact hbyte 1
  · refine isSome_bind (hbyte 0) fun lo => ?_
    rw [isSome_map]
    exact hbyte 1
  · refine isSome_bind (hbyte 0) fun b => isSome_bind (hbyte 1) fun g => ?_
    rw [isSome_map]
    exact hbyte 2

variable {d d' : VgaDevice} {p : VgaPicture} {s : RowState}

theorem RowsFit.cell_lt {xres yres line start x y : Nat} (h : RowsFit xres yres line start)
    (hx : x < xres) (hy : y < yres) : start + y * (line / 4) + x / 8 < kVgaVramSize / 4 := by
  obtain ⟨hline, hxres, hend⟩ := h
  obtain ⟨cells, rfl⟩ : ∃ cells, line = 4 * cells := ⟨line / 4, by omega⟩
  have hrows : (y + 1) * cells ≤ yres * cells := Nat.mul_le_mul_right _ hy
  have hquad : yres * (4 * cells) = 4 * (yres * cells) := Nat.mul_left_comm _ _ _
  rw [Nat.succ_mul] at hrows
  rw [Nat.mul_div_cancel_left _ (by decide)]
  omega

theorem vgaRenderVbe_isSome (hfits : FrameFits d)
    (hp : p.bpp = 4 → RowsFit p.width p.height (4 * p.lineBytes) p.start) :
    (vgaRenderVbe d p).isSome := by
  refine forUpTo_isSome fun y fb hy => forUpTo_isSome fun x fb hx => ?_
  rw [Nat.lt_min] at hx hy
  refine isSome_bind ?_ fun c => putPixel_isSome hfits hx.2 hy.2
  split
  · rename_i hbpp
    have hcell := (hp hbpp).cell_lt hx.1 hy.1
    rw [Nat.mul_div_cancel_left _ (by decide)] at hcell
    rw [isSome_map]
    exact planarValue_isSome d _ hcell _
  · exact packedColor_isSome d _ _

theorem rowBase_lt (p : VgaPicture) (h : s.lineBase.toNat < 2 ^ 20) :
    (rowBase p s).toNat < 2 ^ 20 := by
  have hmix : ∀ (b m v : BitVec 32), b.toNat < 2 ^ 20 → v.toNat < 2 ^ 20 →
      ((b &&& m) ||| v).toNat < 2 ^ 20 := fun b m v hb hv => by
    exact Nat.or_lt_two_pow (Nat.lt_of_le_of_lt Nat.and_le_left hb) hv
  have hbit : ∀ n k, k ≤ 13 → ((BitVec.ofNat 32 (n % 2)) <<< k).toNat < 2 ^ 20 := fun n k hk => by
    have hpow : 2 ^ k ≤ 2 ^ 13 := Nat.pow_le_pow_right (by decide) hk
    have hprod : n % 2 * 2 ^ k ≤ 1 * 2 ^ 13 := Nat.mul_le_mul (by omega) hpow
    rw [toNat_shiftLeft, toNat_ofNat, Nat.mod_eq_of_lt (show n % 2 < 2 ^ 32 by omega)]
    omega
  unfold rowBase
  dsimp only
  have hshift : 12 + (if p.crtcMode.getLsbD 6 then 1 else 0) ≤ 13 := by split <;> omega
  have hlow : (if p.crtcMode.getLsbD 0 then s.lineBase
      else (s.lineBase &&& ~~~(1#32 <<< (12 + if p.crtcMode.getLsbD 6 then 1 else 0))) |||
        (BitVec.ofNat 32 (s.y1 % 2) <<< (12 + if p.crtcMode.getLsbD 6 then 1 else 0))).toNat
          < 2 ^ 20 := by
    split
    · exact h
    · exact hmix _ _ _ h (hbit _ _ hshift)
  split
  · exact hlow
  · exact hmix _ _ _ hlow (hbit _ _ (by decide))

theorem pixelColor_isSome (d : VgaDevice) (p : VgaPicture) {base : BitVec 32} {hpel x : Nat}
    (hbase : base.toNat < 2 ^ 20) (hhpel : hpel < 8) (hx : x < kVgaFbWidth) :
    (pixelColor d p base hpel x).isSome := by
  have hcell : base.toNat + (x + hpel) / 8 < kVgaVramSize / 4 := by
    unfold kVgaVramSize kVgaFbWidth at *
    omega
  unfold pixelColor
  split
  · rfl
  split
  · rw [isSome_map]
    exact load_isSome (mod_lt _ (by decide))
  rw [isSome_map]
  split
  · rw [isSome_map]
    exact load_isSome (by unfold kVgaVramSize at *; omega)
  · exact planarValue_isSome d _ hcell _

theorem nextScan_keeps (hp : CrtcFits p) {y : Nat} (hbase : s.lineBase.toNat ≤ 2 ^ 16 + y * 510) :
    (nextScan p s).lineBase.toNat ≤ 2 ^ 16 + (y + 1) * 510 ∧ (nextScan p s).hpel = s.hpel := by
  have hbytes := hp.lineBytes
  have hsame : s.lineBase.toNat ≤ 2 ^ 16 + (y + 1) * 510 :=
    Nat.le_trans hbase (Nat.add_le_add_left (Nat.mul_le_mul_right _ (Nat.le_succ y)) _)
  have hnext : (s.lineBase + .ofNat 32 p.lineBytes).toNat ≤ 2 ^ 16 + (y + 1) * 510 := by
    rw [toNat_add, toNat_ofNat]
    omega
  unfold nextScan
  split
  · exact ⟨hsame, rfl⟩
  refine ⟨?_, rfl⟩
  dsimp only
  split
  · exact hnext
  · exact hsame

theorem endRow_keeps (hp : CrtcFits p) {y : Nat} (hbase : s.lineBase.toNat ≤ 2 ^ 16 + y * 510)
    (hhpel : s.hpel < 8) :
    (endRow p y s).lineBase.toNat ≤ 2 ^ 16 + (y + 1) * 510 ∧ (endRow p y s).hpel < 8 := by
  obtain ⟨hnext, hkeep⟩ := nextScan_keeps hp hbase
  unfold endRow
  split
  · refine ⟨zero_le (2 ^ 16 + (y + 1) * 510), ?_⟩
    split
    · exact (by decide : 0 < 8)
    · rw [hkeep]
      exact hhpel
  · rw [hkeep]
    exact ⟨hnext, hhpel⟩

theorem renderPlanar_isSome (hfits : FrameFits d) (hp : CrtcFits p) :
    (renderPlanar d p).isSome := by
  have hstart := hp.start
  have hwidth := hfits.width
  have hheight := hfits.height
  rw [renderPlanar]
  obtain ⟨s, hs, -⟩ := forUpTo_some
    (I := fun y (s : RowState × Frame) => s.1.lineBase.toNat ≤ 2 ^ 16 + y * 510 ∧ s.1.hpel < 8)
    (s := ((⟨0, p.multiScan, p.hpel, .ofNat 32 p.start⟩), d.fb)) (n := d.fbHeight)
    (f := fun y (s : RowState × Frame) =>
      (forUpTo (fun x fb =>
        (pixelColor d p (rowBase p s.1) s.1.hpel x).bind (putPixel fb (y * d.fbWidth + x)))
        s.2 d.fbWidth).map fun fb => (endRow p y s.1, fb))
    ⟨by rw [toNat_ofNat]; omega, hp.hpel⟩ fun y s hy hinv => by
      have hlow : s.1.lineBase.toNat < 2 ^ 20 := by
        unfold kVgaFbHeight at hheight
        omega
      have hrow : (forUpTo (fun x fb =>
          (pixelColor d p (rowBase p s.1) s.1.hpel x).bind (putPixel fb (y * d.fbWidth + x)))
          s.2 d.fbWidth).isSome :=
        forUpTo_isSome fun x fb hx => isSome_bind
          (pixelColor_isSome d p (rowBase_lt p hlow) hinv.2 (by omega)) fun c =>
          putPixel_isSome hfits hx hy
      obtain ⟨fb, hfb⟩ := Option.isSome_iff_exists.mp hrow
      refine ⟨(endRow p y s.1, fb), by rw [hfb]; rfl, ?_⟩
      exact endRow_keeps hp hinv.1 hinv.2
  rw [hs]
  rfl

/-! ## Refreshes -/

theorem VgaInv.vbePicture_fits (h : VgaInv d) (hon : dispiEnabled d = true)
    (hbpp : (vbePicture d).bpp = 4) :
    RowsFit (vbePicture d).width (vbePicture d).height (4 * (vbePicture d).lineBytes)
      (vbePicture d).start := by
  have hrows := h.vbe hon hbpp
  have hwhole : 4 * (d.vbeLineBytes / 4) = d.vbeLineBytes := by
    have := hrows.1
    omega
  show RowsFit _ _ (4 * (d.vbeLineBytes / 4)) d.vbeStart
  rw [hwhole]
  exact hrows

theorem render_isSome (h : VgaInv d) (hfits : FrameFits d') (tick : Nat) :
    (if (vgaComputePicture d).graphics then vgaRenderGraphics d' (vgaComputePicture d)
      else vgaRenderText d' (vgaComputePicture d) tick).isSome := by
  unfold vgaComputePicture
  cases hon : dispiEnabled d with
  | true =>
    exact vgaRenderVbe_isSome hfits (h.vbePicture_fits hon)
  | false =>
    simp only [Bool.false_eq_true, if_false]
    split
    · exact renderPlanar_isSome hfits (crtcPicture_fits d)
    · exact vgaRenderText_isSome hfits (crtcPicture_fits d) tick

theorem vgaPoll_isSome (h : VgaInv d) (now : BitVec 64) : (vgaPoll d now).isSome := by
  have hstatus := h.same (vgaUpdateStatus_same d now)
  unfold vgaPoll
  dsimp only
  split
  · rfl
  split
  · rfl
  · rw [isSome_map]
    exact render_isSome hstatus (resize_frameFits _ _) _

theorem vgaPoll_same {now : BitVec 64} (h : vgaPoll d now = some d') : SameVbe d d' := by
  have hstatus := vgaUpdateStatus_same d now
  unfold vgaPoll at h
  dsimp only at h
  split at h
  · exact Option.some.inj h ▸ hstatus
  split at h
  · exact Option.some.inj h ▸ hstatus
  · obtain ⟨fb, -, rfl⟩ := Option.map_eq_some_iff.mp h
    exact hstatus.trans ⟨rfl, rfl, rfl, rfl⟩

/-! ## Runs -/

theorem vgaInit_inv : VgaInv vgaInit := ⟨(by decide), fun hon => nomatch hon⟩

theorem vgaStep_inv (h : VgaInv d) {e : VgaEvent} (hstep : vgaStep d e = some d') : VgaInv d' := by
  cases e with
  | portRead addr size now => exact Option.some.inj hstep ▸ h.same (vgaPortRead_same ..)
  | portWrite addr size val => exact Option.some.inj hstep ▸ vgaPortWrite_inv h ..
  | memRead addr size =>
    obtain ⟨r, hr, rfl⟩ := Option.map_eq_some_iff.mp hstep
    exact h.same (vgaMemRead_onlyMemory hr).same
  | memWrite addr size val => exact h.same (vgaMemWrite_onlyMemory hstep).same
  | lfbRead addr size =>
    obtain ⟨v, -, rfl⟩ := Option.map_eq_some_iff.mp hstep
    exact h
  | lfbWrite addr size val => exact h.same (vgaLfbWrite_onlyMemory hstep).same
  | bar2Read addr size now => exact Option.some.inj hstep ▸ h.same (vgaBar2Read_same ..)
  | bar2Write addr size val => exact Option.some.inj hstep ▸ h.same (vgaBar2Write_same ..)
  | lfbBarWritten config => exact Option.some.inj hstep ▸ h.same ⟨rfl, rfl, rfl, rfl⟩
  | bar2Written config => exact Option.some.inj hstep ▸ h.same ⟨rfl, rfl, rfl, rfl⟩
  | poll now => exact h.same (vgaPoll_same hstep)
  | reset => exact Option.some.inj hstep ▸ vgaInit_inv

theorem VgaReachable.inv (h : VgaReachable d) : VgaInv d := by
  induction h with
  | init => exact vgaInit_inv
  | step e _ hstep ih => exact vgaStep_inv ih hstep

/-- In every reachable state an event stays inside video memory and the framebuffer exactly when
it is not a planar aperture access whose bank and offset pass the last cell. -/
theorem vga_inside_iff {d : VgaDevice} (h : VgaReachable d) (e : VgaEvent) :
    (vgaStep d e).isSome ↔ eventFits d e := by
  have hinv := h.inv
  cases e with
  | memRead addr size =>
    rw [vgaStep, isSome_map]
    exact vgaMemRead_isSome_iff hinv addr size
  | memWrite addr size val => exact vgaMemWrite_isSome_iff hinv addr size val
  | lfbRead addr size =>
    rw [vgaStep, isSome_map]
    exact ⟨fun _ => trivial, fun _ => vgaLfbRead_isSome d addr size⟩
  | lfbWrite addr size val => exact ⟨fun _ => trivial, fun _ => vgaLfbWrite_isSome d addr size val⟩
  | poll now => exact ⟨fun _ => trivial, fun _ => vgaPoll_isSome hinv now⟩
  | _ => exact ⟨fun _ => trivial, fun _ => rfl⟩

/-- A character and its attribute, written to the first text cell after reset. -/
theorem vga_inside_init : (vgaStep vgaInit (.memWrite 0xb8000 2 0x0741)).isSome :=
  (vga_inside_iff .init _).mpr fun _ _ hmap => absurd hmap (by decide)

theorem VgaReachable.run (h : VgaReachable d) {es : List VgaEvent}
    (hrun : es.foldlM vgaStep d = some d') : VgaReachable d' := by
  induction es generalizing d with
  | nil => exact Option.some.inj hrun ▸ h
  | cons e es ih =>
    obtain ⟨d1, hstep, hrest⟩ := Option.bind_eq_some_iff.mp hrun
    exact ih (h.step e hstep) hrest

/-- The bank register, the graphics mode and the memory map, as a driver writes them. -/
def lastBank : List VgaEvent :=
  [.portWrite 0x1ce 2 5, .portWrite 0x1cf 2 255, .portWrite 0x3ce 2 0x0005,
    .portWrite 0x3ce 2 0x0406]

/-- With the last bank selected while DISPI is off, a planar byte at `A4000` is cell `0x400000`,
the first one behind video memory. -/
theorem planar_bank_escapes : ∃ d, VgaReachable d ∧ dispiEnabled d = false ∧
    (vgaStep d (.memRead 0xa4000 1)).isSome = false ∧
    (vgaStep d (.memWrite 0xa4000 1 0)).isSome = false := by
  have hrun : (lastBank.foldlM vgaStep vgaInit).map (fun d => (dispiEnabled d,
      (vgaStep d (.memRead 0xa4000 1)).isSome, (vgaStep d (.memWrite 0xa4000 1 0)).isSome)) =
      some (false, false, false) := by
    decide +kernel
  obtain ⟨d, hd, hout⟩ := Option.map_eq_some_iff.mp hrun
  simp only [Prod.mk.injEq] at hout
  exact ⟨d, .run .init hd, hout⟩

end Cemu.Video
