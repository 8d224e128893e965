import Cemu.Video.VgaRender

/-!
# Video memory accesses stay inside the card

Whole runs of the card: port, aperture and BAR accesses, BAR programming, refreshes and resets.
Every renderer stays inside video memory and the framebuffer in every reachable state. An aperture
access does so exactly when it is not a planar access through the bank window behind the last
cell: the source compares the plane offset with the size in bytes.
-/

namespace Cemu.Video

open VgaDevice Option Nat

/-! ## Runs -/

def kResetCrtc : List (BitVec 8) :=
  [0x5f, 0x4f, 0x50, 0x82, 0x55, 0x81, 0xbf, 0x1f, 0x00, 0x4f, 0x0d, 0x0e, 0x00, 0x00, 0x00, 0x00,
    0x9c, 0x8e, 0x8f, 0x28, 0x1f, 0x96, 0xb9, 0xa3, 0xff]

def kResetSequencer : List (BitVec 8) := [0x00, 0x03, 0x00, 0x02]

def kResetGraphics : List (BitVec 8) := [0x00, 0x00, 0x00, 0x00, 0x00, 0x10, 0x0e, 0x0f, 0xff]

def kResetAttribute : List (BitVec 8) :=
  [0x00, 0x01, 0x02, 0x03, 0x04, 0x05, 0x14, 0x07, 0x38, 0x39, 0x3a, 0x3b, 0x3c, 0x3d, 0x3e, 0x3f,
    0x0c, 0x00, 0x0f, 0x08]

def kResetPalette : List (BitVec 8) :=
  [0x00, 0x00, 0x00, 0x00, 0x00, 0x2a, 0x00, 0x2a, 0x00, 0x00, 0x2a, 0x2a, 0x2a, 0x00, 0x00, 0x2a,
    0x00, 0x2a, 0x2a, 0x2a, 0x00, 0x2a, 0x2a, 0x2a, 0x00, 0x00, 0x15, 0x00, 0x00, 0x3f, 0x00, 0x2a,
    0x15, 0x00, 0x2a, 0x3f, 0x2a, 0x00, 0x15, 0x2a, 0x00, 0x3f, 0x2a, 0x2a, 0x15, 0x2a, 0x2a, 0x3f,
    0x00, 0x15, 0x00, 0x00, 0x15, 0x2a, 0x00, 0x3f, 0x00, 0x00, 0x3f, 0x2a, 0x2a, 0x15, 0x00, 0x2a,
    0x15, 0x2a, 0x2a, 0x3f, 0x00, 0x2a, 0x3f, 0x2a, 0x00, 0x15, 0x15, 0x00, 0x15, 0x3f, 0x00, 0x3f,
    0x15, 0x00, 0x3f, 0x3f, 0x2a, 0x15, 0x15, 0x2a, 0x15, 0x3f, 0x2a, 0x3f, 0x15, 0x2a, 0x3f, 0x3f,
    0x15, 0x00, 0x00, 0x15, 0x00, 0x2a, 0x15, 0x2a, 0x00, 0x15, 0x2a, 0x2a, 0x3f, 0x00, 0x00, 0x3f,
    0x00, 0x2a, 0x3f, 0x2a, 0x00, 0x3f, 0x2a, 0x2a, 0x15, 0x00, 0x15, 0x15, 0x00, 0x3f, 0x15, 0x2a,
    0x15, 0x15, 0x2a, 0x3f, 0x3f, 0x00, 0x15, 0x3f, 0x00, 0x3f, 0x3f, 0x2a, 0x15, 0x3f, 0x2a, 0x3f,
    0x15, 0x15, 0x00, 0x15, 0x15, 0x2a, 0x15, 0x3f, 0x00, 0x15, 0x3f, 0x2a, 0x3f, 0x15, 0x00, 0x3f,
    0x15, 0x2a, 0x3f, 0x3f, 0x00, 0x3f, 0x3f, 0x2a, 0x15, 0x15, 0x15, 0x15, 0x15, 0x3f, 0x15, 0x3f,
    0x15, 0x15, 0x3f, 0x3f, 0x3f, 0x15, 0x15, 0x3f, 0x15, 0x3f, 0x3f, 0x3f, 0x15, 0x3f, 0x3f, 0x3f]

def resetRegisters : VgaDevice :=
  { vram := fun _ => 0, latch := 0
    cr := fun i => kResetCrtc.getD i.val 0, crIndex := 0
    sr := fun i => (0x03 :: kResetSequencer).getD i.val 0, srIndex := 0
    gr := fun i => kResetGraphics.getD i.val 0, grIndex := 0
    ar := fun i => kResetAttribute.getD i.val 0, arIndex := 0, arFlipFlop := false
    misc := 0x67, feature := 0, st00 := 0, st01 := 0, cgaMode := 0x28, cgaColor := 0x30
    dac := fun k => kResetPalette.getD k 0, dacMask := 0xff, dacReadIndex := 0, dacWriteIndex := 0
    dacSubIndex := 0, dacState := 0, dacCache := fun _ => 0
    dirty := true, version := 1, fb := fun _ => 0, fbWidth := 0, fbHeight := 0
    lastRenderUs := 0, renderedBlinkTick := 0
    dispiIndex := ⟨0, by decide⟩, dispiId := 0xb0c5, dispi := fun _ => 0
    vbeLineBytes := 0, vbeStart := 0, bankOffset := 0, lfbBase := 0, bar2Base := 0 }

def vgaInit : VgaDevice := resetRegisters.resize (vgaComputePicture resetRegisters)

inductive VgaEvent where
  | portRead (addr : BitVec 64) (size : Nat) (now : Nat → BitVec 64)
  | portWrite (addr : BitVec 64) (size : Nat) (val : BitVec 64)
  | memRead (addr : BitVec 64) (size : Nat)
  | memWrite (addr : BitVec 64) (size : Nat) (val : BitVec 64)
  | lfbRead (addr : BitVec 64) (size : Nat)
  | lfbWrite (addr : BitVec 64) (size : Nat) (val : BitVec 64)
  | bar2Read (addr : BitVec 64) (size : Nat) (now : Nat → BitVec 64)
  | bar2Write (addr : BitVec 64) (size : Nat) (val : BitVec 64)
  | lfbBarWritten (config : BitVec 32)
  | bar2Written (config : BitVec 32)
  | poll (now : BitVec 64)
  | reset

def vgaStep (d : VgaDevice) : VgaEvent → Option VgaDevice
  | .portRead addr size now => some (vgaPortRead d addr size now).2
  | .portWrite addr size val => some (vgaPortWrite d addr size val)
  | .memRead addr size => (vgaMemRead d addr size).map Prod.snd
  | .memWrite addr size val => vgaMemWrite d addr size val
  | .lfbRead addr size => (vgaLfbRead d addr size).map fun _ => d
  | .lfbWrite addr size val => vgaLfbWrite d addr size val
  | .bar2Read addr size now => some (vgaBar2Read d addr now size)
  | .bar2Write addr size val => some (vgaBar2Write d addr val size)
  | .lfbBarWritten config => some { d with lfbBase := (config &&& ~~~0xffffff#32).setWidth 64 }
  | .bar2Written config => some { d with bar2Base := (config &&& ~~~0xfff#32).setWidth 64 }
  | .poll now => vgaPoll d now
  | .reset => some vgaInit

inductive VgaReachable : VgaDevice → Prop
  | init : VgaReachable vgaInit
  | step {d d' : VgaDevice} (e : VgaEvent) (h : VgaReachable d) (hstep : vgaStep d e = some d') :
      VgaReachable d'

/-! ## The condition -/

def cellFits (d : VgaDevice) (addr : BitVec 32) : Prop :=
  mapMode d = 1 → vgaMemoryChain4 d = false → oddEven d = false → addr.toNat % 0x20000 < 0x10000 →
    addr.toNat % 0x20000 + d.bankOffset / 4 < kVgaVramSize / 4

def eventFits (d : VgaDevice) : VgaEvent → Prop
  | .memRead addr size => ∀ i < size, cellFits d (laneAddr addr i)
  | .memWrite addr size _ => ∀ i < size, cellFits d (laneAddr addr i)
  | _ => True

/-! ## The invariant -/

/-- What the invariant keeps of a four-bit mode: its rows are whole cells, as wide as the picture
asks for, and end inside video memory. -/
def RowsFit (xres yres line start : Nat) : Prop :=
  line % 4 = 0 ∧ xres ≤ 2 * line ∧ 4 * start + yres * line ≤ kVgaVramSize

/-- The bank is inside the card, and the rows of a four-bit mode are inside its memory. -/
structure VgaInv (d : VgaDevice) : Prop where
  bank : d.bankOffset + 0x10000 ≤ kVgaVramSize
  vbe : dispiEnabled d = true → (d.dispi kDispiBpp).toNat = 4 →
    RowsFit (d.dispi kDispiXres).toNat (d.dispi kDispiYres).toNat d.vbeLineBytes d.vbeStart

structure SameVbe (d d' : VgaDevice) : Prop where
  dispi : d'.dispi = d.dispi
  line : d'.vbeLineBytes = d.vbeLineBytes
  start : d'.vbeStart = d.vbeStart
  bank : d'.bankOffset = d.bankOffset

theorem SameVbe.trans {d d' d'' : VgaDevice} (h : SameVbe d d') (h' : SameVbe d' d'') :
    SameVbe d d'' :=
  ⟨h'.dispi.trans h.dispi, h'.line.trans h.line, h'.start.trans h.start, h'.bank.trans h.bank⟩

theorem VgaInv.same {d d' : VgaDevice} (h : VgaInv d) (hsame : SameVbe d d') : VgaInv d' where
  bank := by rw [hsame.bank]; exact h.bank
  vbe := by
    unfold dispiEnabled
    rw [hsame.dispi, hsame.line, hsame.start]
    exact h.vbe

section

variable (d : VgaDevice)

theorem vgaUpdateStatus_same (now : BitVec 64) : SameVbe d (vgaUpdateStatus d now) := by
  unfold vgaUpdateStatus
  dsimp only
  split <;> exact ⟨rfl, rfl, rfl, rfl⟩

theorem vgaPortRead8_same (port : Nat) (now : BitVec 64) :
    SameVbe d (vgaPortRead8 d port now).2 := by
  have hstatus := vgaUpdateStatus_same d now
  unfold vgaPortRead8
  split
  · unfold vgaPortReadReg
    split <;> try exact ⟨rfl, rfl, rfl, rfl⟩
    · unfold dacRead
      split <;> exact ⟨rfl, rfl, rfl, rfl⟩
    all_goals exact ⟨hstatus.dispi, hstatus.line, hstatus.start, hstatus.bank⟩
  · exact ⟨rfl, rfl, rfl, rfl⟩

theorem vgaPortWrite8_same (port : Nat) (val : BitVec 8) :
    SameVbe d (vgaPortWrite8 d port val) := by
  have hattr : SameVbe d (attrWrite d val) := by
    unfold attrWrite
    split
    · exact ⟨rfl, rfl, rfl, rfl⟩
    · split <;> exact ⟨rfl, rfl, rfl, rfl⟩
  have hdac : SameVbe d (dacWrite d val) := by
    unfold dacWrite
    split <;> exact ⟨rfl, rfl, rfl, rfl⟩
  have hcrtc : SameVbe d (crtcWrite d val) := by
    unfold crtcWrite
    split
    · split <;> exact ⟨rfl, rfl, rfl, rfl⟩
    · split <;> exact ⟨rfl, rfl, rfl, rfl⟩
  unfold vgaPortWrite8
  split
  · exact ⟨rfl, rfl, rfl, rfl⟩
  split <;> try exact ⟨rfl, rfl, rfl, rfl⟩
  · exact ⟨hattr.dispi, hattr.line, hattr.start, hattr.bank⟩
  · exact hdac
  all_goals exact hcrtc

theorem vgaPortRead_same (addr : BitVec 64) (size : Nat) (now : Nat → BitVec 64) :
    SameVbe d (vgaPortRead d addr size now).2 := by
  have hlanes : ∀ n, SameVbe d (readLanes d addr now n) := by
    intro n
    induction n with
    | zero => exact ⟨rfl, rfl, rfl, rfl⟩
    | succ n ih => exact ih.trans (vgaPortRead8_same ..)
  unfold vgaPortRead
  split
  · exact ⟨rfl, rfl, rfl, rfl⟩
  · exact hlanes size

theorem vgaBar2Read_same (addr : BitVec 64) (now : Nat → BitVec 64) (n : Nat) :
    SameVbe d (vgaBar2Read d addr now n) := by
  induction n with
  | zero => exact ⟨rfl, rfl, rfl, rfl⟩
  | succ n ih =>
    unfold vgaBar2Read
    split
    · exact ih.trans (vgaPortRead8_same ..)
    · exact ih

theorem vgaBar2Write_same (addr val : BitVec 64) (n : Nat) :
    SameVbe d (vgaBar2Write d addr val n) := by
  induction n with
  | zero => exact ⟨rfl, rfl, rfl, rfl⟩
  | succ n ih =>
    unfold vgaBar2Write
    split
    · exact ih.trans (vgaPortWrite8_same ..)
    · exact ih

end

/-! ## DISPI modes -/

theorem VbeMode.place_same (m : VbeMode) :
    m.place.bpp = m.bpp ∧ m.place.xres = m.xres ∧ m.place.yres = m.yres ∧
      m.place.line = m.line := by
  unfold VbeMode.place
  dsimp only
  split
  · exact ⟨rfl, rfl, rfl, rfl⟩
  · split <;> exact ⟨rfl, rfl, rfl, rfl⟩

theorem VbeMode.place_fits (m : VbeMode) (h : m.yres * m.line ≤ kVgaVramSize) :
    m.place.offset + m.yres * m.line ≤ kVgaVramSize := by
  unfold VbeMode.place
  dsimp only
  split
  · assumption
  · split
    · assumption
    · simpa using h

theorem vbeMode_fits (r : Fin kDispiRegCount → BitVec 16) (hbpp : (vbeMode r).bpp = 4) :
    RowsFit (vbeMode r).xres (vbeMode r).yres (vbeMode r).line ((vbeMode r).offset / 4) := by
  unfold vbeMode at hbpp ⊢
  dsimp only at hbpp ⊢
  generalize hm : VbeMode.mk _ _ _ _ _ _ _ _ _ = m at hbpp ⊢
  obtain ⟨hb, hx, hy, hl⟩ := m.place_same
  rw [hb] at hbpp
  rw [hx, hy, hl]
  have hline : m.line % 4 = 0 ∧ m.xres ≤ 2 * m.line := by
    subst hm
    dsimp only at hbpp ⊢
    rw [hbpp]
    simp only [dispiBits, true_or, if_true, kDispiMaxXres]
    have hxres :
        (if (r kDispiXres).toNat / 8 * 8 = 0 then 8 else (r kDispiXres).toNat / 8 * 8) % 8 = 0 := by
      split <;> omega
    omega
  have hrows : m.yres * m.line ≤ kVgaVramSize := by
    have hmax : m.yres ≤ if m.line = 0 then 1 else kVgaVramSize / m.line := by
      subst hm
      exact min_le_right _ _
    split at hmax
    next h => rw [h]; exact zero_le _
    next => exact le_trans (mul_le_mul_right _ hmax) (div_mul_le_self _ _)
  have hfits := m.place_fits hrows
  refine ⟨hline.1, hline.2, ?_⟩
  omega

theorem vbeMode_lt (r : Fin kDispiRegCount → BitVec 16) :
    (vbeMode r).bpp < 2 ^ 16 ∧ (vbeMode r).xres < 2 ^ 16 ∧ (vbeMode r).yres < 2 ^ 16 := by
  unfold vbeMode
  dsimp only
  generalize hm : VbeMode.mk _ _ _ _ _ _ _ _ _ = m
  obtain ⟨hb, hx, hy, -⟩ := m.place_same
  rw [hb, hx, hy]
  subst hm
  refine ⟨?_, ?_, ?_⟩
  · dsimp only
    split <;> omega
  · exact lt_of_le_of_lt (min_le_right _ _) (by decide)
  · exact lt_of_le_of_lt (le_trans (min_le_left _ _) (min_le_right _ _)) (by decide)

section

variable (d : VgaDevice)

@[simp] theorem VgaDevice.setDispi_bankOffset (i : Fin kDispiRegCount) (v : BitVec 16) :
    (d.setDispi i v).bankOffset = d.bankOffset :=
  rfl

theorem VgaDevice.setCr_same (i : Fin kCrtcCount) (v : BitVec 8) : SameVbe d (d.setCr i v) :=
  ⟨rfl, rfl, rfl, rfl⟩

theorem VgaDevice.setGr_same (i : Fin 16) (v : BitVec 8) : SameVbe d (d.setGr i v) :=
  ⟨rfl, rfl, rfl, rfl⟩

theorem VgaDevice.setMode_dispi (m : VbeMode) : (d.setMode m).dispi kDispiBpp = .ofNat 16 m.bpp ∧
      (d.setMode m).dispi kDispiXres = .ofNat 16 m.xres ∧
      (d.setMode m).dispi kDispiYres = .ofNat 16 m.yres :=
  ⟨rfl, rfl, rfl⟩

theorem setMode_inv (hbank : d.bankOffset + 0x10000 ≤ kVgaVramSize) :
    VgaInv (d.setMode (vbeMode d.dispi)) where
  bank := by
    simp only [setMode, setDispi_bankOffset]
    exact hbank
  vbe _ hbpp := by
    obtain ⟨hb, hx, hy⟩ := d.setMode_dispi (vbeMode d.dispi)
    obtain ⟨hblt, hxlt, hylt⟩ := vbeMode_lt d.dispi
    rw [hb, BitVec.toNat_ofNat, mod_eq_of_lt hblt] at hbpp
    rw [hx, hy, BitVec.toNat_ofNat, BitVec.toNat_ofNat, mod_eq_of_lt hxlt, mod_eq_of_lt hylt]
    exact vbeMode_fits d.dispi hbpp

theorem vgaDispiFixup_inv (hbank : d.bankOffset + 0x10000 ≤ kVgaVramSize) :
    VgaInv (vgaDispiFixup d) := by
  unfold vgaDispiFixup
  split
  · exact setMode_inv d hbank
  · exact ⟨hbank, fun hon => absurd hon ‹_›⟩

theorem vgaDispiUpdateRegs_same : SameVbe d (vgaDispiUpdateRegs d) := by
  unfold vgaDispiUpdateRegs
  split
  · exact ⟨rfl, rfl, rfl, rfl⟩
  · exact (d.setGr_same ..).trans <| (setCr_same ..).trans <|
      (setCr_same ..).trans <| (setCr_same ..).trans <|
      (setCr_same ..).trans <| (setCr_same ..).trans <|
      (setCr_same ..).trans <| (setCr_same ..).trans (setGr_same ..)

theorem dispiEnableMode_inv (val : BitVec 16) (hbank : d.bankOffset + 0x10000 ≤ kVgaVramSize) :
    VgaInv (dispiEnableMode d val) := by
  have hmode :=
    (vgaDispiFixup_inv (((d.setDispi kDispiVirtWidth 0).setDispi kDispiXOffset 0).setDispi
    kDispiYOffset 0) hbank).same (vgaDispiUpdateRegs_same _)
  unfold dispiEnableMode
  dsimp only
  split
  · exact hmode.same ⟨rfl, rfl, rfl, rfl⟩
  · exact hmode

end

variable {d d' : VgaDevice} {k size : Nat} {v mask : BitVec 8} {addr : BitVec 32}

theorem vgaDispiWriteReg_inv (h : VgaInv d) (val : BitVec 16) :
    VgaInv (vgaDispiWriteReg d val) := by
  unfold vgaDispiWriteReg
  split
  · split
    · exact h.same ⟨rfl, rfl, rfl, rfl⟩
    · exact h
  · exact h
  · exact h
  · -- The bank register; it selects a 64 KiB window of the card.
    have hlt : val.toNat % (kVgaVramSize / 0x10000) < kVgaVramSize / 0x10000 :=
      mod_lt _ (by decide)
    refine ⟨?_, h.vbe⟩
    dsimp only
    omega
  · dsimp only
    split
    · exact (dispiEnableMode_inv (d.setDispi kDispiEnable val) val h.bank).same ⟨rfl, rfl, rfl, rfl⟩
    rename_i hfirst
    split
    · rename_i hoff
      have hoff' : dispiEnabled (d.setDispi kDispiEnable val) = false := by simpa using hoff
      exact ⟨(by decide : 0 + 0x10000 ≤ kVgaVramSize), fun hon => nomatch hoff'.symm.trans hon⟩
    · rename_i hon
      refine ⟨h.bank, fun _ => h.vbe ?_⟩
      simp only [Bool.not_eq_true'] at hon
      simpa [hon] using hfirst
  · exact ((vgaDispiFixup_inv (d.setDispi d.dispiIndex val) h.bank).same
      (vgaDispiUpdateRegs_same _)).same ⟨rfl, rfl, rfl, rfl⟩

theorem vgaPortWrite_inv (h : VgaInv d) (addr : BitVec 64) (size : Nat) (val : BitVec 64) :
    VgaInv (vgaPortWrite d addr size val) := by
  have hlanes : ∀ n, SameVbe d (writeLanes d addr val n) := by
    intro n
    induction n with
    | zero => exact ⟨rfl, rfl, rfl, rfl⟩
    | succ n ih => exact ih.trans (vgaPortWrite8_same ..)
  unfold vgaPortWrite
  split
  · dsimp only
    split
    · split
      · exact h.same ⟨rfl, rfl, rfl, rfl⟩
      · exact h
    · split
      · exact vgaDispiWriteReg_inv h _
      · exact h
  · exact h.same (hlanes size)

/-! ## The aperture -/

def OnlyMemory (d d' : VgaDevice) : Prop :=
  ∃ vram latch dirty, d' = { d with vram := vram, latch := latch, dirty := dirty }

theorem OnlyMemory.refl (d : VgaDevice) : OnlyMemory d d := ⟨d.vram, d.latch, d.dirty, rfl⟩

theorem OnlyMemory.trans {d'' : VgaDevice} (h : OnlyMemory d d') (h' : OnlyMemory d' d'') :
    OnlyMemory d d'' := by
  obtain ⟨_, _, _, rfl⟩ := h
  obtain ⟨vram, latch, dirty, rfl⟩ := h'
  exact ⟨vram, latch, dirty, rfl⟩

theorem OnlyMemory.same (h : OnlyMemory d d') : SameVbe d d' := by
  obtain ⟨_, _, _, rfl⟩ := h
  exact ⟨rfl, rfl, rfl, rfl⟩

theorem OnlyMemory.cellFits_iff (h : OnlyMemory d d') (addr : BitVec 32) :
    cellFits d' addr ↔ cellFits d addr := by
  obtain ⟨_, _, _, rfl⟩ := h
  rfl

theorem store_onlyMemory (h : d.store k v = some d') : OnlyMemory d d' := by
  unfold store at h
  split at h
  · exact some.inj h ▸ ⟨_, _, _, rfl⟩
  · exact nomatch h

theorem storeMasked_onlyMemory (h : storeMasked d mask k v = some d') : OnlyMemory d d' := by
  unfold storeMasked at h
  split at h
  · exact store_onlyMemory h
  · exact some.inj h ▸ .refl d

theorem vgaMemWrite8_onlyMemory (h : vgaMemWrite8 d addr v = some d') : OnlyMemory d d' := by
  unfold vgaMemWrite8 at h
  split at h
  · exact some.inj h ▸ .refl d
  split at h
  · exact storeMasked_onlyMemory h
  split at h
  · exact storeMasked_onlyMemory h
  obtain ⟨cell, -, hstore⟩ := bind_eq_some_iff.mp h
  unfold storeCell at hstore
  split at hstore
  · exact some.inj hstore ▸ ⟨_, _, _, rfl⟩
  · exact nomatch hstore

theorem vgaMemRead8_onlyMemory {r : BitVec 8 × VgaDevice} (h : vgaMemRead8 d addr = some r) :
    OnlyMemory d r.2 := by
  unfold vgaMemRead8 at h
  split at h
  · exact some.inj h ▸ .refl d
  split at h
  · obtain ⟨v, -, rfl⟩ := map_eq_some_iff.mp h
    exact .refl d
  split at h
  · obtain ⟨v, -, rfl⟩ := map_eq_some_iff.mp h
    exact .refl d
  · obtain ⟨cell, -, rfl⟩ := map_eq_some_iff.mp h
    exact ⟨_, _, _, rfl⟩

/-- Where an aperture offset is used as a byte index or doubled, it is inside; where it is a cell
index it is inside exactly under `cellFits`. -/
theorem apertureOffset_bounds (h : VgaInv d) {off : Nat}
    (hoff : vgaApertureOffset d addr = some off) :
    off < kVgaVramSize ∧ (vgaMemoryChain4 d = false → vgaOddEvenOffset d off < kVgaVramSize) ∧
      (vgaMemoryChain4 d = false → oddEven d = false →
        (off < kVgaVramSize / 4 ↔ cellFits d addr)) := by
  have hbank := h.bank
  have hstart : vgaMemoryChain4 d = false → bankStart d = d.bankOffset / 4 := fun hchain => by
    rw [bankStart, hchain]
    rfl
  have hodd : vgaOddEvenOffset d off ≤ 2 * off + 3 := by
    unfold vgaOddEvenOffset
    omega
  unfold vgaApertureOffset at hoff
  unfold cellFits kVgaVramSize at *
  dsimp only at hoff
  split at hoff
  · split at hoff
    · exact nomatch hoff
    split at hoff
    · exact nomatch hoff
    obtain rfl := some.inj hoff
    refine ⟨by omega, fun hchain => ?_, fun hchain hlinear => ?_⟩
    · rw [hstart hchain] at hodd ⊢
      omega
    · simp only [hstart hchain, hchain, hlinear, true_implies]
      omega
  all_goals
    have hne : mapMode d ≠ 1 := by omega
    have hsmall : off < 0x20000 := by
      first
      | split at hoff
        · obtain rfl := some.inj hoff
          omega
        · exact nomatch hoff
      | obtain rfl := some.inj hoff
        omega
    refine ⟨by omega, fun _ => by omega,
      fun _ _ => ⟨fun _ hmode => absurd hmode hne, fun _ => by omega⟩⟩

/-- An access the aperture does not answer is not a planar one through the bank, since the bank
never reaches the end of video memory in cells. -/
theorem apertureOffset_none (h : VgaInv d) (hnone : vgaApertureOffset d addr = none) :
    cellFits d addr := by
  intro hmode hchain _ hlow
  have hbank := h.bank
  unfold vgaApertureOffset bankStart at hnone
  rw [hmode, hchain] at hnone
  simp only [Bool.false_eq_true, if_false] at hnone
  split at hnone
  · omega
  · split at hnone
    · omega
    · exact nomatch hnone

theorem load_isSome (h : k < kVgaVramSize) : (d.load k).isSome := by
  rw [load, if_pos h]
  rfl

theorem storeMasked_isSome (h : k < kVgaVramSize) : (storeMasked d mask k v).isSome := by
  unfold storeMasked store
  split <;> rfl

theorem planarWrite_isSome_iff (d : VgaDevice) (off : Nat) (v : BitVec 8) :
    (planarWrite d off v).isSome ↔ off < kVgaVramSize / 4 := by
  unfold planarWrite loadCell storeCell
  by_cases h : off < kVgaVramSize / 4
  · simp [h]
  · simp [h]

theorem vgaMemWrite8_isSome_iff (h : VgaInv d) (addr : BitVec 32) (v : BitVec 8) :
    (vgaMemWrite8 d addr v).isSome ↔ cellFits d addr := by
  unfold vgaMemWrite8
  split
  · rename_i hnone
    exact ⟨fun _ => apertureOffset_none h hnone, fun _ => rfl⟩
  rename_i off hoff
  obtain ⟨hbyte, hodd, hcell⟩ := apertureOffset_bounds h hoff
  split
  · rename_i hchain
    exact ⟨fun _ _ hoff => absurd hchain (by simp [hoff]), fun _ => storeMasked_isSome hbyte⟩
  rename_i hchain
  rw [Bool.not_eq_true] at hchain
  split
  · rename_i heven
    exact ⟨fun _ _ _ hoff => absurd heven (by simp [hoff]),
      fun _ => storeMasked_isSome (hodd hchain)⟩
  · rename_i heven
    rw [planarWrite_isSome_iff, hcell hchain (Bool.not_eq_true _ ▸ heven)]

theorem vgaMemRead8_isSome_iff (h : VgaInv d) (addr : BitVec 32) :
    (vgaMemRead8 d addr).isSome ↔ cellFits d addr := by
  unfold vgaMemRead8
  split
  · rename_i hnone
    exact ⟨fun _ => apertureOffset_none h hnone, fun _ => rfl⟩
  rename_i off hoff
  obtain ⟨hbyte, hodd, hcell⟩ := apertureOffset_bounds h hoff
  split
  · rename_i hchain
    rw [isSome_map]
    exact ⟨fun _ _ hoff => absurd hchain (by simp [hoff]), fun _ => load_isSome hbyte⟩
  rename_i hchain
  rw [Bool.not_eq_true] at hchain
  split
  · rename_i heven
    rw [isSome_map]
    exact ⟨fun _ _ _ hoff => absurd heven (by simp [hoff]), fun _ => load_isSome (hodd hchain)⟩
  rename_i heven
  rw [← hcell hchain (Bool.not_eq_true _ ▸ heven), loadCell]
  by_cases h : off < kVgaVramSize / 4
  · simp [h]
  · simp [h]

theorem vgaMemRead_isSome_iff (h : VgaInv d) (addr : BitVec 64) (size : Nat) :
    (vgaMemRead d addr size).isSome ↔ ∀ i < size, cellFits d (laneAddr addr i) := by
  refine forUpTo_isSome_iff (I := fun s => OnlyMemory d s.2) (.refl d) ?_ ?_
  · intro k s s' hs hbody
    obtain ⟨r, hr, rfl⟩ := map_eq_some_iff.mp hbody
    exact hs.trans (vgaMemRead8_onlyMemory hr)
  · intro k s hs
    rw [isSome_map, vgaMemRead8_isSome_iff (h.same hs.same), hs.cellFits_iff]

theorem vgaMemWrite_isSome_iff (h : VgaInv d) (addr : BitVec 64) (size : Nat) (val : BitVec 64) :
    (vgaMemWrite d addr size val).isSome ↔ ∀ i < size, cellFits d (laneAddr addr i) := by
  rw [vgaMemWrite, isSome_map]
  refine forUpTo_isSome_iff (OnlyMemory.refl d) ?_ ?_
  · intro k s s' hs hbody
    exact hs.trans (vgaMemWrite8_onlyMemory hbody)
  · intro k s hs
    rw [vgaMemWrite8_isSome_iff (h.same hs.same), hs.cellFits_iff]

variable {addr : BitVec 64}

theorem vgaMemRead_onlyMemory {r : BitVec 64 × VgaDevice}
    (h : vgaMemRead d addr size = some r) : OnlyMemory d r.2 := by
  refine forUpTo_inv (I := fun s => OnlyMemory d s.2) (.refl d) ?_ h
  intro k s s' hs hbody
  obtain ⟨r, hr, rfl⟩ := map_eq_some_iff.mp hbody
  exact hs.trans (vgaMemRead8_onlyMemory hr)

theorem vgaMemWrite_onlyMemory {val : BitVec 64}
    (h : vgaMemWrite d addr size val = some d') : OnlyMemory d d' := by
  obtain ⟨s, hs, rfl⟩ := map_eq_some_iff.mp h
  have hloop : OnlyMemory d s := forUpTo_inv (.refl d)
    (fun _ _ _ hs hbody => hs.trans (vgaMemWrite8_onlyMemory hbody)) hs
  exact hloop.trans ⟨_, _, _, rfl⟩

section

variable (d : VgaDevice) (addr : BitVec 64)

theorem lfbIndex_lt (i : Nat) : lfbIndex d addr i < kVgaVramSize :=
  mod_lt _ (by decide)

theorem vgaLfbRead_isSome (size : Nat) :
    (vgaLfbRead d addr size).isSome := by
  refine forUpTo_isSome fun k s _ => ?_
  rw [isSome_map]
  exact load_isSome (lfbIndex_lt d addr k)

theorem vgaLfbWrite_isSome (size : Nat) (val : BitVec 64) :
    (vgaLfbWrite d addr size val).isSome := by
  rw [vgaLfbWrite, isSome_map]
  refine forUpTo_isSome fun k s _ => ?_
  rw [store, if_pos (lfbIndex_lt d addr k)]
  rfl

end

theorem vgaLfbWrite_onlyMemory {val : BitVec 64}
    (h : vgaLfbWrite d addr size val = some d') : OnlyMemory d d' := by
  obtain ⟨s, hs, rfl⟩ := map_eq_some_iff.mp h
  have hloop : OnlyMemory d s := forUpTo_inv (.refl d)
    (fun _ _ _ hs hbody => hs.trans (store_onlyMemory hbody)) hs
  exact hloop.trans ⟨_, _, _, rfl⟩

end Cemu.Video
