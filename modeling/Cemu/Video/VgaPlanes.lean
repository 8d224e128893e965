import Cemu.Video.VgaBounds

/-!
# The planes behind the aperture

With chain-4 and odd/even addressing off, an offset names one byte of each of the four planes, and a
read latches all four.
-/

namespace Cemu.Video

theorem cell_plane (d : VgaDevice) (off : Nat) {p : Nat} (hp : p < 4) :
    (d.cell off >>> (8 * p)).setWidth 8 = d.vram (off * 4 + p) := by
  ext b hb
  simp only [VgaDevice.cell, BitVec.getElem_setWidth, BitVec.getLsbD_ushiftRight, BitVec.getLsbD_or,
    BitVec.getLsbD_shiftLeft, BitVec.getLsbD_setWidth]
  interval_cases p <;>
    simp (disch := omega) [BitVec.getLsbD_of_ge, BitVec.getLsbD_eq_getElem, decide_eq_true]

/-- The colour compare of the IBM VGA: bit `b` is set when the pixel's bits in the planes cared for
are those of the compared colour. -/
def ComparesColor (d : VgaDevice) (off : Nat) (v : BitVec 8) : Prop :=
  ∀ b < 8, v.getLsbD b = true ↔ ∀ p < 4, (d.gr kGfxColorDontCare).getLsbD p = true →
    (d.vram (off * 4 + p)).getLsbD b = (d.gr kGfxColorCompare).getLsbD p

/-- The plane the read map select register names. -/
def readPlane (d : VgaDevice) : Nat := (d.gr kGfxReadMapSelect).toNat % 4

/-- The byte of one plane against the colour compare register, in the bits cared for. -/
def MatchesPlane (d : VgaDevice) (plane : BitVec 8) : Prop :=
  ∀ b < 8, (d.gr kGfxColorDontCare).getLsbD b = true →
    plane.getLsbD b = (d.gr kGfxColorCompare).getLsbD b

theorem vgaMemRead8_planar {d : VgaDevice} {addr : BitVec 32} {off : Nat}
    (hoff : vgaApertureOffset d addr = some off) (hfits : off < kVgaVramSize / 4)
    (hchain : vgaMemoryChain4 d = false) (hodd : oddEven d = false) :
    vgaMemRead8 d addr = some (planarRead d (d.cell off), { d with latch := d.cell off }) := by
  simp only [vgaMemRead8, hoff, hchain, hodd, VgaDevice.loadCell, if_pos hfits]
  rfl

theorem planarRead_mode1 {d : VgaDevice} (off : Nat) (hmode : (d.gr kGfxMode).getLsbD 3 = true) :
    planarRead d (d.cell off) = ~~~((d.vram (off * 4 + readPlane d) ^^^ d.gr kGfxColorCompare) &&&
      d.gr kGfxColorDontCare) := by
  rw [planarRead, if_pos hmode, cell_plane d off (Nat.mod_lt _ (by decide : 0 < 4))]
  rfl

theorem mode1_eq_ones {plane compare care : BitVec 8} :
    ~~~((plane ^^^ compare) &&& care) = 0xff ↔
      ∀ b < 8, care.getLsbD b = true → plane.getLsbD b = compare.getLsbD b := by
  have hones : (0xff : BitVec 8) = BitVec.allOnes 8 := by decide
  rw [hones, BitVec.eq_of_getLsbD_eq_iff]
  refine forall₂_congr fun b hb => ?_
  simp only [BitVec.getLsbD_not, BitVec.getLsbD_and, BitVec.getLsbD_xor, BitVec.getLsbD_allOnes, hb]
  cases care.getLsbD b <;> simp

/-- Read mode 1 latches the four planes and answers all ones exactly when the byte of the plane the
read map select names agrees with the colour compare register in every bit cared for. The other
three planes do not enter. -/
theorem readMode1_compares_plane {d : VgaDevice} {addr : BitVec 32} {off : Nat}
    (hoff : vgaApertureOffset d addr = some off) (hfits : off < kVgaVramSize / 4)
    (hchain : vgaMemoryChain4 d = false) (hodd : oddEven d = false)
    (hmode : (d.gr kGfxMode).getLsbD 3 = true) :
    ∃ v, vgaMemRead8 d addr = some (v, { d with latch := d.cell off }) ∧
      (v = 0xff ↔ MatchesPlane d (d.vram (off * 4 + readPlane d))) ∧
      ∀ vram, vram (off * 4 + readPlane d) = d.vram (off * 4 + readPlane d) →
        (vgaMemRead8 { d with vram := vram } addr).map Prod.fst = some v := by
  refine ⟨planarRead d (d.cell off), vgaMemRead8_planar hoff hfits hchain hodd, ?_, ?_⟩
  · rw [planarRead_mode1 off hmode]
    exact mode1_eq_ones
  · intro vram hplane
    have hread := vgaMemRead8_planar (d := { d with vram := vram }) hoff hfits hchain hodd
    rw [hread, planarRead_mode1 off hmode]
    refine congrArg some ((planarRead_mode1 (d := { d with vram := vram }) off hmode).trans ?_)
    exact congrArg (fun plane => ~~~((plane ^^^ _) &&& _)) hplane

/-- A screen of two colours: pixel 0 and the pixels 4 to 7 have colour 1, the colour compared, and
the pixels 1 to 3 have colour 0. All planes are cared for. -/
def twoColors : VgaDevice :=
  { vgaInit with
    sr := fun _ => 0
    gr := Function.update (Function.update (Function.update (fun _ => 0) kGfxMode 8)
      kGfxColorCompare 1) kGfxColorDontCare 0x0f
    vram := fun k => if k % 4 = 0 then 0xf1 else 0 }

theorem readMode1_twoColors : vgaMemoryChain4 twoColors = false ∧
    vgaMemRead8 twoColors 0 = some (0xff, { twoColors with latch := twoColors.cell 0 }) := by
  have hoff : vgaApertureOffset twoColors 0 = some 0 := by decide
  obtain ⟨v, hread, hones, -⟩ := readMode1_compares_plane hoff (by decide) (by decide) (by decide)
    (by decide)
  have hplane : MatchesPlane twoColors (twoColors.vram (0 * 4 + readPlane twoColors)) := by
    unfold MatchesPlane
    decide
  rw [hones.mpr hplane] at hread
  exact ⟨by decide, hread⟩

/-- The IBM rule gives 0 for pixel 1, whose colour is not the one compared. -/
theorem readMode1_not_color_compare :
    (vgaMemRead8 twoColors 0).map Prod.fst = some 0xff ∧ ¬ComparesColor twoColors 0 0xff := by
  refine ⟨by decide, fun h => ?_⟩
  have hbit := (h 1 (by decide)).mp (by decide)
  exact absurd (hbit 0 (by decide) (by decide)) (by decide)

/-! ## Writes -/

open BitVec

/-- What the logical unit puts in bit `b` of plane `p`, from a data bit and a mask bit. -/
def logicBit (d : VgaDevice) (p b : Nat) (mask data : Bool) : Bool :=
  let latch := d.latch.getLsbD (8 * p + b)
  if mask then
    match (d.gr kGfxDataRotate).toNat / 8 % 4 with
    | 1 => data && latch
    | 2 => data || latch
    | 3 => data ^^ latch
    | _ => data
  else latch

/-- Bit `b` of plane `p` after a write of `v`, as the four write modes give it. -/
def writtenBit (d : VgaDevice) (v : BitVec 8) (p b : Nat) : Bool :=
  let mask := (d.gr kGfxBitMask).getLsbD b
  match (d.gr kGfxMode).toNat % 4 with
  | 1 => d.latch.getLsbD (8 * p + b)
  | 2 => logicBit d p b mask (v.getLsbD p)
  | 3 => logicBit d p b (mask && (rotated d v).getLsbD b) ((d.gr kGfxSetReset).getLsbD p)
  | _ => logicBit d p b mask (if (d.gr kGfxEnableSetReset).getLsbD p then
      (d.gr kGfxSetReset).getLsbD p else (rotated d v).getLsbD b)

section

variable {p b : Nat} (hp : p < 4) (hb : b < 8)

include hp hb

theorem kPlaneExpand_bit (v : BitVec 8) : (kPlaneExpand v).getLsbD (8 * p + b) = v.getLsbD p := by
  simp only [kPlaneExpand]
  interval_cases p <;> interval_cases b <;> cases v.getLsbD 0 <;> cases v.getLsbD 1 <;>
    cases v.getLsbD 2 <;> cases v.getLsbD 3 <;> rfl

theorem allPlanes_bit (v : BitVec 8) : (allPlanes v).getLsbD (8 * p + b) = v.getLsbD b := by
  simp only [allPlanes, getLsbD_or, getLsbD_shiftLeft, getLsbD_setWidth]
  interval_cases p <;> simp (disch := omega) [getLsbD_of_ge, decide_eq_true]

theorem cell_bit (d : VgaDevice) (off : Nat) :
    (d.cell off).getLsbD (8 * p + b) = (d.vram (off * 4 + p)).getLsbD b := by
  rw [← cell_plane d off hp, getLsbD_setWidth, getLsbD_ushiftRight, decide_eq_true hb]
  rfl

theorem masked_bit (d : VgaDevice) (data : BitVec 32) (mask : BitVec 8) :
    (masked d data mask).getLsbD (8 * p + b) =
      logicBit d p b (mask.getLsbD b) (data.getLsbD (8 * p + b)) := by
  have hlt : 8 * p + b < 32 := by omega
  simp only [masked, logicBit, getLsbD_or, getLsbD_and, getLsbD_not, allPlanes_bit hp hb,
    decide_eq_true hlt, Bool.true_and]
  cases mask.getLsbD b with
  | false => simp
  | true =>
    unfold logicOp
    generalize hop : (d.gr kGfxDataRotate).toNat / 8 % 4 = op
    have : op < 4 := by omega
    interval_cases op <;> simp

theorem writeData_bit (d : VgaDevice) (v : BitVec 8) :
    (writeData d v).getLsbD (8 * p + b) = writtenBit d v p b := by
  have hlt : 8 * p + b < 32 := by omega
  unfold writeData writtenBit
  generalize hmode : (d.gr kGfxMode).toNat % 4 = mode
  have : mode < 4 := by omega
  interval_cases mode
  · simp only [masked_bit hp hb, getLsbD_or, getLsbD_and, getLsbD_not, allPlanes_bit hp hb,
      kPlaneExpand_bit hp hb, decide_eq_true hlt]
    cases (d.gr kGfxEnableSetReset).getLsbD p <;> simp
  · rfl
  · simp only [masked_bit hp hb, kPlaneExpand_bit hp hb]
  · simp only [masked_bit hp hb, kPlaneExpand_bit hp hb, getLsbD_and]

end

/-- A planar write, in all four write modes: the planes the sequencer enables take the bits the
graphics controller gives them, and all else stays. -/
theorem planarWrite_bits {d : VgaDevice} {addr : BitVec 32} {off : Nat}
    (hoff : vgaApertureOffset d addr = some off) (hfits : off < kVgaVramSize / 4)
    (hchain : vgaMemoryChain4 d = false) (hodd : oddEven d = false) (v : BitVec 8) :
    ∃ vram, vgaMemWrite8 d addr v = some { d with vram := vram } ∧
      (∀ k, k / 4 ≠ off → vram k = d.vram k) ∧
      ∀ p < 4, ∀ b < 8, (vram (off * 4 + p)).getLsbD b =
        if (d.sr kSeqPlaneWriteMask).getLsbD p then writtenBit d v p b
        else (d.vram (off * 4 + p)).getLsbD b := by
  simp only [vgaMemWrite8, hoff, hchain, hodd, planarWrite, VgaDevice.loadCell, VgaDevice.storeCell,
    if_pos hfits, Option.bind_some]
  refine ⟨_, rfl, fun k hk => if_neg hk, fun p hp b hb => ?_⟩
  have hcell : (off * 4 + p) / 4 = off := by omega
  have hplane : (off * 4 + p) % 4 = p := by omega
  have hlt : 8 * p + b < 32 := by omega
  rw [if_pos hcell, hplane, getLsbD_setWidth, getLsbD_ushiftRight, getLsbD_or, getLsbD_and,
    getLsbD_and, getLsbD_not, cell_bit hp hb, kPlaneExpand_bit hp hb, writeData_bit hp hb,
    decide_eq_true hb, decide_eq_true hlt]
  cases (d.sr kSeqPlaneWriteMask).getLsbD p <;> simp

/-- Every pixel has colour 1. -/
def colorOne : VgaDevice :=
  { vgaInit with
    sr := fun _ => 0
    gr := Function.update (Function.update (Function.update (fun _ => 0) kGfxMode 8)
      kGfxColorCompare 1) kGfxColorDontCare 0x0f
    vram := fun k => if k % 4 = 0 then 0xff else 0 }

theorem planarWrite_secondPlane :
    let d := { colorOne with
      sr := Function.update (fun _ => 0) kSeqPlaneWriteMask 2
      gr := Function.update colorOne.gr kGfxBitMask 0xff }
    ∃ vram, vgaMemWrite8 d 0 0x0f = some { d with vram := vram } ∧
      (vram 1).getLsbD 0 = true ∧ (vram 0).getLsbD 4 = true := by
  intro d
  have hoff : vgaApertureOffset d 0 = some 0 := by decide
  obtain ⟨vram, hwrite, -, hbit⟩ := planarWrite_bits hoff (by decide) (by decide) (by decide) 0x0f
  refine ⟨vram, hwrite, ?_, ?_⟩
  · exact (hbit 1 (by decide) 0 (by decide)).trans (by decide)
  · exact (hbit 0 (by decide) 4 (by decide)).trans (by decide)

end Cemu.Video
