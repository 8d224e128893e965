import Cemu.Storage.IdeCommand

/-!
# The geometry of a disk

INITIALIZE DEVICE PARAMETERS names the sectors per track in the count register and, in ATA, the
last head in the low nibble of the device register. The source takes the number of heads from the
sector number register, so that CHS commands address the disk as ATA has it exactly when the two
registers agree.
-/

namespace Cemu.Storage

namespace IdeChannel

variable (t : IdeChannel)

def cylinderNo : Nat := t.lbaHigh.toNat * 0x100 + t.lbaMid.toNat

def headNo : Nat := t.head.toNat % 0x10

def sectorNo : Nat := t.lbaLow.toNat

/-- The task file `t` addresses by CHS, inside a geometry of `h` heads and `s` sectors. -/
def ChsIn (h s : Nat) : Prop :=
  t.head.getLsbD 6 = false ∧ t.headNo < h ∧ 1 ≤ t.sectorNo ∧ t.sectorNo ≤ s

end IdeChannel

/-- CHS addressing of a disk with `h` heads and `s` sectors per track, over every task file. -/
structure ChsRight (h s : Nat) (dr : IdeDrive) : Prop where
  addresses : ∀ t : IdeChannel, t.ChsIn h s →
    commandLba t dr = some ((t.cylinderNo * h + t.headNo) * s + t.sectorNo - 1)
  distinct : ∀ t t' : IdeChannel, t.ChsIn h s → t'.ChsIn h s →
    commandLba t dr = commandLba t' dr →
    t.cylinderNo = t'.cylinderNo ∧ t.headNo = t'.headNo ∧ t.sectorNo = t'.sectorNo
  reached : ∀ lba < min dr.blocks (65536 * h * s),
    ∃ t : IdeChannel, t.ChsIn h s ∧ commandLba t dr = some lba

section

variable {h s : Nat} {dr : IdeDrive} {t t' : IdeChannel}

/-- What a CHS command addresses, whatever the geometry of the disk. -/
theorem commandLba_chs (hchs : t.head.getLsbD 6 = false) :
    commandLba t dr = if t.sectorNo = 0 ∨ dr.sectorsPerTrack.toNat < t.sectorNo ∨
        dr.heads.toNat ≤ t.headNo then none
      else some ((t.cylinderNo * dr.heads.toNat + t.headNo) * dr.sectorsPerTrack.toNat +
        (t.sectorNo - 1)) := by
  unfold commandLba
  rw [hchs]
  rfl

theorem commandLba_of_chsIn (ht : t.ChsIn h s) (hheads : dr.heads.toNat = h)
    (hsectors : dr.sectorsPerTrack.toNat = s) :
    commandLba t dr = some ((t.cylinderNo * h + t.headNo) * s + t.sectorNo - 1) := by
  obtain ⟨hchs, hhead, hpos, hle⟩ := ht
  rw [commandLba_chs hchs, if_neg (by omega), hheads, hsectors, Nat.add_sub_assoc hpos]

/-- Cylinder, head and sector are the digits of the sector address. -/
theorem chs_unique (ht : t.ChsIn h s) (ht' : t'.ChsIn h s)
    (heq : (t.cylinderNo * h + t.headNo) * s + t.sectorNo - 1 =
      (t'.cylinderNo * h + t'.headNo) * s + t'.sectorNo - 1) :
    t.cylinderNo = t'.cylinderNo ∧ t.headNo = t'.headNo ∧ t.sectorNo = t'.sectorNo := by
  have digits : ∀ {a b a' b' n : Nat}, b < n → b' < n → a * n + b = a' * n + b' →
      a = a' ∧ b = b' := by
    intro a b a' b' n hb hb' heq
    have hmod := congrArg (· % n) heq
    simp only [Nat.mul_add_mod_self_right, Nat.mod_eq_of_lt hb, Nat.mod_eq_of_lt hb'] at hmod
    subst hmod
    exact ⟨Nat.eq_of_mul_eq_mul_right (by omega : 0 < n) (by omega), rfl⟩
  obtain ⟨-, hhead, hpos, hle⟩ := ht
  obtain ⟨-, hhead', hpos', hle'⟩ := ht'
  rw [Nat.add_sub_assoc hpos, Nat.add_sub_assoc hpos'] at heq
  obtain ⟨htrack, hsector⟩ := digits (by omega) (by omega) heq
  obtain ⟨hcyl, hh⟩ := digits hhead hhead' htrack
  exact ⟨hcyl, hh, by omega⟩

/-- The task file of a CHS command for a sector address. -/
def chsTask (t : IdeChannel) (h s lba : Nat) : IdeChannel :=
  { t with
    lbaLow := BitVec.ofNat 8 (lba % s + 1)
    lbaMid := BitVec.ofNat 8 (lba / s / h)
    lbaHigh := BitVec.ofNat 8 (lba / s / h / 0x100)
    head := BitVec.ofNat 8 (lba / s % h) }

theorem chsTask_regs {lba : Nat} (hh : 0 < h) (hh16 : h ≤ 16) (hs : 0 < s) (hs8 : s < 256)
    (hlba : lba < 65536 * h * s) :
    (chsTask t h s lba).ChsIn h s ∧ (chsTask t h s lba).cylinderNo = lba / s / h ∧
      (chsTask t h s lba).headNo = lba / s % h ∧ (chsTask t h s lba).sectorNo = lba % s + 1 := by
  have hsector := Nat.mod_lt lba hs
  have hhead := Nat.mod_lt (lba / s) hh
  have hcyl : lba / s / h < 65536 := by
    rw [Nat.div_div_eq_div_mul, Nat.div_lt_iff_lt_mul (Nat.mul_pos hs hh), Nat.mul_comm s,
      ← Nat.mul_assoc]
    exact hlba
  have hlow : (chsTask t h s lba).sectorNo = lba % s + 1 := Nat.mod_eq_of_lt (by omega)
  have hnibble : (chsTask t h s lba).headNo = lba / s % h := by
    change (lba / s % h) % 256 % 16 = _
    omega
  have hcylinder : (chsTask t h s lba).cylinderNo = lba / s / h := by
    change lba / s / h / 0x100 % 256 * 0x100 + lba / s / h % 256 = _
    generalize lba / s / h = c at hcyl ⊢
    omega
  refine ⟨⟨?_, by omega, by omega, by omega⟩, hcylinder, hnibble, hlow⟩
  change (BitVec.ofNat 8 (lba / s % h)).getLsbD 6 = false
  rw [BitVec.getLsbD_ofNat, Nat.testBit_lt_two_pow (by omega)]
  rfl

theorem chsRight_iff (t : IdeChannel) (hh : 0 < h) (hh16 : h ≤ 16) (hs : 0 < s)
    (hsectors : dr.sectorsPerTrack.toNat = s) : ChsRight h s dr ↔ dr.heads.toNat = h := by
  have hs8 : s < 256 := hsectors ▸ dr.sectorsPerTrack.isLt
  constructor
  · intro hright
    -- the first sector of cylinder 1 tells the number of heads
    have hsmall : h * s < 65536 * h * s := by
      have := Nat.mul_pos hh hs
      rw [Nat.mul_assoc]
      omega
    obtain ⟨hin, hcyl, hhead, hsector⟩ := chsTask_regs (t := t) hh hh16 hs hs8 hsmall
    have haddr := hright.addresses _ hin
    rw [Nat.mul_div_cancel _ hs, Nat.div_self hh] at hcyl
    rw [Nat.mul_div_cancel _ hs, Nat.mod_self] at hhead
    rw [commandLba_chs hin.1, hcyl, hhead, hsector, hsectors] at haddr
    split at haddr
    · cases haddr
    · have hmul : dr.heads.toNat * s = h * s := by simpa using haddr
      exact Nat.eq_of_mul_eq_mul_right hs hmul
  · intro hheads
    refine ⟨fun t ht => commandLba_of_chsIn ht hheads hsectors, ?_, ?_⟩
    · intro t t' ht ht' heq
      rw [commandLba_of_chsIn ht hheads hsectors, commandLba_of_chsIn ht' hheads hsectors] at heq
      exact chs_unique ht ht' (Option.some.inj heq)
    · intro lba hlba
      obtain ⟨hin, hcyl, hhead, hsector⟩ := chsTask_regs (t := t) hh hh16 hs hs8
        (lt_of_lt_of_le hlba (Nat.min_le_right _ _))
      refine ⟨_, hin, ?_⟩
      rw [commandLba_of_chsIn hin hheads hsectors, hcyl, hhead, hsector, Nat.mul_comm _ h,
        Nat.div_add_mod, Nat.mul_comm _ s, ← Nat.add_assoc, Nat.div_add_mod]
      rfl

end

theorem initialize_drive {ch : IdeChannel} (hdisk : diskAnswers ch = true) (hcount : ch.count ≠ 0)
    (hlow : ch.lbaLow ≠ 0) :
    ((execCommand ch 0x91).drives ch.selected).sectorsPerTrack = ch.count ∧
      ((execCommand ch 0x91).drives ch.selected).heads = ch.lbaLow := by
  rw [execCommand_disk hdisk]
  change ((initializeParams (dropCommand ch) ch.selected).drives _).sectorsPerTrack = _ ∧
    ((initializeParams (dropCommand ch) ch.selected).drives _).heads = _
  unfold initializeParams
  rw [if_neg (show ¬((dropCommand ch).count = 0 ∨ (dropCommand ch).lbaLow = 0) from
    not_or.mpr ⟨hcount, hlow⟩)]
  simp [succeed, ready, raiseIrqIde, updateIrq, IdeChannel.setDrive, dropCommand]

/-- An INITIALIZE DEVICE PARAMETERS that succeeds sets up CHS addressing for the geometry it names
exactly when the sector number register repeats the number of heads. -/
theorem chs_addressing_iff (ch : IdeChannel) (hdisk : diskAnswers ch = true)
    (hcount : ch.count ≠ 0) (hlow : ch.lbaLow ≠ 0) :
    ChsRight (ch.head.toNat % 0x10 + 1) ch.count.toNat ((execCommand ch 0x91).drives ch.selected) ↔
      ch.lbaLow.toNat = ch.head.toNat % 0x10 + 1 := by
  obtain ⟨hsectors, hheads⟩ := initialize_drive hdisk hcount hlow
  have hpos : 0 < ch.count.toNat := by
    have hne := mt BitVec.eq_of_toNat_eq hcount
    simpa [Nat.pos_iff_ne_zero] using hne
  rw [chsRight_iff ch (Nat.succ_pos _) (by omega) hpos (congrArg BitVec.toNat hsectors), hheads]

/-- A disk of 1 MiB, and the command written for 16 heads of 63 sectors. -/
def geometryTask (lbaLow : BitVec 8) : IdeChannel :=
  { ideInit fun _ => (ideAttach ⟨0x100000, fun _ => 0⟩ false).getD emptyBay with
    count := 63, lbaLow := lbaLow, head := 0xaf }

theorem chs_addressing_agreeing :
    ChsRight 16 63 ((execCommand (geometryTask 16) 0x91).drives ⟨0, by decide⟩) :=
  (chs_addressing_iff (geometryTask 16) (by decide +kernel) (by decide +kernel)
    (by decide +kernel)).mpr (by decide +kernel)

/-- With sector number 1 left in the register, the disk has one head: the first sector of head 1 is
refused, and cylinder 1 starts at sector 63 instead of 1008. -/
theorem chs_one_head :
    let dr := (execCommand (geometryTask 1) 0x91).drives ⟨0, by decide⟩
    (dr.error = 0 ∧ dr.status = kStatusReady) ∧
      commandLba { geometryTask 1 with head := 0xa1 } dr = none ∧
      commandLba { geometryTask 1 with lbaMid := 1, head := 0xa0 } dr = some 63 := by
  decide +kernel

end Cemu.Storage
