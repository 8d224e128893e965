import Cemu.X86.Pic

/-!
# The Local APIC: registers, vector sets and timer

The parts of `device/intc/lapic.c` that read and write one `LapicDevice`. What calls the
board back (`UpdateIrq`, `LapicDeliver`, `LapicAcknowledge`, the EOI write) is in
`Cemu.X86.IrqBoard`.

A vector set is a `uint8_t[32]` in the source and one 256-bit word here: byte `i` is bits
`8 * i` to `8 * i + 7`, so vector `v` is bit `v`. The register array has `0x40` slots and the
page decodes `0x100` of them. A slot past the array is given the meaning the declaration of
`LapicDevice` gives it, where the language fixes one: the three byte arrays follow the
register array without padding, so slots `0x40` to `0x57` are words of the IRR, ISR and TMR.
Beyond them lie the timer, the line level and the callbacks, whose placement is the host
ABI's: an access there has no meaning in the model.
-/

namespace Cemu.X86

open BitVec

inductive EoiSink where
  | onLapicEoi
  deriving DecidableEq, Repr

abbrev VectorSet := BitVec 256

/-- The local APIC: registers, vector sets and one-shot timer. -/
structure LapicDevice where
  reg : Vector (BitVec 32) 0x40
  irr : VectorSet
  isr : VectorSet
  tmr : VectorSet
  timerBaseUs : Int
  timerCount : BitVec 32
  irqLevel : Bool
  setIrq : Option IrqSink
  eoi : Option EoiSink
  deriving DecidableEq, Repr

/-! ## Register offsets -/

def kLapicId : Nat := 0x20
def kLapicVersion : Nat := 0x30
def kLapicTpr : Nat := 0x80
def kLapicPpr : Nat := 0xA0
def kLapicEoi : Nat := 0xB0
def kLapicLdr : Nat := 0xD0
def kLapicDfr : Nat := 0xE0
def kLapicSvr : Nat := 0xF0
def kLapicIsr : Nat := 0x100
def kLapicTmr : Nat := 0x180
def kLapicIrr : Nat := 0x200
def kLapicEsr : Nat := 0x280
def kLapicIcrLo : Nat := 0x300
def kLapicLvtTimer : Nat := 0x320
def kLapicTimerInitial : Nat := 0x380
def kLapicTimerCurrent : Nat := 0x390
def kLapicTimerDivide : Nat := 0x3E0

def LapicDevice.regAt (d : LapicDevice) (off : Nat) : BitVec 32 := d.reg.getD (off / 16) 0

/-! ## Vector sets -/

def setByte (set : VectorSet) (i : Nat) : BitVec 8 := set.extractLsb' (8 * i) 8

def highBitFrom (bits : BitVec 8) : Nat → Nat
  | 0 => 0
  | n + 1 => if bits &&& 0x80#8 ≠ 0 then n + 1 else highBitFrom (bits <<< 1) n

def highBit (bits : BitVec 8) : Nat := highBitFrom bits 7

def highestVectorFrom (set : VectorSet) : Nat → Option Nat
  | 0 => none
  | n + 1 =>
    if setByte set (n + 2) ≠ 0 then some (8 * (n + 2) + highBit (setByte set (n + 2)))
    else highestVectorFrom set n

/-- The scan from byte 31 down; the vectors below 16 are not looked at. -/
def highestVector (set : VectorSet) : Option Nat := highestVectorFrom set 30

def vectorSet (set : VectorSet) (vector : Nat) : VectorSet := set ||| 1#256 <<< vector

def vectorClear (set : VectorSet) (vector : Nat) : VectorSet := set &&& ~~~(1#256 <<< vector)

section

variable (set : VectorSet)

theorem setByte_getLsbD (i j : Nat) (hj : j < 8) :
    (setByte set i).getLsbD j = set.getLsbD (8 * i + j) := by
  rw [setByte, getLsbD_extractLsb', decide_eq_true hj, Bool.true_and]

theorem highBit_spec : ∀ bits : BitVec 8, bits ≠ 0 →
    highBit bits < 8 ∧ bits.getLsbD (highBit bits) = true ∧
      ∀ j < 8, highBit bits < j → bits.getLsbD j = false := by
  decide +kernel

theorem highestVectorFrom_spec (n : Nat) :
    (∀ v, highestVectorFrom set n = some v → 16 ≤ v ∧ set.getLsbD v = true ∧
      ∀ w, v < w → w < 8 * (n + 2) → set.getLsbD w = false) ∧
    (highestVectorFrom set n = none → ∀ w, 16 ≤ w → w < 8 * (n + 2) → set.getLsbD w = false) := by
  induction n with
  | zero => exact ⟨nofun, fun _ w _ _ => by omega⟩
  | succ n ih =>
    by_cases hz : setByte set (n + 2) = 0
    · -- an empty byte: the vectors of this byte are absent and the loop goes on below it
      have hbyte : ∀ w, 8 * (n + 2) ≤ w → w < 8 * (n + 3) → set.getLsbD w = false := by
        intro w hlo hhi
        have h := setByte_getLsbD set (n + 2) (w - 8 * (n + 2)) (by omega)
        rw [hz, Nat.add_sub_cancel' hlo] at h
        rw [← h]
        exact getLsbD_zero
      have hstep : highestVectorFrom set (n + 1) = highestVectorFrom set n := by
        rw [highestVectorFrom, if_neg (not_not.mpr hz)]
      rw [hstep]
      refine ⟨fun v hv => ?_, fun hn w hlo hhi => ?_⟩
      · obtain ⟨h16, hset, habove⟩ := ih.1 v hv
        refine ⟨h16, hset, fun w hlt hhi => ?_⟩
        rcases Nat.lt_or_ge w (8 * (n + 2)) with h | h
        · exact habove w hlt h
        · exact hbyte w h hhi
      · rcases Nat.lt_or_ge w (8 * (n + 2)) with h | h
        · exact ih.2 hn w hlo h
        · exact hbyte w h hhi
    · obtain ⟨hlt8, htop, habove⟩ := highBit_spec _ hz
      have hstep : highestVectorFrom set (n + 1) =
          some (8 * (n + 2) + highBit (setByte set (n + 2))) := by
        rw [highestVectorFrom, if_pos hz]
      rw [hstep]
      refine ⟨fun v hv => ?_, fun h => by cases h⟩
      cases hv
      refine ⟨by omega, by rw [← setByte_getLsbD set _ _ hlt8]; exact htop, fun w hlt hhi => ?_⟩
      have h := setByte_getLsbD set (n + 2) (w - 8 * (n + 2)) (by omega)
      rw [Nat.add_sub_cancel' (by omega)] at h
      rw [← h]
      exact habove _ (by omega) (by omega)

theorem highestVector_some {set : VectorSet} {v : Nat} (h : highestVector set = some v) :
    16 ≤ v ∧ set.getLsbD v = true ∧ ∀ w, v < w → set.getLsbD w = false := by
  obtain ⟨h16, hset, habove⟩ := (highestVectorFrom_spec set 30).1 v h
  refine ⟨h16, hset, fun w hw => ?_⟩
  rcases Nat.lt_or_ge w 256 with hlt | hge
  · exact habove w hw hlt
  · exact getLsbD_of_ge set w hge

theorem exists_highestVector {set : VectorSet} {w : Nat} (h16 : 16 ≤ w)
    (hw : set.getLsbD w = true) : ∃ v, highestVector set = some v ∧ w ≤ v := by
  have hlt : w < 256 := lt_of_getLsbD hw
  cases h : highestVector set with
  | none =>
    have := (highestVectorFrom_spec set 30).2 h w h16 hlt
    rw [hw] at this
    cases this
  | some v =>
    refine ⟨v, rfl, Nat.le_of_not_lt fun hvw => ?_⟩
    have := (highestVector_some h).2.2 w hvw
    rw [hw] at this
    cases this

theorem vectorSet_getLsbD (v w : Nat) (hv : v < 256) :
    (vectorSet set v).getLsbD w = (set.getLsbD w || decide (w = v)) := by
  simp only [vectorSet, getLsbD_or, getLsbD_shiftLeft, getLsbD_one]
  congr 1
  rw [Bool.eq_iff_iff]
  simp only [Bool.and_eq_true, decide_eq_true_eq, Bool.not_eq_true', decide_eq_false_iff_not]
  omega

theorem vectorClear_getLsbD_le (v w : Nat) (h : (vectorClear set v).getLsbD w = true) :
    set.getLsbD w = true := by
  rw [vectorClear, getLsbD_and, Bool.and_eq_true] at h
  exact h.1

end

def setWord (set : VectorSet) (k : Nat) : BitVec 32 := set.extractLsb' (32 * k) 32

def putWord (set : VectorSet) (k : Nat) (v : BitVec 32) : VectorSet :=
  (set &&& ~~~(0xffffffff#256 <<< (32 * k))) ||| (v.setWidth 256 <<< (32 * k))

/-! ## Priority -/

/-- The class of the task priority or of the vector in service. -/
def processorPriority (d : LapicDevice) : Nat :=
  let ppr := d.regAt kLapicTpr >>> 4 &&& 0xf#32
  match highestVector d.isr with
  | some isr => max ppr.toNat (isr / 16)
  | none => ppr.toNat

def svrEnabled (d : LapicDevice) : Bool := (d.regAt kLapicSvr).getLsbD 8

/-- A requested vector of a class above the processor priority. -/
def deliverable (d : LapicDevice) : Bool :=
  svrEnabled d &&
    match highestVector d.irr with
    | some vec => decide (processorPriority d < vec / 16)
    | none => false

theorem le_processorPriority {d : LapicDevice} {isr : Nat} (h : highestVector d.isr = some isr) :
    isr / 16 ≤ processorPriority d := by
  rw [processorPriority, h]
  exact Nat.le_max_right _ _

/-- Right after an acknowledge nothing more is deliverable. -/
theorem not_deliverable_of_taken (d : LapicDevice) {vec : Nat}
    (hvec : highestVector d.irr = some vec) :
    deliverable { d with irr := vectorClear d.irr vec, isr := vectorSet d.isr vec } = false := by
  obtain ⟨h16, hset, habove⟩ := highestVector_some hvec
  have hlt : vec < 256 := lt_of_getLsbD hset
  obtain ⟨isr, hisr, hle⟩ := exists_highestVector h16
    (show (vectorSet d.isr vec).getLsbD vec = true by simp [vectorSet_getLsbD _ _ _ hlt])
  have hppr := le_processorPriority
    (d := { d with irr := vectorClear d.irr vec, isr := vectorSet d.isr vec }) hisr
  unfold deliverable
  rw [Bool.and_eq_false_iff]
  right
  split
  · rename_i w hw
    have hwset := vectorClear_getLsbD_le _ _ _ (highestVector_some hw).2.1
    have hwle : w ≤ vec := by
      by_contra hgt
      rw [habove w (by omega)] at hwset
      cases hwset
    rw [decide_eq_false_iff_not, Nat.not_lt]
    exact (Nat.div_le_div_right hwle).trans ((Nat.div_le_div_right hle).trans hppr)
  · rfl

/-! ## The timer -/

def timerDivisor (tdcr : BitVec 32) : Nat :=
  #[2, 4, 8, 16, 32, 64, 128, 1].getD (tdcr.toNat % 8) 0

def kLapicTimerFreq : Nat := 100000000

def countsElapsed (d : LapicDevice) (nowUs : Int) : Nat :=
  let us := nowUs - d.timerBaseUs
  if us ≤ 0 then 0
  else
    let counts :=
      us.toNat * (kLapicTimerFreq / timerDivisor (d.regAt kLapicTimerDivide)) % 2 ^ 64 / 1000000
    if counts > 0xffffffff then 0xffffffff else counts

def timerCurrent (d : LapicDevice) (now : Int) : BitVec 32 :=
  if d.timerCount = 0 then 0
  else
    let burned := countsElapsed d now
    if d.timerCount.toNat ≤ burned then 0 else d.timerCount - BitVec.ofNat 32 burned

def timerArm (d : LapicDevice) (count : BitVec 32) (now : Int) : LapicDevice :=
  { d with timerCount := count, timerBaseUs := now }

/-! ## The register array and what follows it -/

section

variable (d : LapicDevice)

/-- Slots behind the register array fall into the fields after it. -/
def LapicDevice.loadSlot (slot : Nat) : Option (BitVec 32) :=
  if slot < 0x40 then some (d.reg.getD slot 0)
  else if slot < 0x48 then some (setWord d.irr (slot - 0x40))
  else if slot < 0x50 then some (setWord d.isr (slot - 0x48))
  else if slot < 0x58 then some (setWord d.tmr (slot - 0x50))
  else none

def LapicDevice.storeSlot (slot : Nat) (v : BitVec 32) : Option LapicDevice :=
  if slot < 0x40 then some { d with reg := d.reg.setIfInBounds slot v }
  else if slot < 0x48 then some { d with irr := putWord d.irr (slot - 0x40) v }
  else if slot < 0x50 then some { d with isr := putWord d.isr (slot - 0x48) v }
  else if slot < 0x58 then some { d with tmr := putWord d.tmr (slot - 0x50) v }
  else none

def lapicRead (off : Nat) (now : Int) : Option (BitVec 32) :=
  if off % 16 ≠ 0 then some 0
  else if kLapicIsr ≤ off ∧ off < kLapicIrr + 0x20 then
    some (if off < kLapicTmr then setWord d.isr ((off - kLapicIsr) / 16)
      else if off < kLapicIrr then setWord d.tmr ((off - kLapicTmr) / 16)
      else setWord d.irr ((off - kLapicIrr) / 16))
  else if off = kLapicVersion then some 0x50014
  else if off = kLapicId then some (d.regAt off &&& 0xff000000#32)
  else if off = kLapicPpr then some (BitVec.ofNat 32 (processorPriority d * 16))
  else if off = kLapicTimerCurrent then some (timerCurrent d now)
  else if off = kLapicIcrLo then some (d.regAt off &&& ~~~(1#32 <<< 12))
  else d.loadSlot (off / 16)

def lapicInit : LapicDevice where
  reg := (((Vector.replicate 0x40 0).setIfInBounds (kLapicSvr / 16) 0xff).setIfInBounds
    (kLapicDfr / 16) 0xffffffff)
  irr := 0
  isr := 0
  tmr := 0
  timerBaseUs := 0
  timerCount := 0
  irqLevel := false
  setIrq := d.setIrq
  eoi := d.eoi

def lapicId : BitVec 32 := d.regAt kLapicId >>> 24 &&& 0xf#32

def lapicLogicalMask : BitVec 32 := d.regAt kLapicLdr >>> 24 &&& 0xff#32

end

end Cemu.X86
