import Cemu.X86.LapicConfined

/-!
# The processor's INTR pin against the two controllers

The pin is meant to be the OR of what the 8259 pair and the Local APIC ask for. The level is
kept in four places, and `Tracks` says that they agree: the Local APIC's own copy, the board's
two copies, the pin. Every path that ends in `PicUpdateIrq` or the Local APIC's `UpdateIrq`
restores it (`tracks_picUpdateIrq`, `tracks_lapicUpdateIrq`), and the paths that do not are
the events `Keeps` restricts:

* the acknowledge, after which the processor clears its copy whatever is still asserted;
* the accesses to the master 8259 that change what it presents without an update (ICW1, the
  special mask of OCW3, the nesting mode of ICW4, a polled read);
* the stores past the Local APIC's register array;
* a reset, which initialises the controllers but not the board's two copies.
-/

namespace Cemu.X86

open PicState PicDevice

def PinRight (b : IrqBoard) : Prop :=
  b.cpu.intrPending = (picHasPending b.pic || deliverable b.lapic)

instance (b : IrqBoard) : Decidable (PinRight b) := inferInstanceAs (Decidable (_ = _))

/-- All but the Local APIC's request is reflected: what holds between a change of the Local
APIC and its `UpdateIrq`. -/
structure Lagging (b : IrqBoard) : Prop where
  pin : b.cpu.intrPending = (b.picIrq || b.lapicIrq)
  pic : b.picIrq = picHasPending b.pic
  level : b.lapic.irqLevel = b.lapicIrq
  picSink : b.pic.setIrq = some .onPicIrq
  lapicSink : b.lapic.setIrq = some .onLapicIrq

structure Tracks (b : IrqBoard) : Prop extends Lagging b where
  lapic : b.lapicIrq = deliverable b.lapic

variable {b b' : IrqBoard} {d : LapicDevice} {pic : PicDevice} {off irq : Nat} {s : PicState}
  {data p l : Bool}

theorem Tracks.pinRight (h : Tracks b) : PinRight b := by
  rw [PinRight, h.pin, h.pic, h.lapic]

/-! ## The two updates -/

theorem tracks_picUpdateIrq (hpic : b.pic.setIrq = some .onPicIrq)
    (hsink : b.lapic.setIrq = some .onLapicIrq) (hlevel : b.lapic.irqLevel = b.lapicIrq)
    (hlapic : b.lapicIrq = deliverable b.lapic) : Tracks (picUpdateIrq b) := by
  have hset : (picCascade b.pic).setIrq = some .onPicIrq := by
    unfold picCascade
    split <;> exact hpic
  unfold picUpdateIrq
  dsimp only
  rw [hset]
  exact { pin := rfl, pic := rfl, level := hlevel, picSink := hset, lapicSink := hsink,
          lapic := hlapic }

theorem tracks_lapicUpdateIrq (h : Lagging b) : Tracks (lapicUpdateIrq b) := by
  unfold lapicUpdateIrq
  dsimp only
  split
  · rename_i hsame
    exact { h with lapic := h.level.symm.trans hsame.symm }
  · rw [h.lapicSink]
    exact { pin := rfl, pic := h.pic, level := rfl, picSink := h.picSink, lapicSink := rfl,
            lapic := rfl }

theorem Lagging.lapic_of (h : Lagging b) (hl : d.irqLevel = b.lapic.irqLevel)
    (hs : d.setIrq = b.lapic.setIrq) : Lagging { b with lapic := d } where
  pin := h.pin
  pic := h.pic
  level := hl.trans h.level
  picSink := h.picSink
  lapicSink := hs.trans h.lapicSink

theorem Tracks.lapic_of (h : Tracks b) (hl : d.irqLevel = b.lapic.irqLevel)
    (hs : d.setIrq = b.lapic.setIrq) (hd : deliverable d = deliverable b.lapic) :
    Tracks { b with lapic := d } :=
  { h.toLagging.lapic_of hl hs with lapic := h.lapic.trans hd.symm }

theorem Tracks.pic_of (h : Tracks b) (hs : pic.setIrq = b.pic.setIrq)
    (hp : picHasPending pic = picHasPending b.pic) : Tracks { b with pic := pic } where
  pin := h.pin
  pic := h.pic.trans hp.symm
  level := h.level
  picSink := hs.trans h.picSink
  lapicSink := h.lapicSink
  lapic := h.lapic

theorem Tracks.picUpdate (h : Tracks b) (hs : pic.setIrq = b.pic.setIrq) :
    Tracks (picUpdateIrq { b with pic := pic }) :=
  tracks_picUpdateIrq (hs.trans h.picSink) h.lapicSink h.level h.lapic

theorem PicDevice.set_setIrq (pic : PicDevice) (s : PicState) (chip : Chip) :
    (pic.set s chip).setIrq = pic.setIrq := by
  cases chip <;> rfl

/-! ## Deliveries and the I/O APIC -/

theorem lagging_lapicDeliver (vector : Nat) (trigger : Bool) (h : Lagging b) :
    Lagging (lapicDeliver b vector trigger) := by
  unfold lapicDeliver
  split
  · exact h
  · refine (tracks_lapicUpdateIrq ?_).toLagging
    exact { pin := h.pin, pic := h.pic, level := h.level, picSink := h.picSink,
            lapicSink := h.lapicSink }

theorem tracks_lapicDeliver (vector : Nat) (trigger : Bool) (h : Tracks b) :
    Tracks (lapicDeliver b vector trigger) := by
  unfold lapicDeliver
  split
  · exact h
  · refine tracks_lapicUpdateIrq ?_
    exact { pin := h.pin, pic := h.pic, level := h.level, picSink := h.picSink,
            lapicSink := h.lapicSink }

theorem keptByIoapic_lagging : KeptByIoapic Lagging where
  ioapic _ _ h := { h with }
  nmi _ h := { h with }
  deliver _ vector trigger h := lagging_lapicDeliver vector trigger h

theorem keptByIoapic_tracks : KeptByIoapic Tracks where
  ioapic _ _ h := { h with }
  nmi _ h := { h with }
  deliver _ vector trigger h := tracks_lapicDeliver vector trigger h

theorem tracks_onIsaIrq (line : Fin 16) (level : Bool) (h : Tracks b) :
    Tracks (onIsaIrq b line level) := by
  exact keptByIoapic_tracks.ioapicSetPin _ _ (h.picUpdate (set_setIrq _ _ _))

/-! ## The Local APIC's page -/

theorem lagging_lapicRetire (vec : Nat) (h : Lagging b) : Lagging (lapicRetire b vec) := by
  have hclear : Lagging { b with lapic := { b.lapic with isr := vectorClear b.lapic.isr vec } } :=
    h.lapic_of rfl rfl
  unfold lapicRetire
  split
  · split
    · exact keptByIoapic_lagging.ioapicEoi vec hclear
    · exact hclear
  · exact hclear

theorem tracks_lapicEoi (h : Tracks b) : Tracks (lapicEoi b) := by
  unfold lapicEoi
  split
  · exact h
  · exact tracks_lapicUpdateIrq (lagging_lapicRetire _ h.toLagging)

theorem deliverable_reg {slot : Nat} (v : BitVec 32) (ht : slot ≠ kLapicTpr / 16)
    (hs : slot ≠ kLapicSvr / 16) :
    deliverable { d with reg := d.reg.setIfInBounds slot v } = deliverable d := by
  have hreg : ∀ off, slot ≠ off / 16 →
      LapicDevice.regAt { d with reg := d.reg.setIfInBounds slot v } off = d.regAt off := by
    intro off hne
    simp [LapicDevice.regAt, Vector.getD, hne]
  simp only [deliverable, svrEnabled, processorPriority, hreg _ ht, hreg _ hs]
  rfl

theorem tracks_setReg (v : BitVec 32) (hal : off % 16 = 0) (ht : off ≠ kLapicTpr)
    (hs : off ≠ kLapicSvr) (h : Tracks b) : Tracks (b.setReg off v) := by
  refine h.lapic_of rfl rfl (deliverable_reg v ?_ ?_)
  · simp only [kLapicTpr] at ht ⊢
    omega
  · simp only [kLapicSvr] at hs ⊢
    omega

theorem Tracks.timerArm (count : BitVec 32) (now : Int) (h : Tracks b) :
    Tracks { b with lapic := timerArm b.lapic count now } :=
  h.lapic_of rfl rfl rfl

theorem tracks_lapicWrite {v : BitVec 32} {now : Int} (hoff : off % 16 ≠ 0 ∨ off < 0x400)
    (h : Tracks b) (hw : lapicWrite b off v now = some b') : Tracks b' := by
  unfold lapicWrite at hw
  by_cases hal : off % 16 ≠ 0
  · rw [if_pos hal] at hw
    cases hw
    exact h
  rw [if_neg hal] at hw
  have hal' : off % 16 = 0 := not_not.mp hal
  have hlt : off / 16 < 0x40 := by omega
  split at hw
  · cases hw
    exact tracks_lapicEoi h
  split at hw
  · cases hw
    exact tracks_lapicUpdateIrq (h.toLagging.lapic_of rfl rfl)
  rename_i hnt
  split at hw
  · cases hw
    exact tracks_lapicUpdateIrq (h.toLagging.lapic_of rfl rfl)
  rename_i hns
  split at hw
  · cases hw
    exact h
  split at hw
  · cases hw
    exact tracks_setReg _ hal' hnt hns h
  split at hw
  · cases hw
    exact (tracks_setReg v hal' hnt hns h).timerArm v now
  split at hw
  · cases hw
    split
    · exact (tracks_setReg v hal' hnt hns h).timerArm _ now
    · exact tracks_setReg v hal' hnt hns h
  · rw [LapicDevice.storeSlot, if_pos hlt] at hw
    cases hw
    exact tracks_setReg v hal' hnt hns h

theorem tracks_timerFire (h : Tracks b) : Tracks (timerFire b) := by
  unfold timerFire
  dsimp only
  split
  · exact tracks_lapicDeliver _ _ h
  · exact h

theorem tracks_lapicPoll (now : Int) (h : Tracks b) : Tracks (lapicPoll b now) := by
  unfold lapicPoll
  split
  · exact h
  split
  · exact h
  have hfired := tracks_timerFire h
  unfold timerExpire
  dsimp only
  split
  · exact hfired.timerArm _ now
  · exact hfired.lapic_of rfl rfl rfl

/-! ## The acknowledge -/

/-- Whether the chip still presents a request once line `irq` has been acknowledged: its other
unmasked requests, with those the cascade feeds in, against the lines in service. In auto-EOI
mode the acknowledged line does not stay in service, and with rotation becomes the lowest. -/
def PicState.another (chip : Chip) (s : PicState) (irq : Nat) (feed : BitVec 8) : Bool :=
  let s₁ := if s.autoEoi ∧ s.rotateOnAutoEoi
    then { s with priorityAdd := BitVec.ofNat 8 ((irq + 1) % 8) } else s
  let served := if s.autoEoi then s.curMask chip
    else curMask chip { s with isr := s.isr ||| lineBit irq }
  decide (getPriority s₁ (((s.irr &&& ~~~lineBit irq) ||| feed) &&& ~~~s.imr) <
    getPriority s₁ served)

/-- The slave still drives the cascade after an acknowledge of the master's line `irq`. -/
def slaveAsks (pic : PicDevice) (irq : Nat) : Bool :=
  if irq = 2 then
    match picGetIrq .slave pic.slave with
    | some irq2 => pic.slave.another .slave irq2 0#8
    | none => false
  else (picGetIrq .slave pic.slave).isSome

/-- Whether the pair presents a second request beside the one it would answer an acknowledge
with. -/
def anotherRequest (pic : PicDevice) : Bool :=
  match picGetIrq .master pic.master with
  | some irq => pic.master.another .master irq (if slaveAsks pic irq then lineBit 2 else 0#8)
  | none => false

theorem picGetIrq_picIntack (chip : Chip) (s : PicState) (irq : Nat) (feed last : BitVec 8) :
    (picGetIrq chip { picIntack s irq with
      irr := (picIntack s irq).irr ||| feed, lastIrr := last }).isSome =
      s.another chip irq feed := by
  rw [picGetIrq_isSome]
  cases hauto : s.autoEoi <;> cases hrot : s.rotateOnAutoEoi <;>
    simp only [another, picIntack, hauto, hrot] <;> rfl

theorem picCascade_master (pic : PicDevice) : ∃ last, (picCascade pic).master = { pic.master with
      irr := pic.master.irr ||| (if (picGetIrq .slave pic.slave).isSome then lineBit 2 else 0#8)
      lastIrr := last } := by
  unfold picCascade
  split
  · exact ⟨_, rfl⟩
  · exact ⟨_, by rw [BitVec.or_zero]⟩

theorem picGetIrq_slave_taken (hirq : picGetIrq .master pic.master = some irq) :
    (picGetIrq .slave (picTake pic).2.slave).isSome = slaveAsks pic irq := by
  unfold picTake slaveAsks
  rw [hirq]
  dsimp only
  split
  · cases hslave : picGetIrq .slave pic.slave with
    | none =>
      rw [hslave]
      rfl
    | some irq2 =>
      have h := picGetIrq_picIntack .slave pic.slave irq2 0#8 (picIntack pic.slave irq2).lastIrr
      rw [BitVec.or_zero] at h
      exact h
  · rfl

theorem picTake_master (hirq : picGetIrq .master pic.master = some irq) :
    (picTake pic).2.master = picIntack pic.master irq := by
  unfold picTake
  rw [hirq]
  dsimp only
  split
  · split <;> rfl
  · rfl

theorem picHasPending_picTake (h : picHasPending pic = true) :
    picHasPending (picCascade (picTake pic).2) = anotherRequest pic := by
  obtain ⟨irq, hirq⟩ := Option.isSome_iff_exists.mp h
  obtain ⟨last, hmaster⟩ := picCascade_master (picTake pic).2
  rw [picHasPending, hmaster, picGetIrq_slave_taken hirq, picTake_master hirq, anotherRequest, hirq]
  exact picGetIrq_picIntack .master pic.master irq _ last

theorem picTake_setIrq (pic : PicDevice) : (picTake pic).2.setIrq = pic.setIrq := by
  unfold picTake
  split
  · dsimp only
    split
    · split <;> rfl
    · rfl
  · rfl

theorem picUpdateIrq_pic (b : IrqBoard) : (picUpdateIrq b).pic = picCascade b.pic := by
  unfold picUpdateIrq
  dsimp only
  rcases (picCascade b.pic).setIrq with _ | _ | _ <;> rfl

theorem picUpdateIrq_lapic (b : IrqBoard) : (picUpdateIrq b).lapic = b.lapic :=
  callSetIrq_lapic _ _ _

theorem lapicUpdateIrq_pic (b : IrqBoard) : (lapicUpdateIrq b).pic = b.pic := by
  unfold lapicUpdateIrq
  dsimp only
  split
  · rfl
  · rcases b.lapic.setIrq with _ | _ | _ <;> rfl

theorem lapicUpdateIrq_deliverable (b : IrqBoard) :
    deliverable (lapicUpdateIrq b).lapic = deliverable b.lapic := by
  unfold lapicUpdateIrq
  dsimp only
  split
  · rfl
  · rw [callSetIrq_lapic]
    rfl

theorem lapicAcknowledge_of_deliverable (h : deliverable b.lapic = true) :
    ∃ vec, highestVector b.lapic.irr = some vec ∧
      lapicAcknowledge b = (some vec, lapicUpdateIrq { b with lapic := { b.lapic with
        irr := vectorClear b.lapic.irr vec, isr := vectorSet b.lapic.isr vec } }) := by
  have hsvr : svrEnabled b.lapic = true := by
    rw [deliverable, Bool.and_eq_true] at h
    exact h.1
  cases hv : highestVector b.lapic.irr with
  | none => simp [deliverable, hv] at h
  | some vec => exact ⟨vec, rfl, by simp [lapicAcknowledge, hsvr, h, hv]⟩

theorem lapicAcknowledge_of_not_deliverable (h : deliverable b.lapic = false) :
    lapicAcknowledge b = (none, b) := by
  simp only [lapicAcknowledge, h, if_true, ite_self]

theorem tracks_onIntAck (h : Tracks b) (hpin : b.cpu.intrPending = true)
    (hone : if deliverable b.lapic then picHasPending b.pic = false
      else anotherRequest b.pic = false) :
    Tracks (onIntAck b).2 ∧ (onIntAck b).2.picIrq = false ∧ (onIntAck b).2.lapicIrq = false := by
  unfold onIntAck
  cases hdel : deliverable b.lapic with
  | true =>
    -- the Local APIC answers: it has nothing further, and neither has the 8259 pair
    rw [hdel] at hone
    obtain ⟨vec, hvec, hack⟩ := lapicAcknowledge_of_deliverable hdel
    rw [hack]
    have htracks := tracks_lapicUpdateIrq (b := { b with lapic := { b.lapic with
        irr := vectorClear b.lapic.irr vec, isr := vectorSet b.lapic.isr vec } })
      (h.toLagging.lapic_of rfl rfl)
    refine ⟨htracks, ?_, ?_⟩
    · rw [htracks.pic, lapicUpdateIrq_pic]
      exact hone
    · rw [htracks.lapic, lapicUpdateIrq_deliverable]
      exact not_deliverable_of_taken b.lapic hvec
  | false =>
    -- the 8259 pair answers, and was the one that asked
    rw [hdel] at hone
    have hpending : picHasPending b.pic = true := by
      rw [← h.pic]
      have := h.pin
      rw [hpin, h.lapic, hdel, Bool.or_false] at this
      exact this.symm
    rw [lapicAcknowledge_of_not_deliverable hdel]
    have htracks := h.picUpdate (picTake_setIrq b.pic)
    refine ⟨htracks, ?_, ?_⟩
    · refine htracks.pic.trans ?_
      rw [picUpdateIrq_pic, picHasPending_picTake hpending, hone]
    · refine htracks.lapic.trans ?_
      rw [picUpdateIrq_lapic, hdel]

theorem tracks_sampleIntr {intrShadow intsOn : Bool} (h : Tracks b)
    (hone : b.cpu.intrPending = true → intrShadow = false → intsOn = true →
      if deliverable b.lapic then picHasPending b.pic = false else anotherRequest b.pic = false) :
    Tracks (sampleIntr b intrShadow intsOn) := by
  unfold sampleIntr
  split
  · rename_i hguard
    simp only [Bool.and_eq_true, Bool.not_eq_true'] at hguard
    obtain ⟨⟨hpin, hshadow⟩, hon⟩ := hguard
    obtain ⟨hack, hpic, hlapic⟩ := tracks_onIntAck h hpin (hone hpin hshadow hon)
    exact { hack with pin := by rw [hpic, hlapic]; rfl }
  · exact h

/-! ## The master 8259's silent accesses -/

def PicState.asks (s : PicState) : Bool := (picGetIrq .master s).isSome

/-- A write to the master that ends without an update keeps what the chip asks for: ICW1 empties
the request register, OCW3 may switch the special mask mode, ICW4 the nesting mode. -/
def MasterWriteKeeps (s : PicState) (data : Bool) (val : BitVec 8) : Prop :=
  if data then
    s.initState = 3 → asks { s with specialFullyNestedMode := val.getLsbD 4 } = s.asks
  else if val.getLsbD 4 then s.asks = false
  else if val.getLsbD 3 ∧ val.getLsbD 6 then
    asks { s with specialMask := val.getLsbD 5 } = s.asks
  else True

def MasterReadKeeps (s : PicState) : Prop :=
  s.poll = true → ∀ irq, picGetIrq .master s = some irq →
    asks { s with irr := s.irr &&& ~~~lineBit irq, isr := s.isr &&& ~~~lineBit irq } = true

theorem asks_picIoWrite {val : BitVec 8} (hkeeps : MasterWriteKeeps s data val)
    (hsilent : (picIoWrite s data val).2 = false) : (picIoWrite s data val).1.asks = s.asks := by
  unfold MasterWriteKeeps at hkeeps
  unfold picIoWrite at hsilent ⊢
  split at hkeeps
  · rename_i hdata
    rw [if_pos hdata] at hsilent ⊢
    split at hsilent
    · cases hsilent
    · rfl
    · rfl
    · exact hkeeps ‹_›
  rename_i hdata
  rw [if_neg hdata] at hsilent ⊢
  split at hkeeps
  · rename_i h4
    rw [if_pos h4, hkeeps, asks, picGetIrq_of_irr_zero rfl]
    rfl
  rename_i h4
  rw [if_neg h4] at hsilent ⊢
  split at hsilent
  · rename_i h3
    rw [if_pos h3]
    split at hkeeps
    · rename_i h36
      simp only [h36.2]
      exact hkeeps
    · rename_i h36
      have h6 : val.getLsbD 6 = false := by simpa [h3] using h36
      simp only [h6]
      rfl
  · cases hsilent

theorem asks_picIoRead (hkeeps : MasterReadKeeps s) :
    (picIoRead .master s data).2.asks = s.asks := by
  unfold picIoRead
  split
  · rename_i hpoll
    have hsame : picGetIrq .master { s with poll := false } = picGetIrq .master s := rfl
    dsimp only
    rw [hsame]
    cases hirq : picGetIrq .master s with
    | none => rfl
    | some irq =>
      rw [asks, asks, hirq]
      exact hkeeps hpoll irq hirq
  · rfl

theorem tracks_picPortWrite {chip : Chip} {val : BitVec 8}
    (hkeeps : chip = .master → MasterWriteKeeps b.pic.master data val) (h : Tracks b) :
    Tracks (picPortWrite b chip data val) := by
  unfold picPortWrite
  dsimp only
  split
  · exact h.picUpdate (set_setIrq _ _ _)
  rename_i hsilent
  refine h.pic_of (set_setIrq _ _ _) ?_
  cases chip with
  | master => exact asks_picIoWrite (hkeeps rfl) (by simpa using hsilent)
  | slave => rfl

theorem tracks_picPortRead {chip : Chip} (hkeeps : chip = .master → MasterReadKeeps b.pic.master)
    (h : Tracks b) : Tracks (picPortRead b chip data).2 := by
  refine h.pic_of (set_setIrq _ _ _) ?_
  cases chip with
  | master => exact asks_picIoRead (hkeeps rfl)
  | slave => rfl

theorem tracks_elcrWrite (chip : Chip) (val : BitVec 8) (h : Tracks b) :
    Tracks (elcrWrite b chip val) := by
  refine h.pic_of (set_setIrq _ _ _) ?_
  cases chip <;> rfl

/-! ## Reset -/

theorem PicState.Idle.low (h : s.Idle) (irq : Nat) : (picSetIrq1 s irq false).Idle := by
  have hedge : picSetIrq1 s irq false = { s with lastIrr := s.lastIrr &&& ~~~lineBit irq } := by
    simp [picSetIrq1, h.elcr, h.ltim]
  rw [hedge]
  exact ⟨h.irr, h.elcr, h.ltim⟩

theorem InReset.idle (h : InReset p l b) : picHasPending b.pic = false := by
  rw [picHasPending, picGetIrq_of_irr_zero h.master.irr]
  rfl

theorem InReset.picUpdateIrq (h : InReset p l b) : InReset p l (picUpdateIrq b) := by
  have hnone : picGetIrq .slave b.pic.slave = none := picGetIrq_of_irr_zero h.slave.irr
  have hcascade : picCascade b.pic = { b.pic with master := { b.pic.master with
      lastIrr := b.pic.master.lastIrr &&& ~~~lineBit 2 } } := by
    rw [picCascade, hnone]
    rfl
  unfold Cemu.X86.picUpdateIrq
  rw [hcascade]
  dsimp only
  rw [h.sink]
  exact { h with master := ⟨h.master.irr, h.master.elcr, h.master.ltim⟩, sink := rfl }

theorem InReset.low (h : InReset p l b) (line : Fin 16) : InReset p l (onIsaIrq b line false) := by
  have hpic : InReset p l (picSetIrq b line false) := by
    refine .picUpdateIrq ?_
    by_cases hline : line.val < 8
    · rw [if_pos hline]
      exact { h with master := h.master.low _ }
    · rw [if_neg hline]
      exact { h with slave := h.slave.low _ }
  unfold onIsaIrq
  generalize picSetIrq b line false = b1 at hpic ⊢
  generalize Fin.castLE _ line = pin
  -- an entry of an initialised I/O APIC is active high, so a low wire asks for nothing
  have hlow : b1.ioapic.pins[pin].asserted false = false := by
    rw [IoapicPin.asserted, hpic.pins pin]
    rfl
  unfold ioapicSetPin
  rw [if_pos hlow]
  refine { hpic with pins := fun pin' => ?_ }
  unfold IrqBoard.setPin
  rw [Fin.getElem_fin, Vector.getElem_set]
  split
  · exact hpic.pins pin
  · exact hpic.pins pin'

theorem InReset.lows (h : InReset p l b) (lows : List (Fin 16)) :
    InReset p l (lows.foldl (fun b line => onIsaIrq b line false) b) := by
  induction lows generalizing b with
  | nil => exact h
  | cons line lows ih => exact ih (h.low line)

theorem inReset_init (b : IrqBoard) :
    InReset b.picIrq b.lapicIrq { b with
      pic := picInit b.pic, lapic := lapicInit b.lapic, ioapic := ioapicInit b.ioapic } where
  master := ⟨rfl, rfl, rfl⟩
  slave := ⟨rfl, rfl, rfl⟩
  sink := rfl
  lapic := by
    have hempty : highestVector 0 = none := by decide +kernel
    simp only [deliverable, lapicInit, hempty, Bool.and_false]
  level := rfl
  pins pin := by
    simp only [ioapicInit, Fin.getElem_fin, Vector.getElem_replicate]
  picIrq_eq := rfl
  lapicIrq_eq := rfl

theorem inReset_x86Reset (b : IrqBoard) (lows : List (Fin 16)) :
    ∃ b1, InReset (onIsaIrq b 4 false).picIrq (onIsaIrq b 4 false).lapicIrq b1 ∧
      x86Reset b lows = { wireDevices b1 with cpu := x86InitPins } :=
  ⟨_, (inReset_init (onIsaIrq b 4 false)).lows lows, rfl⟩

theorem x86Reset_pin (b : IrqBoard) (lows : List (Fin 16)) :
    (x86Reset b lows).cpu.intrPending = false ∧ PinRight (x86Reset b lows) := by
  obtain ⟨b1, hb1, heq⟩ := inReset_x86Reset b lows
  have hpic : picHasPending (wireDevices b1).pic = false := hb1.idle
  have hlapic : deliverable (wireDevices b1).lapic = false := hb1.lapic
  rw [heq]
  refine ⟨rfl, ?_⟩
  rw [PinRight, hpic, hlapic]
  rfl

theorem tracks_x86Reset (lows : List (Fin 16)) (hpic : (onIsaIrq b 4 false).picIrq = false)
    (hlapic : (onIsaIrq b 4 false).lapicIrq = false) : Tracks (x86Reset b lows) := by
  obtain ⟨b1, hb1, heq⟩ := inReset_x86Reset b lows
  rw [hpic, hlapic] at hb1
  rw [heq]
  exact {
    pin := by
      rw [show (wireDevices b1).picIrq = false from hb1.picIrq_eq,
        show (wireDevices b1).lapicIrq = false from hb1.lapicIrq_eq]
      rfl
    pic := hb1.picIrq_eq.trans hb1.idle.symm
    level := hb1.level.trans hb1.lapicIrq_eq.symm
    picSink := rfl
    lapicSink := rfl
    lapic := hb1.lapicIrq_eq.trans hb1.lapic.symm }

theorem tracks_x86BoardCreate : Tracks x86BoardCreate where
  pin := rfl
  pic := by decide +kernel
  level := rfl
  picSink := rfl
  lapicSink := rfl
  lapic := by decide +kernel

/-! ## Runs -/

def Keeps (b : IrqBoard) : IrqEvent → Prop
  | .picWrite .master data val => MasterWriteKeeps b.pic.master data val
  | .picRead .master _ => MasterReadKeeps b.pic.master
  | .lapicWrite off _ _ => off.val % 16 ≠ 0 ∨ off.val < 0x400
  | .sampleIntr intrShadow intsOn =>
    b.cpu.intrPending = true → intrShadow = false → intsOn = true →
      if deliverable b.lapic then picHasPending b.pic = false else anotherRequest b.pic = false
  | .reset _ =>
    picHasPending (onIsaIrq b 4 false).pic = false ∧ deliverable (onIsaIrq b 4 false).lapic = false
  | _ => True

theorem tracks_irqStep {e : IrqEvent} (h : Tracks b) (hkeeps : Keeps b e)
    (hstep : irqStep b e = some b') : Tracks b' := by
  cases e with
  | isaIrq line level =>
    cases hstep
    exact tracks_onIsaIrq line level h
  | picWrite chip data val =>
    cases hstep
    exact tracks_picPortWrite (fun hchip => by subst hchip; exact hkeeps) h
  | picRead chip data =>
    cases hstep
    exact tracks_picPortRead (fun hchip => by subst hchip; exact hkeeps) h
  | elcrWrite chip val =>
    cases hstep
    exact tracks_elcrWrite chip val h
  | lapicWrite off val now => exact tracks_lapicWrite hkeeps h hstep
  | lapicRead off now =>
    simp only [irqStep, Option.map_eq_some_iff] at hstep
    obtain ⟨_, -, rfl⟩ := hstep
    exact h
  | ioapicWrite off val =>
    cases hstep
    exact keptByIoapic_tracks.ioapicWrite off val h
  | lapicPoll now =>
    cases hstep
    exact tracks_lapicPoll now h
  | sampleIntr intrShadow intsOn =>
    cases hstep
    exact tracks_sampleIntr h hkeeps
  | sampleNmi =>
    cases hstep
    unfold sampleNmi
    split
    · exact { h with }
    · exact h
  | unblockNmi =>
    cases hstep
    exact { h with }
  | reset lows =>
    cases hstep
    have h1 := tracks_onIsaIrq 4 false h
    exact tracks_x86Reset lows (h1.pic.trans hkeeps.1) (h1.lapic.trans hkeeps.2)

def irqRun (b : IrqBoard) (events : List IrqEvent) : Option IrqBoard := events.foldlM irqStep b

/-- Every event of the run keeps the levels in step in the state it is taken in. -/
def RunKeeps : IrqBoard → List IrqEvent → Prop
  | _, [] => True
  | b, e :: es => Keeps b e ∧ ∀ b', irqStep b e = some b' → RunKeeps b' es

theorem tracks_irqRun {events : List IrqEvent} (h : Tracks b) (hkeeps : RunKeeps b events)
    (hrun : irqRun b events = some b') : Tracks b' := by
  induction events generalizing b with
  | nil =>
    cases hrun
    exact h
  | cons e es ih =>
    simp only [irqRun, List.foldlM_cons, Option.bind_eq_bind, Option.bind_eq_some_iff] at hrun
    obtain ⟨b1, hstep, hrest⟩ := hrun
    exact ih (tracks_irqStep h hkeeps.1 hstep) (hkeeps.2 b1 hstep) hrest

/-- In every run of the board whose events keep the levels in step, the pin is the OR of the two
controllers; and a reset leaves it low from any state at all. -/
theorem intr_pin_or (events : List IrqEvent) (b : IrqBoard)
    (hkeeps : RunKeeps x86BoardCreate events) (hrun : irqRun x86BoardCreate events = some b) :
    PinRight b ∧ ∀ (b₀ : IrqBoard) (lows : List (Fin 16)),
      (x86Reset b₀ lows).cpu.intrPending = false ∧ PinRight (x86Reset b₀ lows) :=
  ⟨(tracks_irqRun tracks_x86BoardCreate hkeeps hrun).pinRight, x86Reset_pin⟩

/-- The timer's interrupt on a fresh board, acknowledged with nothing else pending. -/
theorem intr_pin_or_timer :
    ∃ b, irqRun x86BoardCreate [.isaIrq 0 true, .sampleIntr false true] = some b ∧
      b.pic.master.isr = 1 ∧ PinRight b := by
  have hkeeps : RunKeeps x86BoardCreate [.isaIrq 0 true, .sampleIntr false true] := by
    refine ⟨trivial, fun b' hb' => ?_⟩
    cases hb'
    exact ⟨fun _ _ _ => by decide +kernel, fun _ _ => trivial⟩
  exact ⟨_, rfl, by decide +kernel, (intr_pin_or _ _ hkeeps rfl).1⟩

/-- Three ways to lose the level. With a request of each controller up, the acknowledge the Local
APIC answers takes the pin down under the 8259's request; ICW1 empties the 8259 and leaves the pin
up; a level that was up at a reset comes back, with no request anywhere, the next time the other
controller drives the board. The triple is the pin, `PicHasPending` and `Deliverable`. -/
theorem intr_pin_lost :
    let levels := fun b : IrqBoard =>
      (b.cpu.intrPending, picHasPending b.pic, deliverable b.lapic)
    let apicTimer : List IrqEvent :=
      [.lapicWrite 0xf0 0x1ff 0, .lapicWrite 0x320 0x20 0, .lapicWrite 0x380 1 0, .lapicPoll 1000]
    (irqRun x86BoardCreate (apicTimer ++ [.isaIrq 0 true, .sampleIntr false true])).map levels =
        some (false, true, false) ∧
      (irqRun x86BoardCreate [.isaIrq 0 true, .picWrite .master false 0x11]).map levels =
        some (true, false, false) ∧
      (irqRun x86BoardCreate ([.isaIrq 0 true, .reset []] ++ apicTimer ++
        [.lapicWrite 0x80 0xff 0])).map levels = some (true, false, false) := by
  decide +kernel

end Cemu.X86
