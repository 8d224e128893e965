import Cemu.X86.Lapic

/-!
# The interrupt wiring of the PC board

The 8259 pair, the Local APIC, the I/O APIC and the processor's pins, with the callbacks
between them: the callback half of `i8259.c` and `lapic.c`, `ioapic.c`, the sinks of
`board/x86_min.c`, the INTR sampling of `x86_step` and the interrupt part of `X86Reset`.
Every function is a transformer of the whole board, so that a callback that re-enters a
controller (an EOI retiring an I/O APIC pin that asks again) is the call it is in the source.

A run is a list of `IrqEvent`s. Only what reaches these devices is an event: an instruction
is the list of its accesses to them. `delivered` is a history: the vectors `LapicDeliver`
accepted, newest first; no function reads it.
-/

namespace Cemu.X86

/-! ## Devices and board -/

inductive DeliverSink where
  | onIoapicDeliver
  deriving DecidableEq, Repr

inductive NmiSink where
  | onIoapicNmi
  deriving DecidableEq, Repr

structure IoapicPin where
  vector : BitVec 32
  delivery : BitVec 32
  destMode : Bool
  polarity : Bool
  remoteIrr : Bool
  trigger : Bool
  mask : Bool
  dest : BitVec 32
  level : Bool
  deriving DecidableEq, Repr

def kIoapicPins : Nat := 24

structure IoapicDevice where
  index : BitVec 32
  id : BitVec 32
  pins : Vector IoapicPin kIoapicPins
  deliver : Option DeliverSink
  deliverNmi : Option NmiSink
  deriving DecidableEq, Repr

structure CpuPins where
  intrPending : Bool
  nmiPending : Bool
  nmiBlocked : Bool
  wait : Bool
  deriving DecidableEq, Repr

structure IrqBoard where
  pic : PicDevice
  lapic : LapicDevice
  ioapic : IoapicDevice
  picIrq : Bool
  lapicIrq : Bool
  intrLevel : Bool
  cpu : CpuPins
  delivered : List Nat
  deriving DecidableEq, Repr

/-! ## The processor's pins -/

def x86SetIntr (c : CpuPins) (level : Bool) : CpuPins :=
  { c with intrPending := level, wait := if level then false else c.wait }

def x86SetNmi (c : CpuPins) : CpuPins := { c with nmiPending := true, wait := false }

/-! ## The sinks of the controllers -/

variable (b : IrqBoard)

def updateIntr : IrqBoard :=
  let level := b.picIrq || b.lapicIrq
  { b with intrLevel := level, cpu := x86SetIntr b.cpu level }

def onPicIrq (level : Bool) : IrqBoard := updateIntr { b with picIrq := level }

def onLapicIrq (level : Bool) : IrqBoard := updateIntr { b with lapicIrq := level }

def callSetIrq (sink : Option IrqSink) (b : IrqBoard) (level : Bool) : IrqBoard :=
  match sink with
  | none => b
  | some .onPicIrq => onPicIrq b level
  | some .onLapicIrq => onLapicIrq b level

/-! ## The 8259 pair on the board -/

def picUpdateIrq : IrqBoard :=
  let pic := picCascade b.pic
  callSetIrq pic.setIrq { b with pic := pic } (picHasPending pic)

def picSetIrq (irq : Fin 16) (level : Bool) : IrqBoard :=
  let chip : Chip := if irq.val < 8 then .master else .slave
  picUpdateIrq { b with pic := b.pic.set (picSetIrq1 (b.pic.get chip) (irq.val % 8) level) chip }

def picAcknowledge : Nat × IrqBoard :=
  ((picTake b.pic).1, picUpdateIrq { b with pic := (picTake b.pic).2 })

def picPortWrite (chip : Chip) (data : Bool) (val : BitVec 8) : IrqBoard :=
  let r := picIoWrite (b.pic.get chip) data val
  let b₁ := { b with pic := b.pic.set r.1 chip }
  if r.2 then picUpdateIrq b₁ else b₁

def picPortRead (chip : Chip) (data : Bool) : BitVec 8 × IrqBoard :=
  let r := picIoRead chip (b.pic.get chip) data
  (r.1, { b with pic := b.pic.set r.2 chip })

def elcrWrite (chip : Chip) (val : BitVec 8) : IrqBoard :=
  let s := b.pic.get chip
  { b with pic := b.pic.set { s with elcr := val &&& s.elcrMask } chip }

/-! ## The Local APIC on the board -/

def lapicUpdateIrq : IrqBoard :=
  let level := deliverable b.lapic
  if level = b.lapic.irqLevel then b
  else callSetIrq b.lapic.setIrq { b with lapic := { b.lapic with irqLevel := level } } level

def lapicDeliver (vector : Nat) (levelTriggered : Bool) : IrqBoard :=
  if vector < 16 ∨ 255 < vector then b
  else lapicUpdateIrq { b with
    lapic := { b.lapic with
      irr := vectorSet b.lapic.irr vector
      tmr := if levelTriggered then vectorSet b.lapic.tmr vector
        else vectorClear b.lapic.tmr vector }
    delivered := vector :: b.delivered }

def lapicAcknowledge : Option Nat × IrqBoard :=
  if svrEnabled b.lapic = false then (none, b)
  else if deliverable b.lapic = false then (none, b)
  else match highestVector b.lapic.irr with
    | none => (none, b)
    | some vec =>
      (some vec, lapicUpdateIrq { b with lapic := { b.lapic with
        irr := vectorClear b.lapic.irr vec
        isr := vectorSet b.lapic.isr vec } })

def timerFire : IrqBoard :=
  let lvt := b.lapic.regAt kLapicLvtTimer
  let vector := (lvt &&& 0xff#32).toNat
  if lvt.getLsbD 16 = false ∧ 16 ≤ vector then lapicDeliver b vector false else b

def timerExpire (now : Int) : IrqBoard :=
  let lvt := b.lapic.regAt kLapicLvtTimer
  let b₁ := timerFire b
  let initial := b₁.lapic.regAt kLapicTimerInitial
  if (lvt >>> 17 &&& 3#32) = 1 ∧ initial ≠ 0 then
    { b₁ with lapic := timerArm b₁.lapic initial now }
  else { b₁ with lapic := { b₁.lapic with timerCount := 0 } }

def lapicPoll (now : Int) : IrqBoard :=
  if b.lapic.timerCount = 0 then b
  else if countsElapsed b.lapic now < b.lapic.timerCount.toNat then b
  else timerExpire b now

/-! ## The I/O APIC on the board -/

def destMatch (d : LapicDevice) (dest : BitVec 32) (logical : Bool) : Bool :=
  if logical then decide (dest &&& lapicLogicalMask d ≠ 0) else decide (dest = lapicId d)

def onIoapicDeliver (dest : BitVec 32) (logical : Bool) (vector : Nat)
    (trigger : Bool) : IrqBoard :=
  if destMatch b.lapic dest logical then lapicDeliver b vector trigger else b

def onIoapicNmi (dest : BitVec 32) (logical : Bool) : IrqBoard :=
  if destMatch b.lapic dest logical then { b with cpu := x86SetNmi b.cpu } else b

def IrqBoard.setPin (pin : Fin kIoapicPins) (p : IoapicPin) : IrqBoard :=
  { b with ioapic := { b.ioapic with pins := b.ioapic.pins.set pin p pin.isLt } }

/-- `Service`: delivery modes 2 and 5 (SMI, INIT) and 7 (ExtINT) deliver nothing, 4 is NMI. -/
def ioapicService (pin : Fin kIoapicPins) : IrqBoard :=
  let p := b.ioapic.pins[pin]
  if p.mask then b
  else if p.delivery = 2 ∨ p.delivery = 5 then b
  else if p.delivery = 4 then
    match b.ioapic.deliverNmi with
    | some .onIoapicNmi => onIoapicNmi b p.dest p.destMode
    | none => b
  else if p.delivery = 7 then b
  else
    let b₁ := b.setPin pin { p with remoteIrr := p.remoteIrr || p.trigger }
    match b.ioapic.deliver with
    | some .onIoapicDeliver =>
      onIoapicDeliver b₁ p.dest p.destMode (p.vector &&& 0xff#32).toNat p.trigger
    | none => b₁

def ioapicReassess (pin : Fin kIoapicPins) : IrqBoard :=
  let p := b.ioapic.pins[pin]
  if p.trigger = false ∨ p.level = false ∨ p.remoteIrr then b else ioapicService b pin

def IoapicPin.asserted (p : IoapicPin) (level : Bool) : Bool := if p.polarity then !level else level

def ioapicSetPin (pin : Fin kIoapicPins) (level : Bool) : IrqBoard :=
  let p := b.ioapic.pins[pin]
  let b₁ := b.setPin pin { p with level := p.asserted level }
  if p.asserted level = false then b₁
  else if p.trigger then ioapicReassess b₁ pin
  else ioapicService b₁ pin

def ioapicEoiPin (vector : Nat) (b : IrqBoard) (pin : Fin kIoapicPins) : IrqBoard :=
  let p := b.ioapic.pins[pin]
  if p.remoteIrr = false ∨ (p.vector &&& 0xff#32).toNat ≠ vector then b
  else
    let b₁ := b.setPin pin { p with remoteIrr := false }
    if p.level then ioapicReassess b₁ pin else b₁

def ioapicEoi (vector : Nat) : IrqBoard :=
  (List.finRange kIoapicPins).foldl (ioapicEoiPin vector) b

def setPinLow (p : IoapicPin) (v : BitVec 32) : IoapicPin :=
  { p with
    vector := v &&& 0xff#32
    delivery := v >>> 8 &&& 7#32
    destMode := v.getLsbD 11
    polarity := v.getLsbD 13
    trigger := v.getLsbD 15
    mask := v.getLsbD 16 }

def ioapicWrite (off : Nat) (v : BitVec 32) : IrqBoard :=
  if off = 0 then { b with ioapic := { b.ioapic with index := v &&& 0xff#32 } }
  else if off ≠ 0x10 then b
  else
    let index := b.ioapic.index.toNat
    if index = 0 then { b with ioapic := { b.ioapic with id := v >>> 24 &&& 0xf#32 } }
    else if index = 1 ∨ index = 2 then b
    else if h : 0x10 ≤ index ∧ index ≤ 0x10 + 2 * kIoapicPins - 1 then
      let pin : Fin kIoapicPins := ⟨(index - 0x10) / 2, by simp only [kIoapicPins] at h ⊢; omega⟩
      let p := b.ioapic.pins[pin]
      ioapicReassess
        (b.setPin pin (if index % 2 = 0 then setPinLow p v
          else { p with dest := v >>> 24 &&& 0xf#32 })) pin
    else b

def ioapicInit (d : IoapicDevice) : IoapicDevice where
  index := 0
  id := 0
  pins := Vector.replicate kIoapicPins ⟨0, 0, false, false, false, false, true, 0, false⟩
  deliver := d.deliver
  deliverNmi := d.deliverNmi

/-! ## The Local APIC's registers on the board -/

def onLapicEoi (vector : Nat) : IrqBoard := ioapicEoi b vector

/-- Retiring the in-service vector `vec`: a level request is broadcast to the I/O APIC. -/
def lapicRetire (vec : Nat) : IrqBoard :=
  let b₁ := { b with lapic := { b.lapic with isr := vectorClear b.lapic.isr vec } }
  if b.lapic.tmr.getLsbD vec then
    match b.lapic.eoi with
    | some .onLapicEoi => onLapicEoi b₁ vec
    | none => b₁
  else b₁

def lapicEoi : IrqBoard :=
  match highestVector b.lapic.isr with
  | none => b
  | some vec => lapicUpdateIrq (lapicRetire b vec)

def IrqBoard.setReg (off : Nat) (v : BitVec 32) : IrqBoard :=
  { b with lapic := { b.lapic with reg := b.lapic.reg.setIfInBounds (off / 16) v } }

def lapicWrite (off : Nat) (v : BitVec 32) (now : Int) : Option IrqBoard :=
  if off % 16 ≠ 0 then some b
  else if off = kLapicEoi then some (lapicEoi b)
  else if off = kLapicTpr then some (lapicUpdateIrq (b.setReg off (v &&& 0xff#32)))
  else if off = kLapicSvr then some (lapicUpdateIrq (b.setReg off v))
  else if off = kLapicPpr ∨ off = kLapicTimerCurrent then some b
  else if off = kLapicEsr then some (b.setReg off (b.lapic.regAt off &&& ~~~v))
  else if off = kLapicTimerInitial then
    let b₁ := b.setReg off v
    some { b₁ with lapic := timerArm b₁.lapic v now }
  else if off = kLapicTimerDivide then
    let current := timerCurrent b.lapic now
    let b₁ := b.setReg off v
    some (if current ≠ 0 then { b₁ with lapic := timerArm b₁.lapic current now } else b₁)
  else (b.lapic.storeSlot (off / 16) v).map fun lapic => { b with lapic := lapic }

/-! ## The board -/

def onIntAck : Nat × IrqBoard :=
  match lapicAcknowledge b with
  | (some vec, b₁) => (vec, b₁)
  | (none, b₁) => picAcknowledge b₁

def onIsaIrq (line : Fin 16) (level : Bool) : IrqBoard :=
  ioapicSetPin (picSetIrq b line level) (line.castLE (by decide)) level

/-- The INTR sampling of `x86_step`: the acknowledge, and then the processor's own copy. -/
def sampleIntr (intrShadow intsOn : Bool) : IrqBoard :=
  if b.cpu.intrPending && !intrShadow && intsOn then
    let b₁ := (onIntAck b).2
    { b₁ with cpu := { b₁.cpu with intrPending := false, wait := false } }
  else b

def sampleNmi : IrqBoard :=
  if b.cpu.nmiPending && !b.cpu.nmiBlocked then
    { b with cpu := { b.cpu with nmiPending := false, nmiBlocked := true, wait := false } }
  else b

def unblockNmi : IrqBoard := { b with cpu := { b.cpu with nmiBlocked := false } }

def wireDevices : IrqBoard :=
  { b with
    pic := { b.pic with setIrq := some .onPicIrq }
    lapic := { b.lapic with setIrq := some .onLapicIrq, eoi := some .onLapicEoi }
    ioapic := { b.ioapic with
      deliver := some .onIoapicDeliver
      deliverNmi := some .onIoapicNmi } }

def x86InitPins : CpuPins := ⟨false, false, false, false⟩

/-- `X86Reset`. The UART's reset lowers IRQ4 into the live controllers; the controllers are
then initialised, and `lows` are the lines the later device resets (CMOS, floppy, IDE, power
management) drive low before the sinks are wired again. The board's own copies of the levels
are in none of these. -/
def x86Reset (lows : List (Fin 16)) : IrqBoard :=
  let b₁ := onIsaIrq b 4 false
  let b₂ := { b₁ with
    pic := picInit b₁.pic
    lapic := lapicInit b₁.lapic
    ioapic := ioapicInit b₁.ioapic }
  let b₃ := wireDevices (lows.foldl (fun b line => onIsaIrq b line false) b₂)
  { b₃ with cpu := x86InitPins }

def x86BoardCreate : IrqBoard :=
  let chip : PicState := ⟨0, 0, 0, 0, 0, 0, false, false, false, 0, false, false, false, false,
    false, false, 0, 0⟩
  wireDevices
    { pic := picInit ⟨chip, chip, none⟩
      lapic := lapicInit ⟨Vector.replicate _ 0, 0, 0, 0, 0, 0, false, none, none⟩
      ioapic := ioapicInit ⟨0, 0, Vector.replicate _ ⟨0, 0, false, false, false, false, false, 0,
        false⟩, none, none⟩
      picIrq := false
      lapicIrq := false
      intrLevel := false
      cpu := x86InitPins
      delivered := [] }

/-! ## What the I/O APIC can do to the board

It changes its own registers, raises the NMI pin and hands vectors to the Local APIC: a
property kept by these three is kept by every one of its functions. -/

structure KeptByIoapic (P : IrqBoard → Prop) : Prop where
  ioapic : ∀ b io, P b → P { b with ioapic := io }
  nmi : ∀ b, P b → P { b with cpu := x86SetNmi b.cpu }
  deliver : ∀ b vector trigger, P b → P (lapicDeliver b vector trigger)

namespace KeptByIoapic

variable {P : IrqBoard → Prop} (hP : KeptByIoapic P) {b : IrqBoard}
include hP

section

variable (pin : Fin kIoapicPins)

theorem setPin (p : IoapicPin) (h : P b) : P (b.setPin pin p) := hP.ioapic b _ h

theorem onIoapicDeliver (dest : BitVec 32) (logical : Bool) (vector : Nat) (trigger : Bool)
    (h : P b) : P (onIoapicDeliver b dest logical vector trigger) := by
  unfold Cemu.X86.onIoapicDeliver
  split
  · exact hP.deliver b vector trigger h
  · exact h

theorem onIoapicNmi (dest : BitVec 32) (logical : Bool) (h : P b) :
    P (onIoapicNmi b dest logical) := by
  unfold Cemu.X86.onIoapicNmi
  split
  · exact hP.nmi b h
  · exact h

theorem ioapicService (h : P b) : P (ioapicService b pin) := by
  unfold Cemu.X86.ioapicService
  dsimp only
  split
  · exact h
  split
  · exact h
  split
  · split
    · exact hP.onIoapicNmi _ _ h
    · exact h
  split
  · exact h
  split
  · exact hP.onIoapicDeliver _ _ _ _ (hP.setPin pin _ h)
  · exact hP.setPin pin _ h

theorem ioapicReassess (h : P b) : P (ioapicReassess b pin) := by
  unfold Cemu.X86.ioapicReassess
  dsimp only
  split
  · exact h
  · exact hP.ioapicService pin h

theorem ioapicSetPin (level : Bool) (h : P b) : P (ioapicSetPin b pin level) := by
  unfold Cemu.X86.ioapicSetPin
  dsimp only
  split
  · exact hP.setPin pin _ h
  split
  · exact hP.ioapicReassess pin (hP.setPin pin _ h)
  · exact hP.ioapicService pin (hP.setPin pin _ h)

end

theorem ioapicEoiPin (vector : Nat) (pin : Fin kIoapicPins) (h : P b) :
    P (ioapicEoiPin vector b pin) := by
  unfold Cemu.X86.ioapicEoiPin
  dsimp only
  split
  · exact h
  split
  · exact hP.ioapicReassess pin (hP.setPin pin _ h)
  · exact hP.setPin pin _ h

theorem ioapicEoi (vector : Nat) (h : P b) : P (ioapicEoi b vector) := by
  unfold Cemu.X86.ioapicEoi
  generalize List.finRange kIoapicPins = pins
  induction pins generalizing b with
  | nil => exact h
  | cons pin pins ih => exact ih (hP.ioapicEoiPin vector pin h)

theorem ioapicWrite (off : Nat) (v : BitVec 32) (h : P b) : P (ioapicWrite b off v) := by
  unfold Cemu.X86.ioapicWrite
  split
  · exact hP.ioapic b _ h
  split
  · exact h
  dsimp only
  split
  · exact hP.ioapic b _ h
  split
  · exact h
  split
  · exact hP.ioapicReassess _ (hP.setPin _ _ h)
  · exact h

end KeptByIoapic

/-! ## Runs -/

inductive IrqEvent where
  | isaIrq (line : Fin 16) (level : Bool)
  | picWrite (chip : Chip) (data : Bool) (val : BitVec 8)
  | picRead (chip : Chip) (data : Bool)
  | elcrWrite (chip : Chip) (val : BitVec 8)
  | lapicWrite (off : Fin 0x1000) (val : BitVec 32) (now : Int)
  | lapicRead (off : Fin 0x1000) (now : Int)
  | ioapicWrite (off : Fin 0x1000) (val : BitVec 32)
  | lapicPoll (now : Int)
  | sampleIntr (intrShadow intsOn : Bool)
  | sampleNmi
  | unblockNmi
  | reset (lows : List (Fin 16))
  deriving DecidableEq, Repr

def irqStep : IrqEvent → Option IrqBoard
  | .isaIrq line level => some (onIsaIrq b line level)
  | .picWrite chip data val => some (picPortWrite b chip data val)
  | .picRead chip data => some (picPortRead b chip data).2
  | .elcrWrite chip val => some (elcrWrite b chip val)
  | .lapicWrite off val now => Cemu.X86.lapicWrite b off val now
  | .lapicRead off now => (Cemu.X86.lapicRead b.lapic off now).map fun _ => b
  | .ioapicWrite off val => some (Cemu.X86.ioapicWrite b off val)
  | .lapicPoll now => some (Cemu.X86.lapicPoll b now)
  | .sampleIntr intrShadow intsOn => some (Cemu.X86.sampleIntr b intrShadow intsOn)
  | .sampleNmi => some (Cemu.X86.sampleNmi b)
  | .unblockNmi => some (Cemu.X86.unblockNmi b)
  | .reset lows => some (x86Reset b lows)

/-- A chip between its initialisation and the first line that rises: no request, every line
edge-triggered. -/
structure PicState.Idle (s : PicState) : Prop where
  irr : s.irr = 0#8
  elcr : s.elcr = 0#8
  ltim : s.ltim = false

/-- The board in the middle of a reset: the controllers are initialised and the 8259 pair has no
sink, while the board's copies still hold the levels `picIrq` and `lapicIrq`. -/
structure InReset (picIrq lapicIrq : Bool) (b : IrqBoard) : Prop where
  master : b.pic.master.Idle
  slave : b.pic.slave.Idle
  sink : b.pic.setIrq = none
  lapic : deliverable b.lapic = false
  level : b.lapic.irqLevel = false
  pins : ∀ pin : Fin kIoapicPins, b.ioapic.pins[pin].polarity = false
  picIrq_eq : b.picIrq = picIrq
  lapicIrq_eq : b.lapicIrq = lapicIrq

/-! ## Edge-triggered pins of the I/O APIC

`IoapicSetPin` hands over a request on every call that finds an edge-triggered pin asserted, so a
device that drives its level again repeats the request. -/

/-- The entry is unmasked, edge triggered and of fixed delivery mode. -/
structure EdgeEntry (p : IoapicPin) : Prop where
  unmasked : p.mask = false
  edge : p.trigger = false
  fixed : p.delivery = 0

def handOver (p : IoapicPin) (b : IrqBoard) : IrqBoard :=
  match b.ioapic.deliver with
  | some .onIoapicDeliver => onIoapicDeliver b p.dest p.destMode (p.vector &&& 0xff#32).toNat false
  | none => b

/-- The requests handed over while the wire of the pin takes these levels. -/
def handed (pin : Fin kIoapicPins) : IrqBoard → List Bool → Nat
  | _, [] => 0
  | b, level :: rest =>
    (b.ioapic.pins[pin].asserted level).toNat + handed pin (ioapicSetPin b pin level) rest

def risen : Bool → List Bool → Nat
  | _, [] => 0
  | was, now :: rest => (!was && now).toNat + risen now rest

/-- The calls that find the pin asserted and leave it so. -/
def redriven : Bool → List Bool → Nat
  | _, [] => 0
  | was, now :: rest => (was && now).toNat + redriven now rest

variable {b : IrqBoard} {pin : Fin kIoapicPins} {p : IoapicPin}

theorem lapicUpdateIrq_ioapic : (lapicUpdateIrq b).ioapic = b.ioapic := by
  unfold lapicUpdateIrq callSetIrq
  dsimp only
  split
  · rfl
  · split <;> rfl

theorem ioapic_handOver : (handOver p b).ioapic = b.ioapic := by
  unfold handOver onIoapicDeliver lapicDeliver
  split
  · split
    · split
      · rfl
      · exact lapicUpdateIrq_ioapic
    · rfl
  · rfl

section

variable (hp : b.ioapic.pins[pin] = p) (h : EdgeEntry p)
include hp h

theorem ioapicSetPin_edge (level : Bool) :
    ioapicSetPin b pin level = (handOver p)^[(p.asserted level).toNat]
      (b.setPin pin { p with level := p.asserted level }) := by
  cases hlevel : p.asserted level with
  | false => simp [ioapicSetPin, hp, hlevel]
  | true =>
    simp [ioapicSetPin, hp, hlevel, ioapicService, IrqBoard.setPin, h.unmasked, h.edge, h.fixed]
    rfl

theorem ioapicSetPin_pin (level : Bool) :
    (ioapicSetPin b pin level).ioapic.pins[pin] = { p with level := p.asserted level } := by
  rw [ioapicSetPin_edge hp h]
  cases p.asserted level <;> simp [ioapic_handOver, IrqBoard.setPin]

theorem handed_eq (levels : List Bool) : handed pin b levels =
    risen p.level (levels.map p.asserted) + redriven p.level (levels.map p.asserted) := by
  induction levels generalizing b p with
  | nil => rfl
  | cons level rest ih =>
    have hrest := ih (ioapicSetPin_pin hp h level) ⟨h.unmasked, h.edge, h.fixed⟩
    have hcall : (p.asserted level).toNat =
        (!p.level && p.asserted level).toNat + (p.level && p.asserted level).toNat := by
      cases p.level <;> simp
    rw [handed, hp, hrest, hcall]
    exact Nat.add_add_add_comm ..

end

theorem edge_pin_iff (b : IrqBoard) (pin : Fin kIoapicPins) (p : IoapicPin)
    (hp : b.ioapic.pins[pin] = p) (h : EdgeEntry p) (levels : List Bool) :
    (∀ level, ioapicSetPin b pin level = (handOver p)^[handed pin b [level]]
      (b.setPin pin { p with level := p.asserted level })) ∧
    (handed pin b levels = risen p.level (levels.map p.asserted) ↔
      redriven p.level (levels.map p.asserted) = 0) := by
  constructor
  · intro level
    rw [ioapicSetPin_edge hp h, handed, hp]
    rfl
  · rw [handed_eq hp h]
    omega

def uartPin : Fin kIoapicPins := ⟨4, by decide⟩

/-- The pin of the UART with vector 0x31 to the Local APIC of the board. -/
def edgeBoard : IrqBoard :=
  x86BoardCreate.setPin uartPin ⟨0x31, 0, false, false, false, false, false, 0, false⟩

theorem edge_pin_pulsed : handed uartPin edgeBoard [true, false, true] = 2 :=
  ((edge_pin_iff edgeBoard uartPin _ rfl ⟨rfl, rfl, rfl⟩ [true, false, true]).2.2 rfl).trans rfl

/-- A level driven twice is one edge and two requests. -/
theorem edge_pin_redriven :
    handed uartPin edgeBoard [true, true] = 2 ∧ risen false [true, true] = 1 ∧
      ([true, true].foldl (ioapicSetPin · uartPin) edgeBoard).delivered = [0x31, 0x31] := by
  decide +kernel

end Cemu.X86
