import Cemu.Lib.Numerals

/-!
# The 8259A pair: one chip

The chip-level functions of `device/intc/i8259.c`: the priority search, the request and
acknowledge of a line, the command and data ports. What drives the processor's line
(`PicUpdateIrq` and its callers) is board wiring and is in `Cemu.X86.IrqBoard`.

A flag the source keeps in a `uint8_t` and only ever tests is a `Bool`; the debug marks are
left out.
-/

namespace Cemu.X86

inductive IrqSink where
  | onPicIrq
  | onLapicIrq
  deriving DecidableEq, Repr

inductive Chip where
  | master
  | slave
  deriving DecidableEq, Repr

structure PicState where
  lastIrr : BitVec 8
  irr : BitVec 8
  imr : BitVec 8
  isr : BitVec 8
  priorityAdd : BitVec 8
  irqBase : BitVec 8
  readRegSelect : Bool
  poll : Bool
  specialMask : Bool
  initState : Fin 4
  autoEoi : Bool
  rotateOnAutoEoi : Bool
  specialFullyNestedMode : Bool
  init4 : Bool
  singleMode : Bool
  ltim : Bool
  elcr : BitVec 8
  elcrMask : BitVec 8
  deriving DecidableEq, Repr

def lineBit (irq : Nat) : BitVec 8 := 1#8 <<< irq

def getPriority (s : PicState) (mask : BitVec 8) : Nat :=
  ((List.range 8).find? fun priority =>
    mask.getLsbD ((priority + s.priorityAdd.toNat) % 8)).getD 8

theorem getPriority_le (s : PicState) (mask : BitVec 8) : getPriority s mask ≤ 8 := by
  unfold getPriority
  cases h : (List.range 8).find? _ with
  | none => exact le_refl 8
  | some priority => exact (List.mem_range.mp (List.mem_of_find?_eq_some h)).le

def PicState.curMask (chip : Chip) (s : PicState) : BitVec 8 :=
  let m := if s.specialMask then s.isr &&& ~~~s.imr else s.isr
  if s.specialFullyNestedMode ∧ chip = .master then m &&& ~~~lineBit 2 else m

def picGetIrq (chip : Chip) (s : PicState) : Option Nat :=
  let priority := getPriority s (s.irr &&& ~~~s.imr)
  if priority = 8 then none
  else if priority < getPriority s (s.curMask chip) then
    some ((priority + s.priorityAdd.toNat) % 8)
  else none

theorem picGetIrq_isSome (chip : Chip) (s : PicState) : (picGetIrq chip s).isSome =
      decide (getPriority s (s.irr &&& ~~~s.imr) < getPriority s (s.curMask chip)) := by
  have hle := getPriority_le s (s.curMask chip)
  unfold picGetIrq
  dsimp only
  split
  · rename_i h8
    rw [h8, decide_eq_false (Nat.not_lt.mpr hle)]
    rfl
  split
  · rename_i hlt
    rw [decide_eq_true hlt]
    rfl
  · rename_i hge
    rw [decide_eq_false hge]
    rfl

theorem picGetIrq_of_irr_zero {chip : Chip} {s : PicState} (h : s.irr = 0#8) :
    picGetIrq chip s = none := by
  have h8 : getPriority s (s.irr &&& ~~~s.imr) = 8 := by
    simp only [h, BitVec.zero_and, getPriority, BitVec.getLsbD_zero]
    rfl
  simp only [picGetIrq, h8, if_true]

def picSetIrq1 (s : PicState) (irq : Nat) (level : Bool) : PicState :=
  let mask := lineBit irq
  let levelMode := ((s.elcr &&& s.elcrMask) ||| (if s.ltim then 0xff#8 else 0)) &&& mask
  if levelMode ≠ 0 then
    { s with
      irr := if level then s.irr ||| mask else s.irr &&& ~~~mask
      lastIrr := (s.lastIrr &&& ~~~mask) ||| (if level then mask else 0) }
  else if level then
    { s with
      irr := if s.lastIrr &&& mask = 0 then s.irr ||| mask else s.irr
      lastIrr := s.lastIrr ||| mask }
  else { s with lastIrr := s.lastIrr &&& ~~~mask }

def picIntack (s : PicState) (irq : Nat) : PicState :=
  let s₁ :=
    if s.autoEoi then
      if s.rotateOnAutoEoi then { s with priorityAdd := BitVec.ofNat 8 ((irq + 1) % 8) } else s
    else { s with isr := s.isr ||| lineBit irq }
  { s₁ with irr := s₁.irr &&& ~~~lineBit irq }

def picReset (s : PicState) : PicState where
  lastIrr := 0
  irr := 0
  imr := 0
  isr := 0
  priorityAdd := 0
  irqBase := 0
  readRegSelect := false
  poll := false
  specialMask := false
  initState := 0
  autoEoi := false
  rotateOnAutoEoi := false
  specialFullyNestedMode := false
  init4 := false
  singleMode := false
  ltim := false
  elcr := 0
  elcrMask := s.elcrMask

def picOcw2 (s : PicState) (val : BitVec 8) : PicState :=
  let irq := val.toNat % 8
  match val.toNat / 32 with
  | 0 => { s with rotateOnAutoEoi := false }
  | 4 => { s with rotateOnAutoEoi := true }
  | 1 =>
    let priority := getPriority s s.isr
    if priority = 8 then s
    else { s with isr := s.isr &&& ~~~lineBit ((priority + s.priorityAdd.toNat) % 8) }
  | 5 =>
    let priority := getPriority s s.isr
    if priority = 8 then s
    else
      let line := (priority + s.priorityAdd.toNat) % 8
      { s with isr := s.isr &&& ~~~lineBit line, priorityAdd := BitVec.ofNat 8 ((line + 1) % 8) }
  | 3 => { s with isr := s.isr &&& ~~~lineBit irq }
  | 6 => { s with priorityAdd := BitVec.ofNat 8 ((val.toNat + 1) % 8) }
  | 7 => { s with isr := s.isr &&& ~~~lineBit irq, priorityAdd := BitVec.ofNat 8 ((irq + 1) % 8) }
  | _ => s

/-- The chip's side of `PicIoWrite`, with whether the write ends in `PicUpdateIrq`: ICW1,
OCW3 and ICW2..4 do not. `data` is the address bit (`kPortData`). -/
def picIoWrite (s : PicState) (data : Bool) (val : BitVec 8) : PicState × Bool :=
  if data then
    match s.initState with
    | 0 => ({ s with imr := val }, true)
    | 1 => ({ s with
        irqBase := val &&& 0xf8#8
        initState := if s.singleMode then (if s.init4 then 3 else 0) else 2 }, false)
    | 2 => ({ s with initState := if s.init4 then 3 else 0 }, false)
    | 3 => ({ s with
        specialFullyNestedMode := val.getLsbD 4
        autoEoi := val.getLsbD 1
        initState := 0 }, false)
  else if val.getLsbD 4 then
    ({ picReset s with
        initState := 1
        init4 := val.getLsbD 0
        singleMode := val.getLsbD 1
        ltim := val.getLsbD 3 }, false)
  else if val.getLsbD 3 then
    ({ s with
        poll := if val.getLsbD 2 then true else s.poll
        readRegSelect := if val.getLsbD 1 then val.getLsbD 0 else s.readRegSelect
        specialMask := if val.getLsbD 6 then val.getLsbD 5 else s.specialMask }, false)
  else (picOcw2 s val, true)

def picIoRead (chip : Chip) (s : PicState) (data : Bool) : BitVec 8 × PicState :=
  if s.poll then
    let s₁ := { s with poll := false }
    match picGetIrq chip s₁ with
    | some ret =>
      (BitVec.ofNat 8 ret ||| 0x80#8,
        { s₁ with irr := s₁.irr &&& ~~~lineBit ret, isr := s₁.isr &&& ~~~lineBit ret })
    | none => (7, s₁)
  else (if data then s.imr else if s.readRegSelect then s.isr else s.irr, s)

structure PicDevice where
  master : PicState
  slave : PicState
  setIrq : Option IrqSink
  deriving DecidableEq, Repr

section

variable (pic : PicDevice)

def PicDevice.get : Chip → PicState
  | .master => pic.master
  | .slave => pic.slave

def PicDevice.set (s : PicState) : Chip → PicDevice
  | .master => { pic with master := s }
  | .slave => { pic with slave := s }

def picHasPending : Bool := (picGetIrq .master pic.master).isSome

/-- `PicInit` on a controller that exists: both chips reset, their ELCR masks set, the sink
dropped. -/
def picInit : PicDevice where
  master := { picReset pic.master with elcrMask := 0xf8 }
  slave := { picReset pic.slave with elcrMask := 0xde }
  setIrq := none

/-- The slave's INT output on the master's third line, as `PicUpdateIrq` drives it: it sets
the request, and only ever clears the edge latch. -/
def picCascade : PicDevice :=
  if (picGetIrq .slave pic.slave).isSome then
    { pic with master := { pic.master with
        lastIrr := pic.master.lastIrr ||| lineBit 2
        irr := pic.master.irr ||| lineBit 2 } }
  else
    { pic with master := { pic.master with lastIrr := pic.master.lastIrr &&& ~~~lineBit 2 } }

/-- The chips' side of `PicAcknowledge`, before its `PicUpdateIrq`, with the vector. -/
def picTake : Nat × PicDevice :=
  match picGetIrq .master pic.master with
  | some irq =>
    let pic₁ := { pic with master := picIntack pic.master irq }
    if irq = 2 then
      match picGetIrq .slave pic₁.slave with
      | some irq2 =>
        (pic₁.slave.irqBase.toNat + irq2, { pic₁ with slave := picIntack pic₁.slave irq2 })
      | none => (pic₁.slave.irqBase.toNat + 7, pic₁)
    else (pic₁.master.irqBase.toNat + irq, pic₁)
  | none => (pic.master.irqBase.toNat + 7, pic)

end

end Cemu.X86
