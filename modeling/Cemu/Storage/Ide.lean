import Cemu.Dma.Move
import Cemu.Host.File

/-!
# The IDE channel: data phases and the bus-master engine

The part of `device/storage/ide.c` that every command shares: the interrupt line, the ways a
command ends, the DRQ rounds of a PIO transfer and the bus-master engine. The cursors are the
source's `int`s and stay far from their limits, so they are `Int`; the buffer is a function of the
offset.

`writeCmd` is a history: the WRITE command the channel accepted, while it is the current one. No
function reads it.
-/

namespace Cemu.Storage

open Cemu.Dma

def kAtaBlockSize : Nat := 512
def kAtapiBlockSize : Nat := 2048
def kAtapiCdbSize : Nat := 12
def kMaxMultipleSectors : Nat := 16
def kIdeDrivesPerChannel : Nat := 2

theorem kIdeDrivesPerChannel_pos : 0 < kIdeDrivesPerChannel := by decide

def kStatusErr : BitVec 8 := 0x01
def kStatusDrq : BitVec 8 := 0x08
def kStatusBsy : BitVec 8 := 0x80
def kStatusReady : BitVec 8 := 0x50
def kStatusAborted : BitVec 8 := 0x41
def kErrorAbrt : BitVec 8 := 0x04
def kErrorMc : BitVec 8 := 0x20
def kAtapiReasonCd : BitVec 8 := 0x01
def kAtapiReasonIo : BitVec 8 := 0x02
def kAtapiReasonDone : BitVec 8 := 0x03
def kPowerActive : BitVec 8 := 0xff
def kPowerStandby : BitVec 8 := 0x00
def kBmdmaActive : BitVec 8 := 0x01
def kBmdmaError : BitVec 8 := 0x02
def kBmdmaIntr : BitVec 8 := 0x04

structure IdeDrive where
  image : Option HostFile
  atapi : Bool
  blocks : Nat
  cylinders : BitVec 16
  heads : BitVec 8
  sectorsPerTrack : BitVec 8
  error : BitVec 8
  status : BitVec 8
  senseKey : BitVec 8
  asc : BitVec 8
  trayOpen : Bool
  trayLocked : Bool
  power : BitVec 8
  sleeping : Bool
  multiple : BitVec 8

structure WriteCmd where
  drive : Fin kIdeDrivesPerChannel
  lba : Nat
  count : Nat
  deriving DecidableEq, Repr

structure IdeChannel where
  drives : Fin kIdeDrivesPerChannel → IdeDrive
  count : BitVec 8
  lbaLow : BitVec 8
  lbaMid : BitVec 8
  lbaHigh : BitVec 8
  prevCount : BitVec 8
  prevLbaLow : BitVec 8
  prevLbaMid : BitVec 8
  prevLbaHigh : BitVec 8
  head : BitVec 8
  feature : BitVec 8
  selected : Fin kIdeDrivesPerChannel
  devctrl : BitVec 8
  /-- The drive executing; `none` is the source's `-1`. -/
  active : Option (Fin kIdeDrivesPerChannel)
  isWrite : Bool
  packet : Bool
  dma : Bool
  lba : Int
  left : Int
  round : Int
  used : Int
  blockSize : Int
  limit : Int
  refill : Bool
  multi : Nat
  irqPending : Bool
  bmdmaCmd : BitVec 8
  bmdmaStatus : BitVec 8
  bmdmaPrd : BitVec 32
  buf : Nat → BitVec 8
  /-- The level last driven through `set_irq`. -/
  irqLine : Bool
  writeCmd : Option WriteCmd

namespace IdeChannel

variable (ch : IdeChannel) (i : Fin kIdeDrivesPerChannel)

def setDrive (f : IdeDrive → IdeDrive) : IdeChannel :=
  { ch with drives := Function.update ch.drives i (f (ch.drives i)) }

def selectedDrive : IdeDrive := ch.drives ch.selected

def started : Bool := ch.bmdmaCmd.getLsbD 0

def toMem : Bool := ch.bmdmaCmd.getLsbD 3

end IdeChannel

/-! ## The interrupt line -/

def updateIrq (ch : IdeChannel) : IdeChannel :=
  { ch with irqLine := ch.irqPending && !ch.devctrl.getLsbD 1 }

def raiseIrqIde (ch : IdeChannel) : IdeChannel := updateIrq { ch with irqPending := true }

def clearIrq (ch : IdeChannel) : IdeChannel := updateIrq { ch with irqPending := false }

/-! ## How a command ends -/

section

variable (ch : IdeChannel) (i : Fin kIdeDrivesPerChannel)

def idle : IdeChannel :=
  { ch with active := none, left := 0, round := 0, multi := 0, packet := false }

def abort : IdeChannel :=
  raiseIrqIde (idle (ch.setDrive i fun dr =>
    { dr with error := kErrorAbrt, status := kStatusAborted }))

def atapiError (senseKey asc : BitVec 8) : IdeChannel :=
  let ch := ch.setDrive i fun dr =>
    { dr with error := senseKey <<< 4, status := 0x41, senseKey := senseKey, asc := asc }
  raiseIrqIde (idle { ch with count := kAtapiReasonDone })

def cmdOk : IdeChannel :=
  let ch := ch.setDrive i fun dr => { dr with error := 0, status := kStatusReady }
  raiseIrqIde (idle { ch with count := kAtapiReasonDone })

def mediumReadFailed : IdeChannel :=
  if (ch.drives i).atapi then atapiError ch i 0x5 0x21 else abort ch i

def endCommand : IdeChannel :=
  let ch := if (ch.drives i).atapi then { ch with count := kAtapiReasonDone } else ch
  let ch := ch.setDrive i fun dr => { dr with status := dr.status &&& ~~~kStatusDrq }
  raiseIrqIde { ch with active := none, round := 0, multi := 0 }

def checkCondition : IdeChannel :=
  let ch := ch.setDrive i fun dr => { dr with error := kErrorMc ||| 0x60, status := kStatusErr }
  raiseIrqIde { ch with count := 0, active := none, left := 0, round := 0, packet := false }

/-! ## The medium -/

/-- `HostFileReadAt` of drive `i` into the buffer, with whether all `n` bytes came. -/
def readMedium (off : Int) (n : Nat) : IdeChannel × Bool :=
  match (ch.drives i).image with
  | some f =>
    let bytes := f.readAt off n
    ({ ch with buf := fillBuf ch.buf bytes }, decide (bytes.length = n))
  | none => (ch, false)

/-- `HostFileWriteAt` of the first `n` bytes of the buffer, with whether all went. -/
def writeMedium (off : Int) (n : Nat) : IdeChannel × Bool :=
  match (ch.drives i).image with
  | some f =>
    let w := f.writeAt off (bufBytes ch.buf n)
    (ch.setDrive i fun dr => { dr with image := some w.1 }, decide (w.2 = n))
  | none => (ch, false)

def storeIf (needed : Bool) (off : Int) (n : Nat) : IdeChannel × Bool :=
  if needed then writeMedium ch i off n else (ch, true)

def nextBlock : IdeChannel := { ch with used := 0, lba := ch.lba + 1 }

/-! ## DRQ rounds -/

def raiseDrq : IdeChannel :=
  if ch.dma then ch else ch.setDrive i fun dr => { dr with status := dr.status ||| kStatusDrq }

def multiBytes : Int := min (ch.left.tdiv kAtaBlockSize) ch.multi * kAtaBlockSize

def roundBytes : Int :=
  min (if ch.refill then min ch.left (ch.blockSize - ch.used) else ch.left) ch.limit

def fetchIf (needed : Bool) (off : Int) (n : Nat) : IdeChannel × Bool :=
  if needed then readMedium ch i off n else (ch, true)

def startMulti : IdeChannel := { ch with used := 0, round := multiBytes ch }

def startRound : IdeChannel × Bool :=
  if 0 < ch.multi then
    let r := fetchIf (startMulti ch) i (!ch.isWrite && decide (0 < multiBytes ch))
      (ch.lba * kAtaBlockSize) (multiBytes ch).toNat
    if r.2 then (raiseDrq r.1 i, true) else (r.1, false)
  else
    let r := fetchIf ch i (ch.refill && !ch.isWrite && decide (ch.used = 0))
      (ch.lba * ch.blockSize) ch.blockSize.toNat
    if r.2 then (raiseDrq { r.1 with round := roundBytes r.1 } i, true) else (r.1, false)

def startRoundOrFail (andThen : IdeChannel → IdeChannel) : IdeChannel :=
  let r := startRound ch i
  if r.2 then andThen r.1 else mediumReadFailed r.1 i

end

/-! ## The bus-master engine -/

/-- The outcome of the engine: `fatal` is a `Fatal` of the bus, `endless` a loop that has not come
to its end in the given number of rounds. -/
inductive Engine (α : Type) where
  | done (a : α)
  | fatal
  | endless

namespace Engine

variable {α β : Type}

def bind : Engine α → (α → Engine β) → Engine β
  | done a, f => f a
  | fatal, _ => fatal
  | endless, _ => endless

@[simp] theorem bind_done (a : α) (f : α → Engine β) : (done a).bind f = f a := rfl

def ofBus : Option α → Engine α
  | some a => done a
  | none => fatal

@[simp] theorem ofBus_some (a : α) : ofBus (some a) = done a := rfl

end Engine

section

variable {D : Type}

def le32 (b : Nat → BitVec 8) : BitVec 32 :=
  (b 0).setWidth 32 ||| ((b 1).setWidth 32 <<< 8) ||| ((b 2).setWidth 32 <<< 16) |||
    ((b 3).setWidth 32 <<< 24)

def memRead32 (w : World D) (addr : BitVec 32) : Option (BitVec 32 × World D) :=
  (moveBytes false (fun k => addr + BitVec.ofNat 32 k) (fun _ => 0) w 4).map fun r =>
    (le32 r.1, r.2)

def memMove (toMem : Bool) (addr : BitVec 32) (buf : Nat → BitVec 8) (used n : Int) (w : World D) :
    Option ((Nat → BitVec 8) × World D) :=
  (moveBytes toMem (fun k => addr + BitVec.ofNat 32 k) (fun k => buf (used.toNat + k)) w
    n.toNat).map
    fun r => (fun k => if used.toNat ≤ k then r.1 (k - used.toNat) else buf k, r.2)

/-- The bytes one iteration of the descriptor loop moves. A round that has gone past the block
makes it negative. -/
def pieceBytes (ch : IdeChannel) (count off : BitVec 32) : Int :=
  min (min ((count - off).toNat : Int) (ch.blockSize - ch.used)) ch.left

/-- The end of an iteration that has filled or emptied a block. The flag is `failed`. -/
def blockDone (toMem : Bool) (ch : IdeChannel) (i : Fin kIdeDrivesPerChannel) : IdeChannel × Bool :=
  let r := storeIf ch i (!toMem) (ch.lba * ch.blockSize) ch.blockSize.toNat
  if r.2 then (nextBlock r.1, false) else (r.1, true)

def prdRefill (toMem : Bool) (ch : IdeChannel) (i : Fin kIdeDrivesPerChannel) : IdeChannel × Bool :=
  fetchIf ch i (toMem && decide (ch.used = 0) && ch.refill) (ch.lba * ch.blockSize)
    ch.blockSize.toNat

def IdeChannel.advance (ch : IdeChannel) (buf : Nat → BitVec 8) (n : Int) : IdeChannel :=
  { ch with buf := buf, used := ch.used + n, left := ch.left - n }

/-- One iteration of the loop over a descriptor, at offset `off`. The flag is `failed`. -/
def prdPiece (toMem : Bool) (i : Fin kIdeDrivesPerChannel) (addr off : BitVec 32) (n : Int)
    (ch : IdeChannel) (w : World D) : Engine (IdeChannel × World D × Bool) :=
  let r := prdRefill toMem ch i
  if !r.2 then .done (r.1, w, true)
  else
    (Engine.ofBus (memMove toMem (addr + off) r.1.buf r.1.used n w)).bind fun m =>
      let ch := r.1.advance m.1 n
      let b := blockDone toMem ch i
      if ch.used = ch.blockSize then .done (b.1, m.2, b.2) else .done (ch, m.2, false)

def prdLoop (toMem : Bool) (i : Fin kIdeDrivesPerChannel) (addr count : BitVec 32) :
    Nat → BitVec 32 → IdeChannel → World D → Engine (IdeChannel × World D × Bool)
  | 0, _, _, _ => .endless
  | fuel + 1, off, ch, w =>
    if ¬ (off < count ∧ 0 < ch.left) then .done (ch, w, false)
    else
      let n := pieceBytes ch count off
      (prdPiece toMem i addr off n ch w).bind fun r =>
        if r.2.2 then .done r
        else prdLoop toMem i addr count fuel (off + BitVec.ofInt 32 n) r.1 r.2.1

def kPrdFuel : Nat := 2 ^ 17

def tableLoop (toMem : Bool) (i : Fin kIdeDrivesPerChannel) :
    Nat → BitVec 32 → IdeChannel → World D → Engine (IdeChannel × World D × Bool)
  | 0, _, _, _ => .endless
  | fuel + 1, prd, ch, w =>
    if ¬ 0 < ch.left then .done (ch, w, false)
    else
      (Engine.ofBus (memRead32 w prd)).bind fun a =>
        (Engine.ofBus (memRead32 a.2 (prd + 4))).bind fun c =>
          let addr := a.1 &&& ~~~1#32
          let count := if c.1 &&& 0xffff#32 = 0 then 0x10000#32 else c.1 &&& 0xffff#32
          (prdLoop toMem i addr count kPrdFuel 0 ch c.2).bind fun r =>
            if r.2.2 || c.1.getLsbD 31 then .done r
            else tableLoop toMem i fuel (prd + 8) r.1 r.2.1

section

variable (ch : IdeChannel) (i : Fin kIdeDrivesPerChannel)

def bmdmaFinish : IdeChannel :=
  endCommand { ch with
    dma := false
    bmdmaCmd := ch.bmdmaCmd &&& 0xfe
    bmdmaStatus := (ch.bmdmaStatus &&& ~~~kBmdmaActive) ||| kBmdmaIntr } i

def bmdmaEnd (failed : Bool) : IdeChannel :=
  let ch := { ch with bmdmaCmd := ch.bmdmaCmd &&& 0xfe }
  let erred := { ch with
    bmdmaStatus := (ch.bmdmaStatus &&& ~~~kBmdmaActive) ||| kBmdmaError, dma := false }
  if failed then mediumReadFailed erred i
  else if 0 < ch.left then abort erred i
  else bmdmaFinish ch i

/-- `BmdmaRun`, for the active drive `i`. Every descriptor moves at least a byte; a round that has
gone past its block first gives the excess back. -/
def bmdmaRun (w : World D) : Engine (IdeChannel × World D) :=
  (tableLoop ch.toMem i (ch.left.toNat + ch.used.toNat + 2) ch.bmdmaPrd
    { ch with dma := true } w).bind
    fun r => .done (bmdmaEnd r.1 i r.2.2, r.2.1)

end

end

end Cemu.Storage
