import Cemu.Storage.IdePacket

/-!
# The task file

The register file of `device/storage/ide.c`: the data port with `MoveBytes`, the disk commands
of `ExecCommand`, the control block, the bus-master window, and the steps of a run. The debug
trace and the PCI configuration space are left out.
-/

namespace Cemu.Storage

/-! ## Identity -/

/-- `PutAtaString`: the words of a field of `chars` characters, padded with spaces. -/
def ataString (first chars : Nat) (s : String) : List (Nat × BitVec 16) :=
  let char : Nat → Nat := fun k => (s.toList.getD k ' ').toNat
  (List.range (chars / 2)).map fun k =>
    (first + k, BitVec.ofNat 16 (char (2 * k) * 0x100 + char (2 * k + 1)))

def wordBlock (words : List (Nat × BitVec 16)) : List (BitVec 8) :=
  let word : Nat → BitVec 16 :=
    fun k => ((words.reverse.find? fun p => p.1 == k).map Prod.snd).getD 0
  (List.range kAtaBlockSize).map fun k =>
    if k % 2 = 0 then (word (k / 2)).setWidth 8 else (word (k / 2) >>> 8).setWidth 8

def otherBay (i : Fin kIdeDrivesPerChannel) : Fin kIdeDrivesPerChannel :=
  if i.val = 0 then ⟨1, by decide⟩ else ⟨0, by decide⟩

variable (ch : IdeChannel)

def buildIdentify (i : Fin kIdeDrivesPerChannel) : List (BitVec 8) :=
  let dr := ch.drives i
  let other := ch.drives (otherBay i)
  let chs := dr.cylinders.toNat * dr.heads.toNat * dr.sectorsPerTrack.toNat
  wordBlock <|
    [(0, 0x0040), (1, dr.cylinders), (3, dr.heads.setWidth 16),
      (6, dr.sectorsPerTrack.setWidth 16)] ++
      ataString 10 20 "CEMU0000000000000001" ++ ataString 23 8 "1.0" ++
      ataString 27 40 "CEMU VIRTUAL DISK" ++
      [(49, 0x0300), (53, 0x0003), (54, dr.cylinders), (55, dr.heads.setWidth 16),
        (56, dr.sectorsPerTrack.setWidth 16), (57, BitVec.ofNat 16 chs),
        (58, BitVec.ofNat 16 (chs / 0x10000)), (60, BitVec.ofNat 16 dr.blocks),
        (61, BitVec.ofNat 16 (dr.blocks / 0x10000)), (47, 0x8010),
        (59, if dr.multiple = 0 then 0 else 0x100 ||| dr.multiple.setWidth 16), (63, 0x0007),
        (64, 0x0007), (65, 0x0078), (66, 0x0078), (67, 0x00f0), (68, 0x00f0), (80, 0x0020),
        (83, 0x0400), (86, 0x0400), (100, BitVec.ofNat 16 dr.blocks),
        (101, BitVec.ofNat 16 (dr.blocks / 2 ^ 16)), (102, BitVec.ofNat 16 (dr.blocks / 2 ^ 32)),
        (103, BitVec.ofNat 16 (dr.blocks / 2 ^ 48)),
        (93, 0x4001 ||| if other.image.isSome then 0x2000#16 else 0)]

def buildIdentifyPacket : List (BitVec 8) :=
  wordBlock <|
    [(0, 0x8580), (20, 3), (21, 512), (22, 4)] ++ ataString 23 8 "1.0" ++
      ataString 27 40 "CEMU VIRTUAL CD-ROM" ++
      [(49, 0x0300), (53, 0x0003), (63, 0x0007), (64, 0x0007), (65, 0x0078), (66, 0x0078),
        (67, 0x00f0), (68, 0x00f0), (80, 0x0008)]

/-! ## Addresses -/

def commandLba (dr : IdeDrive) : Option Nat :=
  let low := ch.lbaLow.toNat
  let cyl := ch.lbaHigh.toNat * 0x100 + ch.lbaMid.toNat
  let head := ch.head.toNat % 0x10
  if ch.head.getLsbD 6 then some (head * 0x1000000 + cyl * 0x100 + low)
  else if low = 0 ∨ dr.sectorsPerTrack.toNat < low ∨ dr.heads.toNat ≤ head then none
  else some ((cyl * dr.heads.toNat + head) * dr.sectorsPerTrack.toNat + (low - 1))

def commandCount : Nat := if ch.count = 0 then 256 else ch.count.toNat

def commandCount48 : Nat :=
  let n := ch.prevCount.toNat * 0x100 + ch.count.toNat
  if n = 0 then 65536 else n

def commandLba48 : Option Nat :=
  if !ch.head.getLsbD 6 then none
  else some (ch.lbaLow.toNat + ch.lbaMid.toNat * 2 ^ 8 + ch.lbaHigh.toNat * 2 ^ 16 +
    ch.prevLbaLow.toNat * 2 ^ 24 + ch.prevLbaMid.toNat * 2 ^ 32 + ch.prevLbaHigh.toNat * 2 ^ 40)

/-! ## Disk commands -/

section

variable (i : Fin kIdeDrivesPerChannel)

def ready : IdeChannel := ch.setDrive i fun dr => { dr with error := 0, status := kStatusReady }

def succeed (f : IdeDrive → IdeDrive) : IdeChannel :=
  raiseIrqIde (ready (ch.setDrive i f) i)

def replyBlock (reply : List (BitVec 8)) : IdeChannel :=
  let ch := ready { ch with buf := putBuf ch.buf 0 reply } i
  { ch with
    active := some i, isWrite := false, refill := false, blockSize := kAtaBlockSize,
    limit := kAtaBlockSize, lba := 0, left := kAtaBlockSize }

/-- The transfer of an accepted READ or WRITE command: plain, DMA and EXT with `multi = 0`,
MULTIPLE with its block. -/
def accept (lba count : Nat) (isWrite dma : Bool) (multi : Nat) : IdeChannel :=
  { ready ch i with
    active := some i
    isWrite := isWrite
    refill := decide (multi = 0)
    blockSize := kAtaBlockSize
    limit := if multi = 0 then kAtaBlockSize else multi * kAtaBlockSize
    multi := multi
    lba := lba
    left := count * kAtaBlockSize
    dma := dma
    writeCmd := if isWrite then some ⟨i, lba, count⟩ else none }

def transfer (lba : Option Nat) (count : Nat) (isWrite dma : Bool) (multi : Nat) : IdeChannel :=
  match lba with
  | none => abort ch i
  | some lba =>
    if (ch.drives i).blocks < lba + count then abort ch i
    else startRoundOrFail (accept ch i lba count isWrite dma multi) i raiseIrqIde

def verifyLoop (lba : Nat) : Nat → IdeChannel → IdeChannel × Bool
  | 0, ch => (ch, true)
  | n + 1, ch =>
    let r := verifyLoop lba n ch
    if r.2 then readMedium r.1 i ((lba + n) * kAtaBlockSize : Nat) kAtaBlockSize else r

def readVerify : IdeChannel :=
  match commandLba ch (ch.drives i) with
  | none => abort ch i
  | some lba =>
    if (ch.drives i).blocks < lba + commandCount ch then abort ch i
    else
      let r := verifyLoop i lba (commandCount ch) ch
      if r.2 then succeed r.1 i id else abort r.1 i

def initializeParams : IdeChannel :=
  if ch.count = 0 ∨ ch.lbaLow = 0 then abort ch i
  else
    let perCylinder := ch.lbaLow.toNat * ch.count.toNat
    let cylinders := ((ch.drives i).blocks + perCylinder - 1) / perCylinder
    succeed ch i fun dr => { dr with
      sectorsPerTrack := ch.count
      heads := ch.lbaLow
      cylinders := if 0xffff < cylinders then 0xffff else BitVec.ofNat 16 cylinders }

def packetPhase : IdeChannel :=
  let limit : Nat := ch.lbaHigh.toNat * 0x100 + ch.lbaMid.toNat
  { ready ch i with
    limit := if limit = 0xffff then 0xfffe else if limit = 0 then (kAtapiBlockSize : Int) else limit
    packet := true
    isWrite := true
    refill := false
    blockSize := kAtapiCdbSize
    lba := 0
    left := kAtapiCdbSize
    active := some i
    count := kAtapiReasonCd }

def execAtapi (cmd : BitVec 8) : IdeChannel :=
  if cmd = 0xa1 then
    raiseIrqIde
      (startRound { replyBlock ch i buildIdentifyPacket with count := kAtapiReasonIo } i).1
  else if cmd = 0xa0 then raiseIrqIde (startRound (packetPhase ch i) i).1
  else abort ch i

def execAta (cmd : BitVec 8) : IdeChannel :=
  let dr := ch.drives i
  match cmd.toNat with
  | 0xec => raiseIrqIde (startRound (replyBlock ch i (buildIdentify ch i)) i).1
  | 0x20 => transfer ch i (commandLba ch dr) (commandCount ch) false false 0
  | 0x30 => transfer ch i (commandLba ch dr) (commandCount ch) true false 0
  | 0xc8 => transfer ch i (commandLba ch dr) (commandCount ch) false true 0
  | 0xca => transfer ch i (commandLba ch dr) (commandCount ch) true true 0
  | 0x24 => transfer ch i (commandLba48 ch) (commandCount48 ch) false false 0
  | 0x34 => transfer ch i (commandLba48 ch) (commandCount48 ch) true false 0
  | 0x25 => transfer ch i (commandLba48 ch) (commandCount48 ch) false true 0
  | 0x35 => transfer ch i (commandLba48 ch) (commandCount48 ch) true true 0
  | 0xc4 =>
    if dr.multiple = 0 then abort ch i
    else transfer ch i (commandLba ch dr) (commandCount ch) false false dr.multiple.toNat
  | 0xc5 =>
    if dr.multiple = 0 then abort ch i
    else transfer ch i (commandLba ch dr) (commandCount ch) true false dr.multiple.toNat
  | 0xc6 =>
    if kMaxMultipleSectors < ch.count.toNat then abort ch i
    else succeed ch i fun dr => { dr with multiple := ch.count }
  | 0x40 => readVerify ch i
  | 0x91 => initializeParams ch i
  | 0xef =>
    if ch.feature = 0x03 ∨ ch.feature = 0x02 ∨ ch.feature = 0xaa ∨ ch.feature = 0x55 then
      succeed ch i id
    else abort ch i
  | 0xe5 => succeed { ch with count := dr.power } i id
  | 0xe3 => succeed ch i fun dr => { dr with power := kPowerActive }
  | 0xe1 => succeed ch i fun dr => { dr with power := kPowerActive }
  | 0xe2 => succeed ch i fun dr => { dr with power := kPowerStandby }
  | 0xe0 => succeed ch i fun dr => { dr with power := kPowerStandby }
  | 0xe6 => ch.setDrive i fun dr =>
      { dr with power := kPowerStandby, sleeping := true, status := kStatusBsy }
  | 0xe7 => succeed ch i id
  | 0xea => succeed ch i id
  | _ => abort ch i

end

def dropCommand : IdeChannel :=
  { ch with
    active := none, packet := false, left := 0, round := 0, used := 0, multi := 0,
    writeCmd := none }

def execCommand (cmd : BitVec 8) : IdeChannel :=
  let i := ch.selected
  let ch := dropCommand ch
  if (ch.drives i).image.isNone then ch
  else if (ch.drives i).sleeping then ch
  else if (ch.drives i).atapi then execAtapi ch i cmd
  else execAta ch i cmd

/-- The disk in the selected bay answers. -/
def diskAnswers : Bool :=
  ch.selectedDrive.image.isSome && !ch.selectedDrive.sleeping && !ch.selectedDrive.atapi

theorem execCommand_disk {ch : IdeChannel} (h : diskAnswers ch = true) (cmd : BitVec 8) :
    execCommand ch cmd = execAta (dropCommand ch) ch.selected cmd := by
  simp only [diskAnswers, IdeChannel.selectedDrive, Bool.and_eq_true, Bool.not_eq_true'] at h
  obtain ⟨⟨himage, hawake⟩, hata⟩ := h
  have hsome : ¬ (ch.drives ch.selected).image.isNone = true := by
    rw [Option.isNone_iff_eq_none, ← Option.not_isSome_iff_eq_none, himage]
    exact not_not.mpr rfl
  exact (if_neg hsome).trans ((if_neg (ne_true_of_eq_false hawake)).trans
    (if_neg (ne_true_of_eq_false hata)))

/-! ## Registers -/

def presentSignature : IdeChannel :=
  if ch.selectedDrive.atapi then
    { ch with count := 1, lbaLow := 1, lbaMid := 0x14, lbaHigh := 0xeb }
  else ch

def resetChannel : IdeChannel :=
  clearIrq <| presentSignature
    { ch with
      count := 0, lbaLow := 0, lbaMid := 0, lbaHigh := 0, prevCount := 0, prevLbaLow := 0,
      prevLbaMid := 0, prevLbaHigh := 0, head := 0
      drives := fun i =>
        let dr := ch.drives i
        { dr with
          error := 0, senseKey := 0, asc := 0, power := kPowerActive, sleeping := false
          multiple := 0
          status := if dr.image.isSome then kStatusReady else 0 }
      selected := ⟨0, by decide⟩, active := none, isWrite := false, packet := false, dma := false,
      left := 0, round := 0, used := 0, multi := 0, refill := false, blockSize := kAtaBlockSize,
      limit := kAtaBlockSize, bmdmaCmd := 0, bmdmaStatus := 0, writeCmd := none }

def selectBay (v : BitVec 8) : IdeChannel :=
  { ch with head := v, selected := if v.getLsbD 4 then ⟨1, by decide⟩ else ⟨0, by decide⟩ }

section

variable {D : Type}

def nextMulti : IdeChannel :=
  { ch with lba := ch.lba + ch.used.tdiv kAtaBlockSize, used := 0 }

def multiDrained (i : Fin kIdeDrivesPerChannel) : IdeChannel :=
  let r := storeIf ch i ch.isWrite (ch.lba * kAtaBlockSize) ch.used.toNat
  if !r.2 then abort r.1 i
  else if 0 < r.1.left then startRoundOrFail (nextMulti r.1) i raiseIrqIde
  else endCommand (nextMulti r.1) i

/-- Whether a drained round has come to the end of a block that is written or read ahead. -/
def blockFull : Bool :=
  decide (ch.used = ch.blockSize) && (ch.isWrite || ch.refill)

def blockDrained (i : Fin kIdeDrivesPerChannel) : IdeChannel :=
  let r := storeIf ch i (blockFull ch && ch.isWrite) (ch.lba * ch.blockSize) ch.blockSize.toNat
  if !r.2 then abort r.1 i
  else
    let next := if blockFull ch then nextBlock r.1 else r.1
    if 0 < r.1.left then
      startRoundOrFail next i fun ch => if (ch.drives i).atapi then raiseIrqIde ch else ch
    else endCommand next i

def IdeChannel.drain (size : Nat) : IdeChannel :=
  { ch with round := ch.round - size, used := ch.used + size, left := ch.left - size }

def ideMoveBytes (i : Fin kIdeDrivesPerChannel) (size : Nat) (w : World D) :
    Engine (IdeChannel × World D) :=
  let ch := ch.drain size
  if 0 < ch.round then .done (ch, w)
  else if 0 < ch.multi then .done (multiDrained ch i, w)
  else if ch.packet then execPacket { ch with packet := false } i w
  else .done (blockDrained ch i, w)

def dataValue (size : Nat) : BitVec 64 :=
  ByteMem.pack (fun k => ch.buf (ch.used.toNat + k)) size

def readData (size : Nat) (w : World D) : Engine (BitVec 64 × IdeChannel × World D) :=
  match ch.active with
  | none => .done (0, ch, w)
  | some i =>
    if ch.dma || ch.isWrite || decide (ch.round < size) then .done (0, ch, w)
    else (ideMoveBytes ch i size w).bind fun r => .done (dataValue ch size, r.1, r.2)

def storeData (size : Nat) (val : BitVec 64) : IdeChannel :=
  { ch with buf := putBuf ch.buf ch.used.toNat ((List.range size).map (ByteMem.byteOf val)) }

def writeData (size : Nat) (val : BitVec 64) (w : World D) : Engine (IdeChannel × World D) :=
  match ch.active with
  | none => .done (ch, w)
  | some i =>
    if ch.dma || !ch.isWrite || decide (ch.round < size) then .done (ch, w)
    else ideMoveBytes (storeData ch size val) i size w

def readStatus : BitVec 8 × IdeChannel := (ch.selectedDrive.status, clearIrq ch)

def cmdRead (reg size : Nat) (w : World D) : Engine (BitVec 64 × IdeChannel × World D) :=
  let byte := fun (v : BitVec 8) => Engine.done (v.setWidth 64, ch, w)
  match reg with
  | 0 => readData ch size w
  | 1 => byte ch.selectedDrive.error
  | 2 => byte ch.count
  | 3 => byte ch.lbaLow
  | 4 => byte ch.lbaMid
  | 5 => byte ch.lbaHigh
  | 6 => byte ch.head
  | _ => .done ((readStatus ch).1.setWidth 64, (readStatus ch).2, w)

def cmdWrite (reg size : Nat) (val : BitVec 64) (w : World D) : Engine (IdeChannel × World D) :=
  let v := val.setWidth 8
  match reg with
  | 0 => writeData ch size val w
  | 1 => .done ({ ch with feature := v }, w)
  | 2 => .done ({ ch with prevCount := ch.count, count := v }, w)
  | 3 => .done ({ ch with prevLbaLow := ch.lbaLow, lbaLow := v }, w)
  | 4 => .done ({ ch with prevLbaMid := ch.lbaMid, lbaMid := v }, w)
  | 5 => .done ({ ch with prevLbaHigh := ch.lbaHigh, lbaHigh := v }, w)
  | 6 => .done (presentSignature (selectBay ch v), w)
  | _ => .done (execCommand ch v, w)

def ctrlWrite (v : BitVec 8) : IdeChannel :=
  let rises := !ch.devctrl.getLsbD 2 && v.getLsbD 2
  let ch := { ch with devctrl := v }
  if rises then resetChannel ch else updateIrq ch

def IdeChannel.setBmdmaCmd (v : BitVec 8) : IdeChannel :=
  { ch with bmdmaCmd := v &&& 0x09 }

def bmdmaWrite (reg : Nat) (v : BitVec 8) (w : World D) : Engine (IdeChannel × World D) :=
  match reg with
  | 0 =>
    let was := ch.started
    let ch := ch.setBmdmaCmd v
    if !was && ch.started then
      match ch.active with
      | some i =>
        if 0 < ch.left then bmdmaRun { ch with bmdmaStatus := ch.bmdmaStatus ||| kBmdmaActive } i w
        else .done (ch, w)
      | none => .done (ch, w)
    else if was && !ch.started then
      .done ({ ch with bmdmaStatus := ch.bmdmaStatus &&& ~~~kBmdmaActive }, w)
    else .done (ch, w)
  | 2 => .done ({ ch with
      bmdmaStatus := ch.bmdmaStatus &&& ~~~(v &&& (kBmdmaError ||| kBmdmaIntr)) }, w)
  | 4 => .done ({ ch with bmdmaPrd := (ch.bmdmaPrd &&& ~~~0xff#32) ||| v.setWidth 32 }, w)
  | 5 => .done ({ ch with bmdmaPrd := (ch.bmdmaPrd &&& ~~~0xff00#32) ||| (v.setWidth 32 <<< 8) }, w)
  | 6 => .done ({ ch with
      bmdmaPrd := (ch.bmdmaPrd &&& ~~~0xff0000#32) ||| (v.setWidth 32 <<< 16) }, w)
  | 7 => .done ({ ch with
      bmdmaPrd := (ch.bmdmaPrd &&& ~~~0xff000000#32) ||| (v.setWidth 32 <<< 24) }, w)
  | _ => .done (ch, w)

/-- `BmdmaRead`. The engine has its memory, so a bay with a medium shows its capability bit. -/
def bmdmaRead (reg : Nat) : BitVec 8 :=
  match reg with
  | 0 => ch.bmdmaCmd
  | 2 => ch.bmdmaStatus ||| (if (ch.drives ⟨0, by decide⟩).image.isSome then 0x80#8 else 0) |||
      (if (ch.drives ⟨1, by decide⟩).image.isSome then 0x40#8 else 0)
  | 4 => ch.bmdmaPrd.setWidth 8
  | 5 => (ch.bmdmaPrd >>> 8).setWidth 8
  | 6 => (ch.bmdmaPrd >>> 16).setWidth 8
  | 7 => (ch.bmdmaPrd >>> 24).setWidth 8
  | _ => 0

def ideResetChannel : IdeChannel :=
  { resetChannel ch with feature := 0, devctrl := 0, lba := 0, bmdmaPrd := 0, buf := fun _ => 0 }

/-! ## Media -/

def emptyBay : IdeDrive :=
  ⟨none, false, 0, 0, 0, 0, 0, 0, 0, 0, false, false, 0, false, 0⟩

def ideAttach (f : HostFile) (cd : Bool) : Option IdeDrive :=
  let blockSize := if cd then kAtapiBlockSize else kAtaBlockSize
  if f.size = 0 ∨ f.size % blockSize ≠ 0 then none
  else
    let blocks := f.size / blockSize
    let cylinders := (blocks + 16 * 63 - 1) / (16 * 63)
    some { emptyBay with
      image := some f
      atapi := cd
      blocks := blocks
      heads := 16
      sectorsPerTrack := 63
      cylinders := if 0xffff < cylinders then 0xffff else BitVec.ofNat 16 cylinders
      status := kStatusReady
      power := kPowerActive }

def ideInit (drives : Fin kIdeDrivesPerChannel → IdeDrive) : IdeChannel :=
  presentSignature
    { drives := drives, count := 0, lbaLow := 0, lbaMid := 0, lbaHigh := 0, prevCount := 0,
      prevLbaLow := 0, prevLbaMid := 0, prevLbaHigh := 0, head := 0, feature := 0,
      selected := ⟨0, by decide⟩, devctrl := 0, active := none, isWrite := false, packet := false,
      dma := false, lba := 0, left := 0, round := 0, used := 0, blockSize := kAtaBlockSize,
      limit := kAtaBlockSize, refill := false, multi := 0, irqPending := false, bmdmaCmd := 0,
      bmdmaStatus := 0, bmdmaPrd := 0, buf := fun _ => 0, irqLine := false, writeCmd := none }

/-! ## Runs -/

structure IdeBoard (D : Type) where
  ch : Fin 2 → IdeChannel
  world : World D

inductive IdeAccess where
  | cmdRead (reg size : Nat)
  | cmdWrite (reg size : Nat) (val : BitVec 64)
  | ctrlRead
  | ctrlWrite (v : BitVec 8)
  | bmdmaRead (reg : Nat)
  | bmdmaWrite (reg : Nat) (v : BitVec 8)
  | reset

def accessStep (w : World D) : IdeAccess → Engine (IdeChannel × World D)
  | .cmdRead reg size => (cmdRead ch reg size w).bind fun r => .done r.2
  | .cmdWrite reg size val => cmdWrite ch reg size val w
  | .ctrlRead => .done ((readStatus ch).2, w)
  | .ctrlWrite v => .done (ctrlWrite ch v, w)
  | .bmdmaRead _ => .done (ch, w)
  | .bmdmaWrite reg v => bmdmaWrite ch reg v w
  | .reset => .done (ideResetChannel ch, w)

def ideStep (b : IdeBoard D) (c : Fin 2) (a : IdeAccess) : Engine (IdeBoard D) :=
  (accessStep (b.ch c) b.world a).bind fun r => .done ⟨Function.update b.ch c r.1, r.2⟩

end

end Cemu.Storage
