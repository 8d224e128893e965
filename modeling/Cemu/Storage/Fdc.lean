import Cemu.Dma.I8237
import Cemu.Host.File

/-!
# The floppy controller

`device/storage/fdc.c`: the register file, the three phases, and the commands with their moves
through channel 2 of the 8237. The drive table has two entries and the select field of most
commands has two bits; indexing past the table is `FdcStop.badDrive`, after which the source's
behaviour is undefined.

`accesses` and `reads` are histories: the accesses made to an image, and what each READ DATA that
moved something fetched and handed over. No function reads them. The debug marks, the CMOS type
and the interrupt sink are left out; the line's level is `irq`.
-/

namespace Cemu.Storage

open Cemu.Dma

def kFdcDrives : Nat := 2
def kFdcSectorSize : Nat := 512
def kFdcMaxTransfer : Nat := 2 * 36 * kFdcSectorSize
def kFdcDmaChannel : Fin kI8237Channels := (2 : Fin 8)

def kMsrCmdBusy : BitVec 8 := 0x10
def kMsrNonDma : BitVec 8 := 0x20
def kMsrDio : BitVec 8 := 0x40
def kMsrRqm : BitVec 8 := 0x80

def kSr0Drive : BitVec 8 := 0x03
def kSr0Head : BitVec 8 := 0x04
def kSr0Seek : BitVec 8 := 0x20
def kSr0AbnTerm : BitVec 8 := 0x40
def kSr0InvCmd : BitVec 8 := 0x80
def kSr0RdyChg : BitVec 8 := 0xc0

def kSr1Missing : BitVec 8 := 0x01
def kSr1NotWritable : BitVec 8 := 0x02
def kSr1EndCyl : BitVec 8 := 0x80

def kResetSenseMax : Nat := 4

structure FdcDrive where
  image : Option HostFile
  cylinders : Nat
  heads : Nat
  sectors : Nat
  track : Nat
  head : Nat
  sector : Nat
  mediaChanged : Bool
  readOnly : Bool

inductive Phase where
  | command
  | execution
  | result
  deriving DecidableEq, Repr

inductive Command where
  | read
  | write
  | seek
  | senseInterrupt
  | recalibrate
  | formatTrack
  | readId
  | specify
  | senseDrive
  deriving DecidableEq, Repr

/-- One `HostFileReadAt` or `HostFileWriteAt`, with the size the image had when the command
started. -/
structure ImageAccess where
  isWrite : Bool
  off : Int
  len : Nat
  size : Nat
  readOnly : Bool
  deriving DecidableEq, Repr

/-- What a READ DATA read from the image, and what the channel put into guest memory. -/
structure ReadTransfer where
  fetched : List (BitVec 8)
  handed : List (BitVec 8)
  deriving DecidableEq, Repr

structure FdcDevice where
  drives : Fin kFdcDrives → FdcDrive
  sra : BitVec 8
  srb : BitVec 8
  dor : BitVec 8
  tdr : BitVec 8
  msr : BitVec 8
  status0 : BitVec 8
  status1 : BitVec 8
  status2 : BitVec 8
  cmdCode : BitVec 8
  multiTrack : Bool
  cmdArgs : Vector (BitVec 8) 16
  cmdCursor : Nat
  cmdRemaining : Nat
  phase : Phase
  resp : Vector (BitVec 8) 16
  respCursor : Nat
  respLen : Nat
  currDrive : Nat
  resetSense : Nat
  eot : BitVec 8
  irq : Bool
  buf : Nat → BitVec 8
  accesses : List ImageAccess
  reads : List ReadTransfer

structure FdcBoard (D : Type) where
  fdc : FdcDevice
  dma : I8237Device
  world : World D

inductive FdcStop where
  | badDrive
  | fatal
  deriving DecidableEq, Repr

/-! ## Lines and phases -/

variable (d : FdcDevice)

def raiseIrq : FdcDevice :=
  let d := if d.sra.getLsbD 7 then d else { d with sra := d.sra ||| 0x80, irq := true }
  { d with resetSense := 0 }

def lowerIrq : FdcDevice :=
  let d := { d with status0 := 0 }
  if d.sra.getLsbD 7 then { d with sra := d.sra &&& 0x7f, irq := false } else d

def enterCommandPhase : FdcDevice :=
  { d with
    phase := .command
    cmdCursor := 0
    cmdRemaining := 0
    msr := (d.msr &&& ~~~(kMsrCmdBusy ||| kMsrDio)) ||| kMsrRqm }

def enterResultPhase (count : Nat) : FdcDevice :=
  { d with
    phase := .result
    respCursor := 0
    respLen := count
    msr := d.msr ||| (kMsrCmdBusy ||| kMsrRqm ||| kMsrDio) }

/-! ## Geometry -/

def chsToLba (drv : FdcDrive) (cyl head sect : Nat) : Int :=
  ((cyl * drv.heads + head) * drv.sectors : Int) + ((sect : Int) - 1)

inductive SeekResult where
  | same
  | stepped
  | offMedium
  | offTrack
  deriving DecidableEq, Repr

/-- `SeekDrive`: the drive and the result. A head other than 0 is only checked against the number
of sides, not its own value. -/
def seekDrive (drv : FdcDrive) (head track sect : Nat) : FdcDrive × SeekResult :=
  if drv.cylinders ≤ track ∨ (head ≠ 0 ∧ drv.heads < 2) then (drv, .offMedium)
  else if sect < 1 ∨ drv.sectors < sect then (drv, .offTrack)
  else
    let cur := chsToLba drv drv.track drv.head drv.sector
    let want := chsToLba drv track head sect
    let steps := decide (cur ≠ want) && decide (drv.track ≠ track)
    let changed := if steps && drv.image.isSome then false else drv.mediaChanged
    let drv' := if cur ≠ want then
      { drv with track := track, head := head, sector := sect, mediaChanged := changed } else drv
    (drv', if drv.image.isNone then .offMedium else if steps then .stepped else .same)

/-- Where the head goes after one sector: the position, and whether the cylinder advances. -/
def nextSector (eot : BitVec 8) (multiTrack : Bool) (drv : FdcDrive) : Nat × Nat × Nat × Bool :=
  if drv.sectors ≤ drv.sector ∨ drv.sector = eot.toNat then
    if multiTrack then
      if drv.head = 0 ∧ drv.heads = 2 then (drv.track, 1, 1, false) else (drv.track + 1, 0, 1, true)
    else (drv.track + 1, drv.head, 1, true)
  else (drv.track, drv.head, drv.sector + 1, false)

/-- `AdvanceHead`: the loop over the moved sectors, on the drive and Status Register 0. -/
def advanceHead (eot : BitVec 8) (multiTrack : Bool) :
    Nat → BitVec 8 × FdcDrive → BitVec 8 × FdcDrive
  | 0, s => s
  | n + 1, (status0, drv) =>
    let (track, head, sect, seek) := nextSector eot multiTrack drv
    let status0 := if seek then status0 ||| kSr0Seek else status0
    match seekDrive drv head track sect with
    | (drv, .offMedium) => (status0, drv)
    | (drv, .offTrack) => (status0, drv)
    | (drv, _) => advanceHead eot multiTrack n (status0, drv)

namespace FdcDevice

def setDrive (i : Fin kFdcDrives) (drv : FdcDrive) : FdcDevice :=
  { d with drives := Function.update d.drives i drv }

def select : Nat := d.cmdArgs[0].toNat % 4

def rwDrive : Fin kFdcDrives := ⟨d.cmdArgs[0].toNat % 2, Nat.mod_lt _ (by decide)⟩

def advance (i : Fin kFdcDrives) (sectors : Nat) : FdcDevice :=
  let r := advanceHead d.eot d.multiTrack sectors (d.status0, d.drives i)
  { d.setDrive i r.2 with status0 := r.1 }

end FdcDevice

def endReadWrite (i : Fin kFdcDrives) (status0 status1 status2 : BitVec 8) : FdcDevice :=
  let drv := d.drives i
  let sr0 := (d.status0 &&& ~~~(kSr0Drive ||| kSr0Head)) ||| BitVec.ofNat 8 i |||
    (if drv.head ≠ 0 then kSr0Head else 0) ||| status0
  let resp := (((((((d.resp.set 0 sr0).set 1 status1).set 2 status2).set 3
    (BitVec.ofNat 8 drv.track)).set 4 (BitVec.ofNat 8 drv.head)).set 5
    (BitVec.ofNat 8 drv.sector)).set 6 2)
  let d := { d with
    status0 := sr0
    status1 := status1
    status2 := status2
    msr := (d.msr ||| (kMsrRqm ||| kMsrDio)) &&& ~~~kMsrNonDma
    resp := resp }
  raiseIrq (enterResultPhase d 7)

def doInvalid : FdcDevice :=
  enterResultPhase { d with status0 := kSr0InvCmd, resp := d.resp.set 0 kSr0InvCmd } 1

/-! ## Commands -/

def argCount : Command → Nat
  | .read | .write => 8
  | .seek | .specify => 2
  | .recalibrate | .readId | .senseDrive => 1
  | .formatTrack => 5
  | .senseInterrupt => 0

def decodeCommand (code : BitVec 8) : Option Command :=
  if code &&& 0x1f = 0x06 then some .read
  else if code &&& 0x3f = 0x05 then some .write
  else if code = 0x0f then some .seek
  else if code = 0x08 then some .senseInterrupt
  else if code = 0x07 then some .recalibrate
  else if code &&& 0xbf = 0x0d then some .formatTrack
  else if code &&& 0xbf = 0x0a then some .readId
  else if code = 0x03 then some .specify
  else if code = 0x04 then some .senseDrive
  else none

def sectSize (sizeCode : BitVec 8) : Nat := 128 <<< min sizeCode.toNat 7

def dataLength (multiTrack : Bool) (sect eot dtl size : Nat) : Int :=
  if size = 128 then min dtl 128
  else if multiTrack then ((2 * eot : Int) - sect + 1) * size
  else ((eot : Int) - sect + 1) * size

/-- The sector size, the length and the offset of the READ or WRITE DATA in the parameters. -/
def FdcDevice.rwSize : Nat := sectSize d.cmdArgs[4]

def FdcDevice.rwLength : Int :=
  dataLength d.multiTrack d.cmdArgs[3].toNat d.cmdArgs[5].toNat d.cmdArgs[7].toNat d.rwSize

def FdcDevice.rwOffset (drv : FdcDrive) : Int :=
  chsToLba drv d.cmdArgs[1].toNat d.cmdArgs[2].toNat d.cmdArgs[3].toNat * d.rwSize

variable {D : Type} (b : FdcBoard D)

/-- The data phase of a write: the bytes come through the channel and land in the image. -/
def writePhase (i : Fin kFdcDrives) (offset : Int) (want : Nat) :
    Except FdcStop (FdcBoard D × Nat) :=
  match i8237Transfer b.dma kFdcDmaChannel b.fdc.buf want b.world with
  | none => .error .fatal
  | some t =>
    let d := { b.fdc with buf := t.buf }
    let drv := d.drives i
    let d := match drv.image with
      | some f =>
        if t.moved = 0 then d
        else { d.setDrive i
          { drv with image := some (f.writeAt offset (bufBytes t.buf t.moved)).1 } with
          accesses := d.accesses ++ [⟨true, offset, t.moved, f.size, drv.readOnly⟩] }
      | none => d
    .ok (⟨d, t.dev, t.world⟩, t.moved)

/-- The data phase of a read: the buffer is filled from the image and handed to the channel. -/
def readPhase (i : Fin kFdcDrives) (offset : Int) (want : Nat) :
    Except FdcStop (FdcBoard D × Nat) :=
  let drv := b.fdc.drives i
  let fetched := match drv.image with
    | some f => f.readAt offset want
    | none => []
  let buf := fillBuf b.fdc.buf fetched
  let accesses := match drv.image with
    | some f => b.fdc.accesses ++ [⟨false, offset, want, f.size, drv.readOnly⟩]
    | none => b.fdc.accesses
  match i8237Transfer b.dma kFdcDmaChannel buf want b.world with
  | none => .error .fatal
  | some t =>
    let handed := if (b.dma.ch kFdcDmaChannel).toMemory then bufBytes buf t.moved else []
    .ok (⟨{ b.fdc with
      buf := t.buf
      accesses := accesses
      reads := b.fdc.reads ++ [⟨fetched, handed⟩] }, t.dev, t.world⟩, t.moved)

def finishReadWrite (i : Fin kFdcDrives) (moved size : Nat) : FdcDevice :=
  if moved = 0 then endReadWrite d i kSr0AbnTerm 0 0
  else endReadWrite (d.advance i (moved / size)) i 0 0 0

def rwBody (i : Fin kFdcDrives) (isWrite : Bool) : Except FdcStop (FdcBoard D) :=
  let d := b.fdc
  let drv := d.drives i
  if d.rwSize ≠ 128 ∧ d.rwLength ≤ 0 then
    .ok { b with fdc := endReadWrite d i kSr0AbnTerm kSr1Missing 0 }
  else
    let want := min d.rwLength.toNat kFdcMaxTransfer
    let d := { d with eot := d.cmdArgs[5] }
    if isWrite && drv.readOnly then
      .ok { b with fdc := endReadWrite d i (kSr0AbnTerm ||| kSr0Seek) kSr1NotWritable 0 }
    else
      let b := { b with fdc := { d with msr := d.msr &&& ~~~kMsrRqm } }
      let phase := if isWrite then writePhase b i (d.rwOffset drv) want
        else readPhase b i (d.rwOffset drv) want
      phase.map fun r => { r.1 with fdc := finishReadWrite r.1.fdc i r.2 d.rwSize }

/-- `DoReadWrite`. The C, H and R a refused seek stores are overwritten by `EndReadWrite`. -/
def doReadWrite (isWrite : Bool) : Except FdcStop (FdcBoard D) :=
  let i := b.fdc.rwDrive
  let (drv, seek) := seekDrive (b.fdc.drives i) b.fdc.cmdArgs[2].toNat b.fdc.cmdArgs[1].toNat
    b.fdc.cmdArgs[3].toNat
  let d := { b.fdc.setDrive i drv with currDrive := i.val }
  match seek with
  | .offMedium =>
    let d := { d with status0 := d.status0 ||| kSr0AbnTerm }
    .ok { b with fdc := endReadWrite d i d.status0 kSr1EndCyl 0 }
  | .offTrack =>
    let d := { d with status0 := d.status0 ||| (kSr0AbnTerm ||| kSr0Seek) }
    .ok { b with fdc := endReadWrite d i d.status0 kSr1Missing 0 }
  | .same => rwBody { b with fdc := d } i isWrite
  | .stepped => rwBody { b with fdc := { d with status0 := d.status0 ||| kSr0Seek } } i isWrite

section

variable (i : Fin kFdcDrives)

def doSeek : FdcDevice :=
  let drv := d.drives i
  let d := { d.setDrive i (seekDrive drv drv.head d.cmdArgs[1].toNat drv.sector).1 with
    currDrive := i.val }
  let d := enterCommandPhase d
  raiseIrq { d with status0 := d.status0 ||| kSr0Seek }

def doRecalibrate : FdcDevice :=
  let d := { d.setDrive i (seekDrive (d.drives i) 0 0 1).1 with currDrive := i.val }
  let d := enterCommandPhase d
  raiseIrq { d with status0 := d.status0 ||| kSr0Seek }

def senseResult (status0 : BitVec 8) : FdcDevice :=
  let d := { d with resp := (d.resp.set 0 status0).set 1 (BitVec.ofNat 8 (d.drives i).track) }
  { lowerIrq (enterResultPhase d 2) with status0 := kSr0RdyChg }

def doSenseInterrupt : FdcDevice :=
  if 0 < d.resetSense then
    let drive := kResetSenseMax - d.resetSense
    senseResult { d with resetSense := d.resetSense - 1 } i (kSr0RdyChg ||| BitVec.ofNat 8 drive)
  else if d.sra.getLsbD 7 then
    senseResult d i ((d.status0 &&& ~~~(kSr0Head ||| kSr0Drive)) ||| BitVec.ofNat 8 i)
  else doInvalid d

end

def headField : Nat := d.cmdArgs[0].toNat / 4 % 2

def doReadId (i : Fin kFdcDrives) : FdcDevice :=
  let drv := d.drives i
  let drv := { drv with
    head := headField d
    sector := if 0 < drv.sectors then drv.sector % drv.sectors + 1 else drv.sector }
  endReadWrite { d.setDrive i drv with currDrive := i.val } i 0 0 0

def doSenseDriveStatus (i : Fin kFdcDrives) : FdcDevice :=
  let drv := { d.drives i with head := headField d }
  let sr3 := (if drv.readOnly then 0x40#8 else 0) ||| (if drv.track = 0 then 0x10#8 else 0) |||
    (BitVec.ofNat 8 drv.head <<< 2) ||| BitVec.ofNat 8 i ||| 0x28
  enterResultPhase { d.setDrive i drv with currDrive := i.val, resp := d.resp.set 0 sr3 } 1

def formatSectors (f : HostFile) (lba : Int) (fill : BitVec 8) (n : Nat) : HostFile :=
  (List.range n).foldl
    (fun f (k : Nat) =>
      (f.writeAt ((lba + k) * kFdcSectorSize) (List.replicate kFdcSectorSize fill)).1) f

def formatAccesses (drv : FdcDrive) (f : HostFile) (lba : Int) (n : Nat) : List ImageAccess :=
  (List.range n).map fun (k : Nat) =>
    ⟨true, (lba + k) * kFdcSectorSize, kFdcSectorSize, f.size, drv.readOnly⟩

def doFormatTrack (i : Fin kFdcDrives) : Except FdcStop (FdcBoard D) :=
  let d := { b.fdc with currDrive := i.val }
  let drv := d.drives i
  let nsect := d.cmdArgs[2].toNat
  if drv.readOnly then
    .ok { b with fdc := endReadWrite d i (kSr0AbnTerm ||| kSr0Seek) kSr1NotWritable 0 }
  else
    match i8237Transfer b.dma kFdcDmaChannel d.buf (nsect * 4) b.world with
    | none => .error .fatal
    | some t =>
      let d := { d with buf := t.buf }
      let d := match drv.image with
        | some f =>
          if t.moved = nsect * 4 then
            let lba := chsToLba drv drv.track drv.head 1
            let n := min nsect drv.sectors
            { d.setDrive i { drv with image := some (formatSectors f lba d.cmdArgs[4] n) } with
              accesses := d.accesses ++ formatAccesses drv f lba n }
          else d
        | none => d
      .ok ⟨endReadWrite (d.advance i 1) i 0 0 0, t.dev, t.world⟩

def withDrive {α : Type} (n : Nat) (f : Fin kFdcDrives → Except FdcStop α) : Except FdcStop α :=
  if h : n < kFdcDrives then f ⟨n, h⟩ else .error .badDrive

def runCommand : Except FdcStop (FdcBoard D) :=
  let onDrive := fun (f : FdcDevice → Fin kFdcDrives → FdcDevice) =>
    withDrive b.fdc.select fun i => .ok { b with fdc := f b.fdc i }
  match decodeCommand b.fdc.cmdCode with
  | some .read => doReadWrite b false
  | some .write => doReadWrite b true
  | some .seek => onDrive doSeek
  | some .recalibrate => onDrive doRecalibrate
  | some .senseInterrupt =>
    withDrive b.fdc.currDrive fun i => .ok { b with fdc := doSenseInterrupt b.fdc i }
  | some .readId => onDrive doReadId
  | some .senseDrive => onDrive doSenseDriveStatus
  | some .formatTrack => withDrive b.fdc.select (doFormatTrack b)
  | some .specify => .ok { b with fdc := enterCommandPhase b.fdc }
  | none => .ok { b with fdc := doInvalid b.fdc }

def executeCommand : Except FdcStop (FdcBoard D) :=
  runCommand { b with fdc := { b.fdc with phase := .execution } }

/-! ## Registers -/

/-- `WriteFifo` up to the execution: the controller with the byte taken, when it takes one. -/
def takeByte (v : BitVec 8) : Option FdcDevice :=
  if !d.dor.getLsbD 2 then none
  else if !d.msr.getLsbD 7 || d.msr.getLsbD 6 then none
  else if d.phase ≠ .command then none
  else if d.cmdRemaining = 0 then
    let decoded := decodeCommand v
    some { d with
      cmdCode := v
      cmdCursor := 0
      cmdRemaining := (decoded.map argCount).getD 0
      multiTrack := (decoded = some .read ∨ decoded = some .write) && v.getLsbD 7
      msr := d.msr ||| kMsrCmdBusy }
  else some { d with
    cmdArgs := if h : d.cmdCursor < 16 then d.cmdArgs.set d.cmdCursor v else d.cmdArgs
    cmdCursor := d.cmdCursor + 1
    cmdRemaining := d.cmdRemaining - 1 }

def writeFifo (v : BitVec 8) : Except FdcStop (FdcBoard D) :=
  match takeByte b.fdc v with
  | none => .ok b
  | some d =>
    if d.cmdRemaining = 0 then executeCommand { b with fdc := d } else .ok { b with fdc := d }

def readFifo : BitVec 8 × FdcDevice :=
  if !d.msr.getLsbD 7 || !d.msr.getLsbD 6 then (0, d)
  else if d.phase ≠ .result then (0, d)
  else if d.respLen ≤ d.respCursor then (0, d)
  else
    let v := d.resp.toList.getD d.respCursor 0
    let d := { d with respCursor := d.respCursor + 1 }
    if d.respCursor = d.respLen then
      (v, lowerIrq (enterCommandPhase { d with msr := d.msr &&& ~~~kMsrRqm }))
    else (v, d)

def controllerStateReset : FdcDevice :=
  { d with
    sra := 0
    srb := 0xc0
    dor := 0x0c
    tdr := 0
    msr := kMsrRqm
    status0 := 0
    status1 := 0
    status2 := 0
    cmdCode := 0
    multiTrack := false
    cmdCursor := 0
    cmdRemaining := 0
    phase := .command
    respCursor := 0
    respLen := 0
    currDrive := 0
    resetSense := 0
    eot := 0
    drives := fun i => { d.drives i with track := 0, head := 0, sector := 1 }
    irq := false }

def controllerReset : FdcDevice :=
  let d := { controllerStateReset d with status0 := kSr0RdyChg }
  { raiseIrq d with resetSense := kResetSenseMax }

def writeDor (v : BitVec 8) : FdcDevice :=
  let srb := (d.srb &&& ~~~0x23#8) ||| (if v.getLsbD 4 then 0x01#8 else 0) |||
    (if v.getLsbD 5 then 0x02#8 else 0) ||| (if v.getLsbD 0 then 0x20#8 else 0)
  let d := { d with srb := srb }
  let d := if !d.dor.getLsbD 2 && v.getLsbD 2 then controllerReset d else d
  { d with currDrive := v.toNat % 2, dor := v }

def fdcRead (reg : Nat) : Except FdcStop (BitVec 8 × FdcDevice) :=
  match reg with
  | 0 => .ok (d.sra, d)
  | 1 => .ok (d.srb, d)
  | 2 => .ok ((d.dor &&& ~~~0x03#8) ||| BitVec.ofNat 8 d.currDrive, d)
  | 3 => .ok (d.tdr, d)
  | 4 => .ok (d.msr, d)
  | 5 => .ok (readFifo d)
  | 7 => withDrive d.currDrive fun i => .ok (if (d.drives i).mediaChanged then 0x80 else 0, d)
  | _ => .ok (0xff, d)

def fdcWrite (reg : Nat) (v : BitVec 8) : Except FdcStop (FdcBoard D) :=
  match reg with
  | 2 => .ok { b with fdc := writeDor b.fdc v }
  | 3 =>
    .ok { b with fdc := if b.fdc.dor.getLsbD 2 then { b.fdc with tdr := v &&& 0x04 } else b.fdc }
  | 5 => writeFifo b v
  | _ => .ok b

def fdcInit (drives : Fin kFdcDrives → FdcDrive) : FdcDevice :=
  controllerStateReset
    { drives := drives, sra := 0, srb := 0, dor := 0, tdr := 0, msr := 0
      status0 := 0, status1 := 0, status2 := 0
      cmdCode := 0, multiTrack := false, cmdArgs := Vector.replicate 16 0
      cmdCursor := 0, cmdRemaining := 0, phase := .command, resp := Vector.replicate 16 0,
      respCursor := 0, respLen := 0, currDrive := 0, resetSense := 0, eot := 0, irq := false,
      buf := fun _ => 0, accesses := [], reads := [] }

def kFdcFormats : List (Nat × Nat × Nat × Nat) :=
  [(163840, 40, 1, 8), (184320, 40, 1, 9), (327680, 40, 2, 8), (368640, 40, 2, 9),
    (737280, 80, 2, 9), (1228800, 80, 2, 15), (1474560, 80, 2, 18), (2949120, 80, 2, 36)]

def emptyDrive : FdcDrive := ⟨none, 0, 0, 0, 0, 0, 1, false, false⟩

/-- `FdcAttach`: the drive with the image in it, when its size is a known format. -/
def fdcAttach (f : HostFile) : Option FdcDrive :=
  (kFdcFormats.find? fun fmt => decide (fmt.1 = f.size)).map fun fmt =>
    ⟨some f, fmt.2.1, fmt.2.2.1, fmt.2.2.2, 0, 0, 1, true, false⟩

/-! ## Runs -/

/-- What can happen to the controller: an access of the guest to its registers or to the DMA
controller's, a machine reset, and anything at all in guest memory. -/
inductive FdcEvent (D : Type) where
  | write (reg : Nat) (v : BitVec 8)
  | read (reg : Nat)
  | dmaWrite (port : Nat) (v : BitVec 8)
  | dmaRead (port : Nat)
  | reset
  | guest (w : { w : World D // X86.OpenBus w.bus })

def fdcStep : FdcEvent D → Except FdcStop (FdcBoard D)
  | .write reg v => fdcWrite b reg v
  | .read reg => (fdcRead b.fdc reg).map fun r => { b with fdc := r.2 }
  | .dmaWrite port v => .ok { b with dma := i8237Write b.dma port v }
  | .dmaRead port => .ok { b with dma := (i8237Read b.dma port).2 }
  | .reset => .ok { b with fdc := controllerStateReset b.fdc, dma := i8237Reset b.dma }
  | .guest w => .ok { b with world := w.val }

/-! ## What a command asks for -/

def SeekOk : Prop :=
  let drv := d.drives d.rwDrive
  drv.image.isSome ∧ d.cmdArgs[1].toNat < drv.cylinders ∧
    (d.cmdArgs[2].toNat = 0 ∨ 2 ≤ drv.heads) ∧ 1 ≤ d.cmdArgs[3].toNat ∧
    d.cmdArgs[3].toNat ≤ drv.sectors

instance (d : FdcDevice) : Decidable (SeekOk d) := inferInstanceAs (Decidable (_ ∧ _))

/-- The sectors FORMAT TRACK fills on drive `i`, from which block on, when it comes to that. -/
def formatRequest (i : Fin kFdcDrives) : Option (HostFile × Int × Nat) :=
  let drv := b.fdc.drives i
  let nsect := b.fdc.cmdArgs[2].toNat
  match drv.image with
  | none => none
  | some f =>
    if drv.readOnly = false ∧ transferLen b.dma kFdcDmaChannel (nsect * 4) = nsect * 4 then
      some (f, chsToLba drv drv.track drv.head 1, min nsect drv.sectors)
    else none

end Cemu.Storage
