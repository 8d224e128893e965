import Cemu.Storage.Ide

/-!
# Packet commands

The CD-ROM half of `device/storage/ide.c`: the command packets `ExecPacket` dispatches, with
the replies they build in the channel's buffer.
-/

namespace Cemu.Storage

section

variable {D : Type}

def be16 (v : Nat) : List (BitVec 8) := [BitVec.ofNat 8 (v / 0x100), BitVec.ofNat 8 v]

def be32 (v : Nat) : List (BitVec 8) := be16 (v / 0x10000) ++ be16 v

def putBuf (buf : Nat → BitVec 8) (off : Nat) (bytes : List (BitVec 8)) : Nat → BitVec 8 :=
  fun k => if off ≤ k then bytes.getD (k - off) (buf k) else buf k

variable (ch : IdeChannel)

def cdb (k : Nat) : Nat := (ch.buf k).toNat

def toInt32 (n : Nat) : Int := (BitVec.ofNat 32 n).toInt

def dataIn (lba bytes : Int) (refill : Bool) : IdeChannel :=
  { ch with
    blockSize := kAtapiBlockSize, isWrite := false, refill := refill, used := 0, lba := lba,
    left := bytes }

def startDataIn (i : Fin kIdeDrivesPerChannel) (w : World D) (lba bytes : Int)
    (refill : Bool) : Engine (IdeChannel × World D) :=
  let ch := dataIn ch lba bytes refill
  if bytes = 0 then .done (cmdOk ch i, w)
  else if ch.started then bmdmaRun { ch with dma := true, count := kAtapiReasonIo } i w
  else
    .done (startRoundOrFail { ch with dma := false } i fun ch =>
      raiseIrqIde { ch with count := kAtapiReasonIo }, w)

def startReply (i : Fin kIdeDrivesPerChannel) (w : World D)
    (reply : List (BitVec 8)) (len maxLen : Nat) : Engine (IdeChannel × World D) :=
  startDataIn { ch with buf := putBuf ch.buf 0 reply } i w 0 (min len maxLen : Nat) false

def mediumPresent (dr : IdeDrive) : Bool := dr.image.isSome && !dr.trayOpen

def withMedium (i : Fin kIdeDrivesPerChannel) (w : World D)
    (f : Engine (IdeChannel × World D)) : Engine (IdeChannel × World D) :=
  if mediumPresent (ch.drives i) then f else .done (atapiError ch i 0x2 0x3a, w)

def modePage (code : Nat) : Option (List (BitVec 8) × Nat) :=
  match code with
  | 0x01 => some (be16 22 ++ [0x70, 0, 0, 0, 0, 0, 0x01, 6, 0, 0x05] ++ List.replicate 20 0, 16)
  | 0x2a =>
    some (be16 34 ++ [0x70, 0, 0, 0, 0, 0, 0x2a, 18, 0, 0, 0x71, 0x60, 0x29, 0] ++ be16 706 ++
      [0, 2] ++ be16 512 ++ be16 706 ++ List.replicate 8 0, 28)
  | _ => none

def modeSense (i : Fin kIdeDrivesPerChannel) (w : World D) : Engine (IdeChannel × World D) :=
  let maxLen := if cdb ch 0 = 0x5a then cdb ch 7 * 0x100 + cdb ch 8 else cdb ch 4
  let action := cdb ch 2 / 0x40
  if action = 3 then .done (atapiError ch i 0x5 0x39, w)
  else if action ≠ 0 then .done (atapiError ch i 0x5 0x24, w)
  else
    match modePage (cdb ch 2 % 0x40) with
    | some (page, len) => startReply ch i w page len maxLen
    | none =>
      .done (atapiError { ch with buf := putBuf ch.buf 0 (List.replicate 32 0) } i 0x5 0x24, w)

def getConfiguration (i : Fin kIdeDrivesPerChannel) (w : World D) : Engine (IdeChannel × World D) :=
  if cdb ch 2 ≠ 0 ∨ cdb ch 3 ≠ 0 then .done (atapiError ch i 0x5 0x24, w)
  else
    let maxLen := min (cdb ch 7 * 0x100 + cdb ch 8) kAtaBlockSize
    startReply ch i w
      (be32 12 ++ [0, 0] ++ be16 8 ++ [0, 0, 0x03, 4] ++ be16 8 ++ [0x01, 0]) 16 maxLen

def msf (block : Nat) : List (BitVec 8) :=
  let frames := (block + 150) % 2 ^ 32
  [BitVec.ofNat 8 (frames / 4500), BitVec.ofNat 8 (frames / 75 % 60), BitVec.ofNat 8 (frames % 75)]

def tocAddr (isMsf : Bool) (block : Nat) : List (BitVec 8) :=
  if isMsf then 0 :: msf block else be32 block

def buildToc (dr : IdeDrive) (isMsf : Bool) (startTrack : Nat) : Option (List (BitVec 8)) :=
  if 1 < startTrack ∧ startTrack ≠ 0xaa then none
  else
    let first : List (BitVec 8) :=
      if startTrack ≤ 1 then [0, 0x14, 1, 0] ++ tocAddr isMsf 0 else []
    let body := [1, 1] ++ first ++ [0, 0x16, 0xaa, 0] ++ tocAddr isMsf dr.blocks
    some (be16 body.length ++ body)

/-- `BuildRawToc`: the bytes stored and the length reported. Without MSF the address fields are
stored and not stepped over, so the next descriptor overwrites the lead-out's and the last one
lies behind the reply. -/
def buildRawToc (dr : IdeDrive) (isMsf : Bool) : List (BitVec 8) × Nat :=
  let point : BitVec 8 → List (BitVec 8) := fun p => [1, 0x14, 0, p, 0, 0, 0]
  let head : List (BitVec 8) := [1, 1] ++ point 0xa0 ++ [0, 1, 0, 0] ++ point 0xa1 ++ [0, 1, 0, 0]
  let body := if isMsf then head ++ point 0xa2 ++ (0 :: msf dr.blocks) ++ point 1 ++ (0 :: msf 0)
    else head ++ point 0xa2 ++ point 1
  let stored := if isMsf then body else body ++ be32 0
  (be16 body.length ++ stored, body.length + 2)

def readToc (i : Fin kIdeDrivesPerChannel) (w : World D) : Engine (IdeChannel × World D) :=
  let maxLen := cdb ch 7 * 0x100 + cdb ch 8
  let isMsf := (ch.buf 1).getLsbD 1
  withMedium ch i w <|
    match cdb ch 9 / 0x40 with
    | 0 =>
      match buildToc (ch.drives i) isMsf (cdb ch 6) with
      | some toc => startReply ch i w toc toc.length maxLen
      | none => .done (atapiError ch i 0x5 0x24, w)
    | 1 => startReply ch i w [0, 0x0a, 1, 1, 0, 0, 0, 0, 0, 0, 0, 0] 12 maxLen
    | 2 =>
      let toc := buildRawToc (ch.drives i) isMsf
      startReply ch i w toc.1 toc.2 maxLen
    | _ => .done (atapiError ch i 0x5 0x24, w)

def cdbLba : Nat :=
  cdb ch 2 * 0x1000000 + cdb ch 3 * 0x10000 + cdb ch 4 * 0x100 + cdb ch 5

section

variable (i : Fin kIdeDrivesPerChannel)

def readBlocks (w : World D) (blocks : Nat) : Engine (IdeChannel × World D) :=
  if (ch.drives i).blocks < cdbLba ch + blocks then .done (atapiError ch i 0x5 0x21, w)
  else startDataIn ch i w (cdbLba ch) (toInt32 (blocks * kAtapiBlockSize)) true

def readCd (w : World D) : Engine (IdeChannel × World D) :=
  let blocks := cdb ch 6 * 0x10000 + cdb ch 7 * 0x100 + cdb ch 8
  withMedium ch i w <|
    if blocks = 0 then .done (cmdOk ch i, w)
    else if 8 ≤ cdb ch 9 then .done (atapiError ch i 0x5 0x24, w)
    else if cdb ch 9 = 0 then .done (cmdOk ch i, w)
    else readBlocks ch i w blocks

def readCdb (w : World D) : Engine (IdeChannel × World D) :=
  let blocks := if cdb ch 0 = 0x28 then cdb ch 7 * 0x100 + cdb ch 8
    else cdb ch 6 * 0x1000000 + cdb ch 7 * 0x10000 + cdb ch 8 * 0x100 + cdb ch 9
  withMedium ch i w <|
    if blocks = 0 then .done (cmdOk ch i, w) else readBlocks ch i w blocks

def seekCd (w : World D) : Engine (IdeChannel × World D) :=
  withMedium ch i w <|
    if (ch.drives i).blocks ≤ cdbLba ch then .done (atapiError ch i 0x5 0x21, w)
    else .done (cmdOk ch i, w)

def startStopUnit : IdeChannel :=
  let start := (ch.buf 4).getLsbD 0
  let loej := (ch.buf 4).getLsbD 1
  let dr := ch.drives i
  if loej && !start && !dr.trayOpen && dr.trayLocked then atapiError ch i 0x2 0x53
  else if loej && (start != !dr.trayOpen) then
    cmdOk (ch.setDrive i fun dr =>
      { dr with trayOpen := !start, senseKey := 0x6, asc := 0x28 }) i
  else cmdOk ch i

end

def inquiry : List (BitVec 8) :=
  [0x05, 0x80, 0x00, 0x02, 31, 0, 0, 0] ++
    ("CEMU    VIRTUAL CD-ROM  1.0 ".toList.map fun c => BitVec.ofNat 8 c.toNat)

def senseData (dr : IdeDrive) : List (BitVec 8) :=
  [0xf0, 0, dr.senseKey, 0, 0, 0, 0, 10, 0, 0, 0, 0, dr.asc, 0, 0, 0, 0, 0]

def execPacket (i : Fin kIdeDrivesPerChannel) (w : World D) : Engine (IdeChannel × World D) :=
  let dr := ch.drives i
  if cdb ch 1 / 0x20 ≠ 0 then .done (atapiError ch i 0x5 0x25, w)
  else if dr.senseKey = 0x6 ∧ cdb ch 0 ≠ 0x03 ∧ cdb ch 0 ≠ 0x12 then .done (checkCondition ch i, w)
  else
    match cdb ch 0 with
    | 0x00 => withMedium ch i w (.done (cmdOk ch i, w))
    | 0x03 => startReply ch i w (senseData dr) 18 (cdb ch 4)
    | 0x12 => startReply ch i w inquiry 36 (cdb ch 4)
    | 0x1b => .done (startStopUnit ch i, w)
    | 0x1e =>
      .done (cmdOk (ch.setDrive i fun dr => { dr with trayLocked := (ch.buf 4).getLsbD 0 }) i, w)
    | 0x1a => modeSense ch i w
    | 0x5a => modeSense ch i w
    | 0x46 => getConfiguration ch i w
    | 0x43 => readToc ch i w
    | 0x2b => seekCd ch i w
    | 0xbe => readCd ch i w
    | 0x25 =>
      withMedium ch i w (startReply ch i w
        (be32 ((dr.blocks + 2 ^ 32 - 1) % 2 ^ 32) ++ be32 kAtapiBlockSize) 8 8)
    | 0x28 => readCdb ch i w
    | 0xa8 => readCdb ch i w
    | _ => .done (atapiError ch i 0x5 0x24, w)

end

end Cemu.Storage
