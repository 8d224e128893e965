import Cemu.Virtio.Ring
import Cemu.Host.File

/-!
# Virtio devices and the queue notify

`VirtioConsumeChain` and `VirtioNotifyQueue` of `virtio.c`, with the three
backends: `virtio_blk.c`, `virtio_console.c` and `virtio_input.c`. The notify loop is given
by its single iteration, `drainStep`; `drain n` is what `n` of them do.

`consumed` and `published` are histories: the heads `last_avail_idx` has advanced past and the
heads handed to `VirtioConsumeChain`, oldest first. No function reads them. The debug rows are
left out.
-/

namespace Cemu.Virtio

def kVirtioMaxQueue : Nat := 64

structure VirtioQueue where
  num : BitVec 32
  /-- The check of the `QueueNum` register. -/
  num_ok : num &&& (num - 1) = 0 ∧ num ≤ 1024
  descAddr : BitVec 64
  availAddr : BitVec 64
  usedAddr : BitVec 64
  lastAvailIdx : BitVec 16
  manual : Bool
  deriving DecidableEq, Repr

inductive Backend where
  | blk (file : Option HostFile)
  | console (out : List (BitVec 8))
  | input

structure VirtioMachine where
  bus : Bus
  mem : ByteMem
  queue : Fin kVirtioMaxQueue → VirtioQueue
  intStatus : BitVec 32
  /-- The level last driven through `set_irq`. -/
  irqLine : Bool
  backend : Backend
  consumed : List (BitVec 16)
  published : List (BitVec 16)

namespace VirtioMachine

variable (m : VirtioMachine) (q : Fin kVirtioMaxQueue)

def usedIdx : BitVec 16 := readPhys16 m.bus m.mem ((m.queue q).usedAddr + 2)

def usedSlot (idx : BitVec 16) : BitVec 64 :=
  (m.queue q).usedAddr + 4 + ((idx.setWidth 32 &&& ((m.queue q).num - 1)).setWidth 64) * 8

def availIdx : BitVec 16 := readPhys16 m.bus m.mem ((m.queue q).availAddr + 2)

def availHead : BitVec 16 :=
  readPhys16 m.bus m.mem ((m.queue q).availAddr + 4 +
    (((m.queue q).lastAvailIdx.setWidth 32 &&& ((m.queue q).num - 1)).setWidth 64) * 2)

def advance (head : BitVec 16) : VirtioMachine :=
  { m with
    queue := Function.update m.queue q
      { m.queue q with lastAvailIdx := (m.queue q).lastAvailIdx + 1 }
    consumed := m.consumed ++ [head] }

end VirtioMachine

def virtioConsumeChain (m : VirtioMachine) (q : Fin kVirtioMaxQueue) (idx : BitVec 16)
    (written : BitVec 32) : VirtioMachine :=
  let usedIdx := m.usedIdx q
  let slot := m.usedSlot q usedIdx
  let mem₁ := writePhys32 m.bus m.mem slot (idx.setWidth 32)
  let mem₂ := writePhys32 m.bus mem₁ (slot + 4) written
  let mem₃ := writePhys16 m.bus mem₂ ((m.queue q).usedAddr + 2) (usedIdx + 1)
  { m with
    mem := mem₃
    intStatus := m.intStatus ||| 1
    irqLine := true
    published := m.published ++ [idx] }

/-! ## The block device -/

structure BlkHeader where
  type : BitVec 32
  sector : BitVec 64
  deriving DecidableEq, Repr

def kBlkHeaderSize : BitVec 32 := 16

def blkHeader (m : VirtioMachine) (q : Fin kVirtioMaxQueue) (desc : BitVec 16) : Walk BlkHeader :=
  (virtioCopyFromChain m.bus m.mem (m.queue q).descAddr desc 0 kBlkHeaderSize).bind fun bytes =>
    let word := fun (off n : Nat) => ByteMem.pack (fun k => bytes.getD (off + k) 0) n
    .done ⟨(word 0 4).setWidth 32, word 8 8⟩

def BlkHeader.offset (h : BlkHeader) : Int := (h.sector * 512).toInt

/-- The read branch of `BlkRecv`: the data, or nothing with `kVirtioBlkIoerr`. A negative length is
an allocation that fails. -/
def blkIn (file : Option HostFile) (h : BlkHeader) (dataLen : BitVec 32) :
    List (BitVec 8) × BitVec 8 :=
  match file with
  | none => ([], 1)
  | some f =>
    if dataLen.slt 0 then ([], 1)
    else
      let buf := f.readAt h.offset dataLen.toNat
      if buf.length ≠ dataLen.toNat then ([], 1) else (buf, 0)

def blkOut (file : Option HostFile) (h : BlkHeader) (data : Option (List (BitVec 8))) :
    Option HostFile × BitVec 8 :=
  match data, file with
  | none, _ => (file, 1)
  | some _, none => (none, 1)
  | some buf, some f =>
    let w := f.writeAt h.offset buf
    (some w.1, if w.2 ≠ buf.length then 1 else 0)

/-- What a backend has done when it comes to `VirtioConsumeChain`: the machine and the `written`
it passes. `none` is a return that publishes nothing. -/
abbrev Reply := Option (VirtioMachine × BitVec 32)

section

variable (m : VirtioMachine) (q : Fin kVirtioMaxQueue)

def publish (desc : BitVec 16) : Reply → VirtioMachine
  | none => m
  | some (m₁, written) => virtioConsumeChain m₁ q desc written

section

variable (file : Option HostFile) (desc : BitVec 16) (rd wr : BitVec 32)

/-- `BlkRecv` up to the status byte: the request's transfer and the status to store. -/
def blkServe : Walk (Option (VirtioMachine × BitVec 8)) :=
  if rd.slt kBlkHeaderSize then .done none
  else
    match blkHeader m q desc with
    | .endless => .endless
    | .fail => .done none
    | .done h =>
      if h.type = 0 then
        let r := blkIn file h (wr - 1)
        (virtioCopyToChain m.bus m.mem (m.queue q).descAddr desc 0 r.1).bind fun w =>
          .done (some ({ m with mem := w.1 }, r.2))
      else if h.type = 1 then
        let copied := virtioCopyFromChain m.bus m.mem (m.queue q).descAddr desc kBlkHeaderSize
          (rd - kBlkHeaderSize)
        match copied with
        | .endless => .endless
        | .fail => .done (some (m, (blkOut file h none).2))
        | .done buf =>
          let r := blkOut file h (some buf)
          .done (some ({ m with backend := .blk r.1 }, r.2))
      else if h.type = 4 then .done (some (m, 0))
      else .done none

def blkReply : Walk Reply :=
  (blkServe m q file desc rd wr).bind fun served =>
    match served with
    | none => .done none
    | some (m₁, status) =>
      -- the status byte is the last byte of the writable run
      (virtioCopyToChain m₁.bus m₁.mem (m₁.queue q).descAddr desc (wr - 1) [status]).bind fun w =>
        .done (some ({ m₁ with mem := w.1 }, wr))

def blkRecv : Walk VirtioMachine :=
  (blkReply m q file desc rd wr).bind fun r => .done (publish m q desc r)

end

/-! ## Console and input -/

def consoleReply (out : List (BitVec 8)) (desc : BitVec 16) (rd : BitVec 32) : Walk Reply :=
  if q.val ≠ 1 then .done none
  else
    let copied := if (0#32).slt rd then
      virtioCopyFromChain m.bus m.mem (m.queue q).descAddr desc 0 rd else .fail
    match copied with
    | .endless => .endless
    | .fail => .done (some (m, 0))
    | .done buf => .done (some ({ m with backend := .console (out ++ buf) }, 0))

def consoleRecv (out : List (BitVec 8)) (desc : BitVec 16) (rd : BitVec 32) : Walk VirtioMachine :=
  (consoleReply m q out desc rd).bind fun r => .done (publish m q desc r)

def inputReply : Reply :=
  if q.val = 1 then some (m, 0) else none

def inputRecv (desc : BitVec 16) : Walk VirtioMachine :=
  .done (publish m q desc (inputReply m q))

def recv (desc : BitVec 16) (rd wr : BitVec 32) : Walk VirtioMachine :=
  match m.backend with
  | .blk file => blkRecv m q file desc rd wr
  | .console out => consoleRecv m q out desc rd
  | .input => inputRecv m q desc

end

/-! ## The notify loop -/

/-- The loop of `VirtioNotifyQueue` at its test: the machine and the `avail_idx` it compares. -/
structure Drain where
  m : VirtioMachine
  availIdx : BitVec 16

def virtioNotifyQueue (m : VirtioMachine) (q : Fin kVirtioMaxQueue) : Option Drain :=
  if (m.queue q).manual then none
  else if (m.queue q).num = 0 then none
  else some ⟨m, m.availIdx q⟩

/-- One iteration. It fails when the loop is over. A malformed chain is skipped, and only a chain
that was handed to the backend has `avail_idx` read again. -/
def drainStep (q : Fin kVirtioMaxQueue) (s : Drain) : Walk Drain :=
  if (s.m.queue q).lastAvailIdx = s.availIdx then .fail
  else
    let idx := s.m.availHead q
    match chainSizes s.m.bus s.m.mem (s.m.queue q).descAddr idx with
    | .endless => .endless
    | .fail => .done ⟨s.m.advance q idx, s.availIdx⟩
    | .done (rd, wr) =>
      (recv s.m q idx rd wr).bind fun m₁ =>
        let m₂ := m₁.advance q idx
        .done ⟨m₂, m₂.availIdx q⟩

def drain (q : Fin kVirtioMaxQueue) (s : Drain) : Nat → Option Drain
  | 0 => some s
  | n + 1 =>
    match drain q s n with
    | some s' =>
      match drainStep q s' with
      | .done s'' => some s''
      | _ => none
    | none => none

end Cemu.Virtio
