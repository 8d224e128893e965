import Cemu.Dma.Move

/-!
# The 8237A pair

`device/dma/i8237.c`: the register file of the two chips, with the byte flip-flop they share
here, the page latches, and `I8237Transfer`. The board gives the controller its memory bus before
the guest runs, so `d->mem` is the `World` the transfer works on.
-/

namespace Cemu.Dma

def kI8237Channels : Nat := 8

structure I8237Channel where
  addr : BitVec 16
  addrInit : BitVec 16
  count : BitVec 16
  countInit : BitVec 16
  page : BitVec 8
  mode : BitVec 8
  masked : Bool
  deriving DecidableEq, Repr

structure I8237Device where
  ch : Fin kI8237Channels → I8237Channel
  command : BitVec 8
  status : BitVec 8
  request : BitVec 8
  flipflop : Bool

inductive Chip where
  | master
  | slave
  deriving DecidableEq, Repr

def Chip.channel (c : Chip) (i : Fin 4) : Fin kI8237Channels :=
  match c with
  | .master => ⟨i, by have := i.isLt; simp only [kI8237Channels]; omega⟩
  | .slave => ⟨4 + i, by have := i.isLt; simp only [kI8237Channels]; omega⟩

def channelField (v : BitVec 8) : Fin 4 := ⟨v.toNat % 4, Nat.mod_lt _ (by decide)⟩

inductive RegHit where
  | page (channel : Fin kI8237Channels)
  | addr (channel : Fin kI8237Channels)
  | count (channel : Fin kI8237Channels)
  | ctl (reg : Nat) (chip : Chip)
  deriving DecidableEq, Repr

def pageChannel (port : Nat) : Option (Fin kI8237Channels) :=
  match port with
  | 0x81 => some ⟨2, by decide⟩
  | 0x82 => some ⟨3, by decide⟩
  | 0x83 => some ⟨1, by decide⟩
  | 0x87 => some ⟨0, by decide⟩
  | 0x89 => some ⟨6, by decide⟩
  | 0x8a => some ⟨7, by decide⟩
  | 0x8b => some ⟨5, by decide⟩
  | 0x8f => some ⟨4, by decide⟩
  | _ => none

def decodePort (port : Nat) : Option RegHit :=
  if 0x81 ≤ port ∧ port ≤ 0x8f then (pageChannel port).map .page
  else if port ≤ 0x0f then
    if port < 0x08 then
      let channel := Chip.master.channel ⟨port / 2 % 4, Nat.mod_lt _ (by decide)⟩
      some (if port % 2 = 0 then .addr channel else .count channel)
    else some (.ctl port .master)
  else if 0xc0 ≤ port ∧ port ≤ 0xdf then
    if port < 0xd0 then
      let off := port - 0xc0
      let channel := Chip.slave.channel ⟨off / 4 % 4, Nat.mod_lt _ (by decide)⟩
      if off % 4 = 0 then some (.addr channel)
      else if off % 4 = 2 then some (.count channel)
      else none
    else
      let off := port - 0xd0
      if off % 2 = 1 then none else some (.ctl (0x08 + off / 2) .slave)
  else none

namespace I8237Device

def setCh (d : I8237Device) (c : Fin kI8237Channels) (f : I8237Channel → I8237Channel) :
    I8237Device :=
  { d with ch := Function.update d.ch c (f (d.ch c)) }

def setChip (d : I8237Device) (chip : Chip) (f : Fin 4 → I8237Channel → I8237Channel) :
    I8237Device :=
  (List.finRange 4).foldl (fun d i => d.setCh (chip.channel i) (f i)) d

end I8237Device

section

variable (d : I8237Device)

def flipflopWrite (old : BitVec 16) (v : BitVec 8) : BitVec 16 × I8237Device :=
  let d := { d with flipflop := !d.flipflop }
  (if d.flipflop then (old &&& 0xff00) ||| v.setWidth 16
    else (old &&& 0x00ff) ||| (v.setWidth 16 <<< 8), d)

def flipflopRead (v : BitVec 16) : BitVec 8 × I8237Device :=
  let d := { d with flipflop := !d.flipflop }
  (if d.flipflop then v.setWidth 8 else (v >>> 8).setWidth 8, d)

def maskByte (chip : Chip) : BitVec 8 :=
  (List.finRange 4).foldl
    (fun v i => if (d.ch (chip.channel i)).masked then v ||| (1#8 <<< i.val) else v) 0

def i8237Read (port : Nat) : BitVec 8 × I8237Device :=
  match decodePort port with
  | none => (0xff, d)
  | some (.page c) => ((d.ch c).page, d)
  | some (.addr c) => flipflopRead d (d.ch c).addr
  | some (.count c) => flipflopRead d (d.ch c).count
  | some (.ctl reg chip) =>
    if reg = 0x08 then (d.status, d)
    else if reg = 0x0f then (maskByte d chip, d)
    else (0xff, d)

/-- `MasterClear` of one chip; the registers outside the channels are shared by both here. -/
def masterClear (chip : Chip) : I8237Device :=
  let d := { d with command := 0, status := 0, request := 0, flipflop := false }
  d.setChip chip fun _ c =>
    { c with addr := 0, addrInit := 0, count := 0, countInit := 0, mode := 0, masked := true }

def writeCtl (reg : Nat) (chip : Chip) (v : BitVec 8) : I8237Device :=
  match reg with
  | 0x08 => { d with command := v }
  | 0x09 => { d with request := v }
  | 0x0a => d.setCh (chip.channel (channelField v)) fun c => { c with masked := v.getLsbD 2 }
  | 0x0b => d.setCh (chip.channel (channelField v)) fun c => { c with mode := v }
  | 0x0c => { d with flipflop := false }
  | 0x0d => masterClear d chip
  | 0x0e => d.setChip chip fun _ c => { c with masked := false }
  | 0x0f => d.setChip chip fun i c => { c with masked := v.getLsbD i }
  | _ => d

def i8237Write (port : Nat) (v : BitVec 8) : I8237Device :=
  match decodePort port with
  | none => d
  | some (.page c) => d.setCh c fun ch => { ch with page := v }
  | some (.addr c) =>
    let (r, d) := flipflopWrite d (d.ch c).addr v
    d.setCh c fun ch => { ch with addr := r, addrInit := r }
  | some (.count c) =>
    let (r, d) := flipflopWrite d (d.ch c).count v
    d.setCh c fun ch => { ch with count := r, countInit := r }
  | some (.ctl reg chip) => writeCtl d reg chip v

def i8237Reset : I8237Device := masterClear (masterClear d .master) .slave

end

def i8237Init : I8237Device :=
  i8237Reset ⟨fun _ => ⟨0, 0, 0, 0, 0, 0, false⟩, 0, 0, 0, false⟩

/-! ## Transfers -/

def I8237Channel.direction (c : I8237Channel) : BitVec 8 := c.mode &&& 0x0c

def I8237Channel.toMemory (c : I8237Channel) : Bool := decide (c.direction ≠ 0x08)

def I8237Channel.decrement (c : I8237Channel) : Bool := c.mode.getLsbD 5

def I8237Channel.left (c : I8237Channel) : Nat := c.count.toNat + 1

/-- The bytes a request of `len` bytes moves: none while the controller is disabled, the channel
masked or the mode a verify. -/
def transferLen (d : I8237Device) (channel : Fin kI8237Channels) (len : Nat) : Nat :=
  let c := d.ch channel
  if d.command.getLsbD 2 ∨ c.masked ∨ c.direction = 0 then 0 else min len c.left

/-- The address of byte `i`: the page latch and the address register as one word, which then
counts in 32 bits. -/
def I8237Channel.address (c : I8237Channel) (i : Nat) : BitVec 32 :=
  let addr := (c.page.setWidth 32 <<< 16) ||| c.addr.setWidth 32
  if c.decrement then addr - BitVec.ofNat 32 i else addr + BitVec.ofNat 32 i

def I8237Channel.advance (c : I8237Channel) (n : Nat) : I8237Channel :=
  { c with addr := (c.address n).setWidth 16, count := BitVec.ofNat 16 (c.left - n) - 1 }

def finishTransfer (d : I8237Device) (channel : Fin kI8237Channels) (n : Nat) : I8237Device :=
  let c := d.ch channel
  let c₁ := c.advance n
  if n = c.left then
    let c₂ := if c.mode.getLsbD 4 then { c₁ with addr := c.addrInit, count := c.countInit } else c₁
    { d with
      ch := Function.update d.ch channel c₂
      status := d.status ||| (1#8 <<< (channel.val % 4)) }
  else { d with ch := Function.update d.ch channel c₁ }

structure Transfer (D : Type) where
  dev : I8237Device
  buf : Nat → BitVec 8
  world : World D
  moved : Nat

def i8237Transfer {D : Type} (d : I8237Device) (channel : Fin kI8237Channels)
    (buf : Nat → BitVec 8) (len : Nat) (w : World D) : Option (Transfer D) :=
  let n := transferLen d channel len
  if n = 0 then some ⟨d, buf, w, 0⟩
  else
    let c := d.ch channel
    (moveBytes c.toMemory c.address buf w n).map fun r =>
      ⟨finishTransfer d channel n, r.1, r.2, n⟩

section

variable {D : Type} {d : I8237Device} {channel : Fin kI8237Channels} {buf : Nat → BitVec 8}
  {len : Nat} {w : World D} {t : Transfer D}

theorem transferLen_le (d : I8237Device) (channel : Fin kI8237Channels) (len : Nat) :
    transferLen d channel len ≤ len := by
  unfold transferLen
  dsimp only
  split
  · exact Nat.zero_le len
  · exact Nat.min_le_left _ _

theorem moved_i8237Transfer (h : i8237Transfer d channel buf len w = some t) :
    t.moved = transferLen d channel len := by
  unfold i8237Transfer at h
  dsimp only at h
  split at h
  · rename_i h0
    cases h
    exact h0.symm
  · obtain ⟨r, -, rfl⟩ := Option.map_eq_some_iff.mp h
    rfl

theorem sameBoard_i8237Transfer (h : i8237Transfer d channel buf len w = some t) :
    World.SameBoard w t.world := by
  unfold i8237Transfer at h
  dsimp only at h
  split at h
  · cases h
    exact .refl w
  · obtain ⟨r, hmove, rfl⟩ := Option.map_eq_some_iff.mp h
    exact moveBytes_sameBoard hmove

theorem i8237Transfer_isSome (hopen : X86.OpenBus w.bus) (d : I8237Device)
    (channel : Fin kI8237Channels) (buf : Nat → BitVec 8) (len : Nat) :
    ∃ t, i8237Transfer d channel buf len w = some t := by
  unfold i8237Transfer
  dsimp only
  split
  · exact ⟨_, rfl⟩
  · obtain ⟨r, hmove⟩ := moveBytes_isSome hopen (d.ch channel).toMemory (d.ch channel).address buf
      (transferLen d channel len)
    exact ⟨_, by rw [hmove]; rfl⟩

end

end Cemu.Dma
