import Cemu.Bus.Map
import Cemu.Lib.ByteMem

/-!
# Virtqueues in guest memory

The guest-memory half of `device/virtio/virtio.c`: the physical accessors, descriptors, the
walk of a descriptor chain and the copy between a chain and a linear buffer.

The transport reaches RAM only through `BusRamRange`, one page piece at a time. The RAM regions
of a board do not overlap, so a byte of RAM is named by its guest address and the memory is a
`ByteMem` over guest addresses; which pieces are RAM is the bus's.

A chain is linked by 16-bit indices that the guest chooses, so a walk can go round for ever.
`Walk.endless` is that case, and also the case of a negative piece length, where the source
copies without a bound.
-/

namespace Cemu.Virtio

open BitVec List

inductive Walk (α : Type) where
  | done (a : α)
  | fail
  | endless
  deriving DecidableEq, Repr

namespace Walk

variable {α β : Type}

def bind : Walk α → (α → Walk β) → Walk β
  | done a, f => f a
  | fail, _ => fail
  | endless, _ => endless

@[simp] theorem bind_done (a : α) (f : α → Walk β) : (done a).bind f = f a := rfl

end Walk

/-! ## Guest RAM access -/

/-- The pieces `ReadPhys` and `WritePhys` cut a range into: none crosses a page. -/
def piecesFrom : Nat → BitVec 64 → Nat → List (BitVec 64 × Nat)
  | 0, _, _ => []
  | fuel + 1, addr, len =>
    if len = 0 then []
    else
      let l := min len (0x1000 - (addr &&& 0xfff#64).toNat)
      (addr, l) :: piecesFrom fuel (addr + BitVec.ofNat 64 l) (len - l)

def pieces (addr : BitVec 64) (len : Nat) : List (BitVec 64 × Nat) := piecesFrom len addr len

def isRam (bus : Bus) (addr : BitVec 64) (len : Nat) : Bool :=
  (busRamRange bus addr (BitVec.ofNat 64 len)).isSome

def ramRange (bus : Bus) (addr : BitVec 64) (len : Nat) : Bool :=
  (pieces addr len).all fun p => isRam bus p.1 p.2

def bytesAt (mem : ByteMem) (addr : BitVec 64) (len : Nat) : List (BitVec 8) :=
  (range len).map fun k => mem (addr + BitVec.ofNat 64 k)

def readPhys (bus : Bus) (mem : ByteMem) (addr : BitVec 64) (len : Nat) :
    Option (List (BitVec 8)) :=
  if ramRange bus addr len then some (bytesAt mem addr len) else none

def putBytes (mem : ByteMem) (addr : BitVec 64) (buf : List (BitVec 8)) : ByteMem :=
  fun p => if (p - addr).toNat < buf.length then buf.getD (p - addr).toNat 0 else mem p

/-- The loop of `WritePhys` over the pieces: the pieces before the first that is not RAM are
written. -/
def writePieces (bus : Bus) : ByteMem → List (BitVec 64 × Nat) → List (BitVec 8) → ByteMem × Bool
  | mem, [], _ => (mem, true)
  | mem, (addr, l) :: rest, buf =>
    if isRam bus addr l then writePieces bus (putBytes mem addr (buf.take l)) rest (buf.drop l)
    else (mem, false)

def writePhys (bus : Bus) (mem : ByteMem) (addr : BitVec 64) (buf : List (BitVec 8)) :
    ByteMem × Bool :=
  writePieces bus mem (pieces addr buf.length) buf

def wordBytes (n : Nat) (v : BitVec 64) : List (BitVec 8) :=
  (range n).map fun k => ByteMem.byteOf v k

section

variable (bus : Bus) (mem : ByteMem) (addr : BitVec 64)

def readPhys16 : BitVec 16 :=
  if ramRange bus addr 2 then (mem.load addr 2).setWidth 16 else 0

def writePhys16 (v : BitVec 16) : ByteMem :=
  (writePhys bus mem addr (wordBytes 2 (v.setWidth 64))).1

def writePhys32 (v : BitVec 32) : ByteMem :=
  (writePhys bus mem addr (wordBytes 4 (v.setWidth 64))).1

end

/-! ### What a physical write changes -/

variable {mem mem' : ByteMem} {addr p : BitVec 64}

theorem putBytes_apply_of_ge {buf : List (BitVec 8)} (h : buf.length ≤ (p - addr).toNat) :
    putBytes mem addr buf p = mem p :=
  if_neg (Nat.not_lt.mpr h)

theorem putBytes_putBytes (mem : ByteMem) (addr : BitVec 64) {b1 b2 : List (BitVec 8)}
    (h : b1.length + b2.length ≤ 2 ^ 64) :
    putBytes (putBytes mem addr b1) (addr + .ofNat 64 b1.length) b2 =
      putBytes mem addr (b1 ++ b2) := by
  funext p
  simp only [putBytes, length_append]
  rcases Nat.lt_or_ge (p - addr).toNat b1.length with hlt | hge
  · have hout : ¬ (p - (addr + .ofNat 64 b1.length)).toNat < b2.length := by bv_omega
    rw [if_neg hout, if_pos hlt, if_pos (by omega), getD_append _ _ _ _ hlt]
  have hsub : (p - (addr + .ofNat 64 b1.length)).toNat = (p - addr).toNat - b1.length := by
    bv_omega
  rw [hsub, if_neg (Nat.not_lt.mpr hge), getD_append_right _ _ _ _ hge]
  by_cases hlt : (p - addr).toNat < b1.length + b2.length
  · rw [if_pos hlt, if_pos (by omega)]
  · rw [if_neg hlt, if_neg (by omega)]

section

variable (bus : Bus) (fuel : Nat) (mem : ByteMem) (addr : BitVec 64) (buf : List (BitVec 8))
  (hlen : buf.length ≤ 2 ^ 64)

include hlen

theorem writePieces_outside (hp : buf.length ≤ (p - addr).toNat) :
    (writePieces bus mem (piecesFrom fuel addr buf.length) buf).1 p = mem p := by
  induction fuel generalizing mem addr buf with
  | zero => rfl
  | succ fuel ih =>
    rw [piecesFrom]
    split
    · rfl
    generalize hl : min buf.length (0x1000 - (addr &&& 0xfff#64).toNat) = l
    rw [writePieces]
    split
    · have hdrop : (buf.drop l).length = buf.length - l := length_drop
      have h := ih (putBytes mem addr (buf.take l)) (addr + .ofNat 64 l) (buf.drop l)
        (by omega) (by rw [hdrop]; bv_omega)
      rw [hdrop] at h
      rw [h, putBytes_apply_of_ge]
      rw [length_take]
      omega
    · rfl

theorem writePieces_ram (hfuel : buf.length ≤ fuel)
    (hram : (piecesFrom fuel addr buf.length).all fun p => isRam bus p.1 p.2) :
    writePieces bus mem (piecesFrom fuel addr buf.length) buf = (putBytes mem addr buf, true) := by
  induction fuel generalizing mem addr buf with
  | zero =>
    obtain rfl : buf = [] := length_eq_zero_iff.mp (by omega)
    rfl
  | succ fuel ih =>
    rw [piecesFrom] at hram ⊢
    split at hram
    · rename_i h0
      obtain rfl : buf = [] := length_eq_zero_iff.mp h0
      rfl
    rename_i h0
    rw [if_neg h0]
    have hpos : 0 < min buf.length (0x1000 - (addr &&& 0xfff#64).toNat) := by
      have : (addr &&& 0xfff#64).toNat ≤ 0xfff := by
        exact Nat.and_le_right
      omega
    generalize hl : min buf.length (0x1000 - (addr &&& 0xfff#64).toNat) = l at hram hpos ⊢
    have htake : (buf.take l).length = l := by rw [length_take]; omega
    have hdrop : (buf.drop l).length = buf.length - l := length_drop
    rw [all_cons, Bool.and_eq_true] at hram
    rw [writePieces, if_pos hram.1]
    have h := ih (putBytes mem addr (buf.take l)) (addr + .ofNat 64 l) (buf.drop l)
      (by omega) (by omega) (by rw [hdrop]; exact hram.2)
    rw [hdrop] at h
    have hfit : (buf.take l).length + (buf.drop l).length ≤ 2 ^ 64 := by omega
    have hjoin := putBytes_putBytes mem addr hfit
    rw [htake, take_append_drop] at hjoin
    rw [h, hjoin]

end

theorem writePhys_outside (bus : Bus) (mem : ByteMem) (addr : BitVec 64) (buf : List (BitVec 8))
    (hlen : buf.length ≤ 2 ^ 64) (hp : buf.length ≤ (p - addr).toNat) :
    (writePhys bus mem addr buf).1 p = mem p :=
  writePieces_outside bus _ mem addr buf hlen hp

theorem writePhys_ram {bus : Bus} {buf : List (BitVec 8)} (hlen : buf.length ≤ 2 ^ 64)
    (hram : ramRange bus addr buf.length) :
    writePhys bus mem addr buf = (putBytes mem addr buf, true) :=
  writePieces_ram bus _ mem addr buf hlen le_rfl hram

@[simp] theorem length_wordBytes (n : Nat) (v : BitVec 64) : (wordBytes n v).length = n := by
  simp [wordBytes]

theorem bytesAt_putBytes (mem : ByteMem) (addr : BitVec 64) (buf : List (BitVec 8))
    (hlen : buf.length ≤ 2 ^ 64) : bytesAt (putBytes mem addr buf) addr buf.length = buf := by
  apply ext_getElem
  · simp [bytesAt]
  · intro k hk hk'
    have hsub : (addr + .ofNat 64 k - addr).toNat = k := by bv_omega
    simp only [bytesAt, getElem_map, getElem_range, putBytes, hsub, if_pos hk']
    exact getD_eq_getElem _ _ hk'

theorem bytesAt_congr {len : Nat}
    (h : ∀ k < len, mem (addr + .ofNat 64 k) = mem' (addr + .ofNat 64 k)) :
    bytesAt mem addr len = bytesAt mem' addr len :=
  map_congr_left fun k hk => h k (mem_range.mp hk)

theorem putBytes_wordBytes (mem : ByteMem) (addr : BitVec 64) {n : Nat} (v : BitVec 64)
    (hn : n ≤ 8) : putBytes mem addr (wordBytes n v) = mem.store addr n v := by
  funext p
  rw [ByteMem.store_apply _ _ _ _ _ hn, putBytes, length_wordBytes]
  split
  · rename_i hlt
    rw [getD_eq_getElem _ _ (by simpa using hlt)]
    simp [wordBytes]
  · rfl

theorem readPhys16_writePhys16 {bus : Bus} (v : BitVec 16) (hram : ramRange bus addr 2) :
    readPhys16 bus (writePhys16 bus mem addr v) addr = v := by
  rw [readPhys16, if_pos hram, writePhys16, writePhys_ram (by simp) (by simpa using hram),
    putBytes_wordBytes _ _ _ (by decide), ByteMem.load_store_of_small _ _ (by decide)]
  · exact setWidth_setWidth_of_le v (by decide)
  · intro k hk
    apply eq_of_getLsbD_eq
    intro i hi
    rw [ByteMem.getLsbD_byteOf, getLsbD_setWidth, getLsbD_of_ge v _ (by omega)]
    simp

/-! ## Descriptors -/

structure VringDesc where
  addr : BitVec 64
  len : BitVec 32
  flags : BitVec 16
  next : BitVec 16
  deriving DecidableEq, Repr

def VringDesc.hasNext (d : VringDesc) : Bool := d.flags.getLsbD 0

def VringDesc.isWrite (d : VringDesc) : Bool := d.flags.getLsbD 1

def getDesc (bus : Bus) (mem : ByteMem) (descAddr : BitVec 64) (idx : BitVec 16) :
    Option VringDesc :=
  let a := descAddr + idx.setWidth 64 * 16
  if ramRange bus a 16 then
    some ⟨mem.load a 8, (mem.load (a + 8) 4).setWidth 32, (mem.load (a + 12) 2).setWidth 16,
      (mem.load (a + 14) 2).setWidth 16⟩
  else none

section

variable (bus : Bus) (mem : ByteMem) (descAddr : BitVec 64)

def follow (d : VringDesc) {α : Type} (f : VringDesc → Walk α) : Walk α :=
  match getDesc bus mem descAddr d.next with
  | some d' => f d'
  | none => .fail

/-! ## Chain sizes

There are `2 ^ 16` descriptors, so a walk that has followed that many links is in a cycle. -/

def kMaxLinks : Nat := 2 ^ 16 + 1

def writableSize : Nat → VringDesc → BitVec 32 → Walk (BitVec 32)
  | 0, _, _ => .endless
  | fuel + 1, d, nwr =>
    if d.isWrite = false then .fail
    else if d.hasNext = false then .done (nwr + d.len)
    else follow bus mem descAddr d fun d' => writableSize fuel d' (nwr + d.len)

/-- The first loop of `ChainSizes`: the readable run, and then the writable one if it starts. -/
def chainSizesFrom : Nat → VringDesc → BitVec 32 → Walk (BitVec 32 × BitVec 32)
  | 0, _, _ => .endless
  | fuel + 1, d, nrd =>
    if d.isWrite then (writableSize bus mem descAddr kMaxLinks d 0).bind fun nwr => .done (nrd, nwr)
    else if d.hasNext = false then .done (nrd + d.len, 0)
    else follow bus mem descAddr d fun d' => chainSizesFrom fuel d' (nrd + d.len)

/-- `ChainSizes`: the readable and writable bytes of the chain, as the `int`s of the source. -/
def chainSizes (idx : BitVec 16) : Walk (BitVec 32 × BitVec 32) :=
  match getDesc bus mem descAddr idx with
  | some d => chainSizesFrom bus mem descAddr kMaxLinks d 0
  | none => .fail

/-! ## Copying -/

def skipReadable : Nat → VringDesc → Walk VringDesc
  | 0, _ => .endless
  | fuel + 1, d =>
    if d.isWrite then .done d
    else if d.hasNext = false then .fail
    else follow bus mem descAddr d (skipReadable fuel)

def seekOffset (toGuest : Bool) : Nat → VringDesc → BitVec 32 → Walk (VringDesc × BitVec 32)
  | 0, _, _ => .endless
  | fuel + 1, d, offset =>
    if d.isWrite ≠ toGuest then .fail
    else if offset.slt d.len then .done (d, offset)
    else if d.hasNext = false then .fail
    else follow bus mem descAddr d fun d' => seekOffset toGuest fuel d' (offset - d.len)

def copyStart (toGuest : Bool) (idx : BitVec 16) (offset : BitVec 32) :
    Walk (VringDesc × BitVec 32) :=
  match getDesc bus mem descAddr idx with
  | some d =>
    (if toGuest then skipReadable bus mem descAddr kMaxLinks d else .done d).bind fun d' =>
      seekOffset bus mem descAddr toGuest kMaxLinks d' offset
  | none => .fail

end

/-- More than a copy of an `int` number of bytes can take: each byte may be preceded by a whole
table of empty descriptors. -/
def kMaxPieces : Nat := 2 ^ 48

def pieceLen (d : VringDesc) (offset len : BitVec 32) : BitVec 32 :=
  if len.slt (d.len - offset) then len else d.len - offset

/-- The third loop of `CopyChain`, reading: the bytes of `len` positions of the chain. -/
def readChain (bus : Bus) (mem : ByteMem) (descAddr : BitVec 64) :
    Nat → VringDesc → (offset len : BitVec 32) → Walk (List (BitVec 8))
  | 0, _, _, _ => .endless
  | fuel + 1, d, offset, len =>
    let l := pieceLen d offset len
    if l.slt 0 then .endless
    else
      match readPhys bus mem (d.addr + offset.signExtend 64) l.toNat with
      | none => .fail
      | some bytes =>
        if len - l = 0 then .done bytes
        else if offset + l = d.len then
          if d.hasNext = false then .fail
          else follow bus mem descAddr d fun d' =>
            if d'.isWrite then .fail
            else (readChain bus mem descAddr fuel d' 0 (len - l)).bind
              fun rest => .done (bytes ++ rest)
        else (readChain bus mem descAddr fuel d (offset + l) (len - l)).bind fun rest =>
          .done (bytes ++ rest)

/-- The third loop of `CopyChain`, writing. The descriptors are read from the memory as the copy
has left it. A failed copy keeps what it has stored. -/
def writeChain (bus : Bus) (descAddr : BitVec 64) :
    Nat → ByteMem → VringDesc → BitVec 32 → List (BitVec 8) → Walk (ByteMem × Bool)
  | 0, _, _, _, _ => .endless
  | fuel + 1, mem, d, offset, buf =>
    let l := pieceLen d offset (BitVec.ofNat 32 buf.length)
    if l.slt 0 then .endless
    else
      let w := writePhys bus mem (d.addr + offset.signExtend 64) (buf.take l.toNat)
      if w.2 = false then .done (w.1, false)
      else if buf.drop l.toNat = [] then .done (w.1, true)
      else if offset + l = d.len then
        if d.hasNext = false then .done (w.1, false)
        else
          match getDesc bus w.1 descAddr d.next with
          | none => .done (w.1, false)
          | some d' =>
            if d'.isWrite = false then .done (w.1, false)
            else writeChain bus descAddr fuel w.1 d' 0 (buf.drop l.toNat)
      else writeChain bus descAddr fuel w.1 d (offset + l) (buf.drop l.toNat)

def virtioCopyFromChain (bus : Bus) (mem : ByteMem) (descAddr : BitVec 64) (idx : BitVec 16)
    (offset len : BitVec 32) : Walk (List (BitVec 8)) :=
  if len = 0 then .done []
  else (copyStart bus mem descAddr false idx offset).bind fun s =>
    readChain bus mem descAddr kMaxPieces s.1 s.2 len

def virtioCopyToChain (bus : Bus) (mem : ByteMem) (descAddr : BitVec 64) (idx : BitVec 16)
    (offset : BitVec 32) (buf : List (BitVec 8)) : Walk (ByteMem × Bool) :=
  if buf = [] then .done (mem, true)
  else
    match copyStart bus mem descAddr true idx offset with
    | .done s => writeChain bus descAddr kMaxPieces mem s.1 s.2 buf
    | .fail => .done (mem, false)
    | .endless => .endless

end Cemu.Virtio
