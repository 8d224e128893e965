import Cemu.X86.Alu

/-!
# x86: shifts and rotations

GRP2 and the double shifts. Counts are masked to five bits before they arrive here, so no shift
reaches the width of its host type.
-/

namespace Cemu.X86

variable {D : Type}

def kFlagSzp : BitVec 32 := kFlagSf ||| kFlagZf ||| kFlagPf

def X86State.szp (s : X86State) (r : BitVec 32) (size : Nat) : X86State :=
  { s with fl := s.fl &&& ~~~kFlagSzp ||| szpBits r size }

def X86State.setCf (s : X86State) (b : Bool) : X86State := s.setFlag 0 b

def X86State.setOf (s : X86State) (b : Bool) : X86State := s.setFlag 11 b

def X86State.clearAf (s : X86State) : X86State := s.setFlag 4 false

/-! ### The shift/rotate family -/

def X86State.setOfAtOne (s : X86State) (cnt : Nat) (b : Bool) : X86State :=
  if cnt = 1 then s.setOf b else s

def X86State.msbXorCf (s : X86State) (r : BitVec 32) (size : Nat) : Bool :=
  (has r (vmsb size)).xor s.cf

section

variable (v : BitVec 32) (cnt size : Nat) (s : X86State)

def shl : BitVec 32 × X86State :=
  if cnt = 0 then (v, s)
  else
    let width := size * 8
    let r := if width ≤ cnt then 0 else v <<< cnt &&& vmask size
    let s := s.setCf (decide (cnt < width) && (v >>> (width - cnt)).getLsbD 0)
    let s := s.setOfAtOne cnt (s.msbXorCf r size)
    (r, s.clearAf.szp r size)

def shr : BitVec 32 × X86State :=
  if cnt = 0 then (v, s)
  else
    let width := size * 8
    let r := if width ≤ cnt then 0 else v >>> cnt
    let s := s.setCf ((v >>> (cnt - 1)).getLsbD 0)
    let s := s.setOf (decide (cnt = 1) && has v (vmsb size))
    (r, s.clearAf.szp r size)

def sar : BitVec 32 × X86State :=
  if cnt = 0 then (v, s)
  else
    let width := size * 8
    let fill := if has v (vmsb size) then vmask size else 0
    let r := if width ≤ cnt then fill else (v >>> cnt ||| fill <<< (width - cnt)) &&& vmask size
    -- CF is the last bit shifted out; past the width that is the sign
    let s := s.setCf (if width ≤ cnt then has v (vmsb size) else (v >>> (cnt - 1)).getLsbD 0)
    let s := s.setOfAtOne cnt false
    (r, s.clearAf.szp r size)

def rol : BitVec 32 × X86State :=
  if cnt = 0 then (v, s)
  else
    let width := size * 8
    let k := cnt % width
    let r := (v <<< k ||| v >>> (width - k)) &&& vmask size
    let s := s.setCf (r.getLsbD 0)
    (r, s.setOfAtOne cnt (s.msbXorCf r size))

def ror : BitVec 32 × X86State :=
  if cnt = 0 then (v, s)
  else
    let width := size * 8
    let k := cnt % width
    let r := (v >>> k ||| v <<< (width - k)) &&& vmask size
    let s := s.setCf (has r (vmsb size))
    (r, s.setOf ((has r (vmsb size)).xor (has r (vmsb size >>> 1))))

end

def carryRing (v : BitVec 32) (size : Nat) (s : X86State) : BitVec 64 :=
  (BitVec.ofBool s.cf).setWidth 64 <<< (size * 8) ||| (v &&& vmask size).setWidth 64

def ringOut (ring : BitVec 64) (size : Nat) (s : X86State) : BitVec 32 × X86State :=
  let s := s.setCf ((ring >>> (size * 8)).getLsbD 0)
  (ring.setWidth 32 &&& vmask size, s.setOf (s.msbXorCf (ring.setWidth 32) size))

def rcl (v : BitVec 32) (cnt size : Nat) (s : X86State) : BitVec 32 × X86State :=
  if cnt = 0 then (v, s)
  else
    let width := size * 8
    let ring := carryRing v size s
    let k := cnt % (width + 1)
    ringOut (ring <<< k ||| ring >>> (width + 1 - k)) size s

def rcr (v : BitVec 32) (cnt size : Nat) (s : X86State) : BitVec 32 × X86State :=
  if cnt = 0 then (v, s)
  else
    let width := size * 8
    let ring := carryRing v size s
    let k := cnt % (width + 1)
    ringOut (ring >>> k ||| ring <<< (width + 1 - k)) size s

/-! ### GRP2 -/

inductive ShiftOp where
  | rol
  | ror
  | rcl
  | rcr
  | shl
  | shr
  | sar
  deriving DecidableEq, Repr

namespace ShiftOp

def ofReg (reg : Reg) : ShiftOp :=
  match reg.toNat with
  | 0 => rol
  | 1 => ror
  | 2 => rcl
  | 3 => rcr
  | 4 | 6 => shl
  | 5 => shr
  | _ => sar

def apply (op : ShiftOp) : BitVec 32 → Nat → Nat → X86State → BitVec 32 × X86State :=
  match op with
  | rol => X86.rol
  | ror => X86.ror
  | rcl => X86.rcl
  | rcr => X86.rcr
  | shl => X86.shl
  | shr => X86.shr
  | sar => X86.sar

end ShiftOp

def maskedCount (cnt : BitVec 8) : Nat := (cnt &&& 31).toNat

def grp2 (size : Nat) (cnt : BitVec 8) : X86M D Unit := do
  let d ← getD
  let v ← rmSized size
  let s ← getS
  let out := (ShiftOp.ofReg d.reg).apply v (maskedCount cnt) size s
  modS fun _ => out.2
  -- count 0 changes nothing, not even the store path
  if maskedCount cnt ≠ 0 then setRmSized size out.1 else pure ()

inductive ShiftCount where
  | imm
  | one
  | cl
  deriving DecidableEq, Repr

def shiftCount (count : ShiftCount) : X86M D (BitVec 8) :=
  match count with
  | .imm => fetch8
  | .one => pure 1
  | .cl => do
    let s ← getS
    pure (s.l ecxI)

/-! ### Double shifts -/

/-- The result and the flags of SHLD. OF is written at the wide operand size only. -/
def shldMath (w32 : Bool) (dst src : BitVec 32) (cnt : Nat) (s : X86State) : BitVec 32 × X86State :=
  if w32 then
    let comb : BitVec 64 := dst.setWidth 64 <<< 32 ||| src.setWidth 64
    let r : BitVec 32 := (comb <<< cnt >>> 32).setWidth 32
    (r, if cnt = 0 then s else
      let s := s.setCf ((comb >>> (64 - cnt)).getLsbD 0)
      (s.setOf ((has r 0x80000000).xor (has dst 0x40000000))).szp r 4)
  else
    let comb : BitVec 32 := dst <<< 16 ||| src
    let r : BitVec 32 := ((comb <<< cnt >>> 16).setWidth 16).setWidth 32
    (r, if cnt = 0 then s else (s.setCf ((comb >>> (32 - cnt)).getLsbD 0)).szp r 2)

def shrdMath (w32 : Bool) (dst src : BitVec 32) (cnt : Nat) (s : X86State) : BitVec 32 × X86State :=
  if w32 then
    let comb : BitVec 64 := src.setWidth 64 <<< 32 ||| dst.setWidth 64
    let r : BitVec 32 := (comb >>> cnt).setWidth 32
    (r, if cnt = 0 then s else (s.setCf ((comb >>> (cnt - 1)).getLsbD 0)).szp r 4)
  else
    let comb : BitVec 32 := src <<< 16 ||| dst
    let r : BitVec 32 := ((comb >>> cnt).setWidth 16).setWidth 32
    (r, if cnt = 0 then s else (s.setCf ((comb >>> (cnt - 1)).getLsbD 0)).szp r 2)

inductive DoubleOp where
  | shld
  | shrd
  deriving DecidableEq, Repr

def DoubleOp.apply (op : DoubleOp) :
    Bool → BitVec 32 → BitVec 32 → Nat → X86State → BitVec 32 × X86State :=
  match op with
  | .shld => shldMath
  | .shrd => shrdMath

/-- The cases 0xa4, 0xa5, 0xac and 0xad of `run_op2` behind `modrm()` and the count. -/
def doubleShift (op : DoubleOp) (cnt : BitVec 8) : X86M D Unit := do
  let d ← getD
  let dst ← rmSized (opSize d.w32)
  let src ← regSized (opSize d.w32)
  let s ← getS
  let out := op.apply d.w32 dst src (maskedCount cnt) s
  modS fun _ => out.2
  setRmSized (opSize d.w32) out.1

end Cemu.X86
