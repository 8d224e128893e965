import Cemu.Lib.CInt
import Cemu.X86.Operand

/-!
# x86: flags, multiplication and division

The flag rules and the F6/F7 group. A C expression on signed integers whose exact result is no
value of its type ends the process, as the trap of the host's divide instruction does.
-/

namespace Cemu.X86

variable {D : Type}

/-! ### Flag rules -/

def kFlagCf : BitVec 32 := 1#32 <<< 0
def kFlagPf : BitVec 32 := 1#32 <<< 2
def kFlagAf : BitVec 32 := 1#32 <<< 4
def kFlagZf : BitVec 32 := 1#32 <<< 6
def kFlagSf : BitVec 32 := 1#32 <<< 7
def kFlagOf : BitVec 32 := 1#32 <<< 11
def kFlagArith : BitVec 32 := kFlagCf ||| kFlagPf ||| kFlagAf ||| kFlagZf ||| kFlagSf ||| kFlagOf

def vmask (size : Nat) : BitVec 32 := if size = 4 then 0xffffffff else 1#32 <<< (size * 8) - 1
def vmsb (size : Nat) : BitVec 32 := 1#32 <<< (size * 8 - 1)

def nibbleParity (v : BitVec 32) : Bool :=
  (v.getLsbD 0).xor (v.getLsbD 1) |>.xor (v.getLsbD 2) |>.xor (v.getLsbD 3)

def flagIf (c : Bool) (bit : BitVec 32) : BitVec 32 := if c then bit else 0

/-- SF, ZF and PF of a result. -/
def szpBits (r : BitVec 32) (size : Nat) : BitVec 32 :=
  flagIf (nibbleParity r == nibbleParity (r >>> 4)) kFlagPf |||
    flagIf (decide (r &&& vmask size = 0)) kFlagZf ||| flagIf (has r (vmsb size)) kFlagSf

def X86State.putArith (s : X86State) (f : BitVec 32) : X86State :=
  { s with fl := s.fl &&& ~~~kFlagArith ||| f }

/-- The flags of `a - b - bin = r`. -/
def flagsSub (s : X86State) (a b r : BitVec 32) (size bin : Nat) : X86State :=
  s.putArith (szpBits r size |||
    flagIf (decide ((a &&& vmask size).toNat < (b &&& vmask size).toNat + bin)) kFlagCf |||
    flagIf ((a ^^^ b ^^^ r).getLsbD 4) kFlagAf |||
    flagIf (has ((a ^^^ b) &&& (a ^^^ r)) (vmsb size)) kFlagOf)

def flagsLogic (s : X86State) (r : BitVec 32) (size : Nat) : X86State := s.putArith (szpBits r size)

def X86State.setCfOf (s : X86State) (b : Bool) : X86State := (s.setFlag 11 b).setFlag 0 b

def flagsMul (s : X86State) (prod : BitVec 64) (size : Nat) : X86State :=
  s.setCfOf (decide (prod >>> (size * 8) ≠ 0))

/-- CF and OF: the product is not its low half sign-extended. -/
def flagsImul (s : X86State) (prod : BitVec 64) (size : Nat) : X86State :=
  s.setCfOf (decide (prod ≠ (prod <<< (64 - size * 8)).sshiftRight (64 - size * 8)))

/-! ### Multiplication -/

/-- DX:AX or EDX:EAX. -/
def X86State.setPair (s : X86State) (w32 : Bool) (lo hi : BitVec 32) : X86State :=
  if w32 then (s.setE eaxI lo).setE edxI hi
  else (s.setX eaxI (lo.setWidth 16)).setX edxI (hi.setWidth 16)

def mul8 : X86M D Unit := do
  let v ← rm8
  let s ← getS
  let prod : BitVec 32 := (s.l eaxI).setWidth 32 * v.setWidth 32
  modS fun s => flagsMul (s.setX eaxI (prod.setWidth 16)) (prod.setWidth 64) 1

def imul8 : X86M D Unit := do
  let v ← rm8
  let s ← getS
  let prod : BitVec 32 := (s.l eaxI).signExtend 32 * v.signExtend 32
  modS fun s => flagsImul (s.setX eaxI (prod.setWidth 16)) (prod.signExtend 64) 1

def opSize (w32 : Bool) : Nat := if w32 then 4 else 2

def highHalf (w32 : Bool) (v : BitVec 64) : BitVec 32 :=
  (if w32 then v >>> 32 else v >>> 16).setWidth 32

def mulW (src : BitVec 32) : X86M D Unit := do
  let d ← getD
  let s ← getS
  let a := if d.w32 then s.r eaxI else (s.x eaxI).setWidth 32
  let prod : BitVec 64 := a.setWidth 64 * src.setWidth 64
  modS fun s =>
    flagsMul (s.setPair d.w32 (prod.setWidth 32) (highHalf d.w32 prod)) prod (opSize d.w32)

def signedOperand (w32 : Bool) (v : BitVec 32) : BitVec 64 :=
  if w32 then v.signExtend 64 else (v.setWidth 16).signExtend 64

def imulW (src : BitVec 32) : X86M D Unit := do
  let d ← getD
  let s ← getS
  let prod := signedOperand d.w32 (s.r eaxI) * signedOperand d.w32 src
  modS fun s =>
    flagsImul (s.setPair d.w32 (prod.setWidth 32) (highHalf d.w32 prod)) prod (opSize d.w32)

/-! ### Division -/

/-- A C expression without a value stops the process. -/
def defined {w : Nat} (v : Option (BitVec w)) : X86M D (BitVec w) :=
  match v with
  | some v => pure v
  | none => RaiseM.fatal

def X86State.setAlAh (s : X86State) (q r : BitVec 8) : X86State := (s.setL eaxI q).setH eaxI r

def div8 : X86M D Unit := do
  let v ← rm8
  let s ← getS
  let dividend : BitVec 32 := (s.x eaxI).setWidth 32
  let divisor : BitVec 32 := v.setWidth 32
  if divisor = 0 ∨ 0xff < dividend / divisor then de
  else modS fun s =>
    s.setAlAh ((dividend / divisor).setWidth 8) ((dividend % divisor).setWidth 8)

def idiv8 : X86M D Unit := do
  let v ← rm8
  let s ← getS
  let dividend : BitVec 32 := (s.x eaxI).signExtend 32
  let divisor : BitVec 32 := v.signExtend 32
  if divisor = 0 then de
  else
    let q ← defined (CInt.div dividend divisor)
    if q ≠ (q.setWidth 8).signExtend 32 then de
    else
      let r ← defined (CInt.rem dividend divisor)
      modS fun s => s.setAlAh (q.setWidth 8) (r.setWidth 8)

def X86State.pair (s : X86State) (w32 : Bool) : BitVec 64 :=
  if w32 then (s.r edxI).setWidth 64 <<< 32 ||| (s.r eaxI).setWidth 64
  else (s.x edxI).setWidth 64 <<< 16 ||| (s.x eaxI).setWidth 64

def divW (src : BitVec 32) : X86M D Unit := do
  let d ← getD
  let s ← getS
  let dividend := s.pair d.w32
  let divisor : BitVec 64 := (src &&& vmask (opSize d.w32)).setWidth 64
  if divisor = 0 ∨ (vmask (opSize d.w32)).setWidth 64 < dividend / divisor then de
  else modS fun s =>
    s.setPair d.w32 ((dividend / divisor).setWidth 32) ((dividend % divisor).setWidth 32)

def idivW (src : BitVec 32) : X86M D Unit := do
  let d ← getD
  let s ← getS
  let dividend :=
    if d.w32 then s.pair true else ((s.pair false).setWidth 32).signExtend 64
  let divisor := signedOperand d.w32 src
  if divisor = 0 then de
  else
    let q ← defined (CInt.div dividend divisor)
    -- 2^31 or 2^15: the first quotient out of range
    let hi : BitVec 64 := 1#64 <<< ((if d.w32 then 32 else 16) - 1)
    if q.slt (-hi) || hi.sle q then de
    else
      let r ← defined (CInt.rem dividend divisor)
      modS fun s => s.setPair d.w32 (q.setWidth 32) (r.setWidth 32)

/-! ### GRP3 -/

def rmSized (size : Nat) : X86M D (BitVec 32) :=
  if size = 1 then do
    let v ← rm8
    pure (v.setWidth 32)
  else if size = 2 then do
    let v ← rm16
    pure (v.setWidth 32)
  else rm32

def setRmSized (size : Nat) (v : BitVec 32) : X86M D Unit :=
  if size = 1 then setRm8 (v.setWidth 8)
  else if size = 2 then setRm16 (v.setWidth 16)
  else setRm32 v

def immSized (size : Nat) : X86M D (BitVec 32) := do
  let d ← getD
  if size = 1 then
    let v ← fetch8
    pure (v.setWidth 32)
  else if d.w32 then fetch32
  else fetchDisp16

def grp3Test (size : Nat) : X86M D Unit := do
  let imm ← immSized size
  let a ← rmSized size
  modS fun s => flagsLogic s (a &&& imm) size

def grp3Not (size : Nat) : X86M D Unit := do
  let v ← rmSized size
  setRmSized size (~~~v)

def grp3Neg (size : Nat) : X86M D Unit := do
  let v ← rmSized size
  let r := -v &&& vmask size
  modS fun s => flagsSub s 0 v r size 0
  setRmSized size r

def grp3Word (reg : Reg) (src : BitVec 32) : X86M D Unit :=
  if reg = 4 then mulW src
  else if reg = 5 then imulW src
  else if reg = 6 then divW src
  else idivW src

def grp3Byte (reg : Reg) : X86M D Unit :=
  if reg = 4 then mul8 else if reg = 5 then imul8 else if reg = 6 then div8 else idiv8

/-- F6 and F7, by the `reg` field. -/
def grp3Op (size : Nat) : X86M D Unit := do
  let d ← getD
  if d.reg ≤ 1 then grp3Test size
  else if d.reg = 2 then grp3Not size
  else if d.reg = 3 then grp3Neg size
  else if size = 1 then grp3Byte d.reg
  else
    let src ← rmSized size
    grp3Word d.reg src

end Cemu.X86
